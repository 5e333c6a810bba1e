import StartupLatency.Probe.Target
import StartupLatency.Proofs.UrlParts

/-!
The two spellings of a TCP target: a bare address, and a `tcp` URL. The URL always leads to the
address. The bare address is tried as a URL first, with the host as its scheme, so it is taken for
an address exactly if the host has not the name of a scheme that targets are told by.
-/

namespace StartupLatency.ProbeTarget

def hostChar (c : Char) : Bool := ('a' ≤ c && c ≤ 'z') || Text.isDigit c || c == '-' || c == '.'

structure HostName (host : String) : Prop where
  first : ∃ c rest, host.toList = c :: rest ∧ 'a' ≤ c ∧ c ≤ 'z'
  chars : ∀ c ∈ host.toList, hostChar c = true

def address (host : String) (port : Nat) : String := host ++ ":" ++ Text.Decimal.text port

-- What the parts of a URL make of a character of an address.
structure Plain (c : Char) : Prop where
  visible : 0x20 < c.toNat
  unblank : Text.isBlank c = false
  unmarked : c ∉ "@/?#[".toList

structure PlainHost (c : Char) : Prop extends Plain c where
  inScheme : Url.isSchemeChar c = true
  small : Text.lowerChar c = c
  colon : c ≠ ':'
  allowed : Url.Host.forbiddenInOpaque c = false
  kept : Url.keepOpaque c = true

theorem host_char_ascii (c : Char) (named : hostChar c = true) : c.toNat < 128 := by
  simp only [hostChar, Text.isDigit, Bool.or_eq_true, Bool.and_eq_true, decide_eq_true_eq,
    beq_iff_eq] at named
  rcases named with ((letter | digit) | rfl) | rfl
  · exact Nat.lt_of_le_of_lt letter.2 (by decide)
  · exact Nat.lt_of_le_of_lt digit.2 (by decide)
  · decide
  · decide

theorem host_char_plain (c : Char) (named : hostChar c = true) : PlainHost c := by
  have all := Url.Form.ascii_all (fun c => !hostChar c || (decide (0x20 < c.toNat) &&
    !Text.isBlank c && !"@/?#[".toList.contains c && Url.isSchemeChar c && Text.lowerChar c == c &&
      c != ':' && !Url.Host.forbiddenInOpaque c && Url.keepOpaque c)) (by decide) c
    (host_char_ascii c named)
  simp only [named, Bool.not_true, Bool.false_or, Bool.and_eq_true, decide_eq_true_eq,
    Bool.not_eq_true', beq_iff_eq, bne_iff_ne] at all
  obtain ⟨⟨⟨⟨⟨⟨⟨visible, unblank⟩, unmarked⟩, inScheme⟩, small⟩, colon⟩, allowed⟩, kept⟩ := all
  have absent : c ∉ "@/?#[".toList := by
    intro mark
    rw [List.contains_iff_mem.mpr mark] at unmarked
    cases unmarked
  exact ⟨⟨visible, unblank, absent⟩, inScheme, small, colon, allowed, kept⟩

theorem digit_char_host (n : Nat) : hostChar (Text.Decimal.digitChar n) = true := by
  simp [hostChar, Text.Decimal.is_digit_char]

variable {host : String} {port : Nat}

theorem address_chars :
    (address host port).toList = host.toList ++ ':' :: Text.Decimal.write port := by
  simp [address, Text.Decimal.text]

theorem address_plain (name : HostName host) : ∀ c ∈ (address host port).toList, Plain c := by
  intro c member
  rw [address_chars] at member
  rcases List.mem_append.mp member with inside | behind
  · exact (host_char_plain c (name.chars c inside)).toPlain
  · rcases List.mem_cons.mp behind with rfl | digit
    · exact ⟨by decide, by decide, by decide⟩
    · obtain ⟨m, rfl⟩ := Text.Decimal.mem_write port c digit
      exact (host_char_plain _ (digit_char_host m)).toPlain

theorem scheme_of_name (name : HostName host) : Url.Scheme host.toList := by
  obtain ⟨c, rest, whole, low, high⟩ := name.first
  refine ⟨⟨c, rest, whole, ?_⟩, fun c member => ?_⟩
  · simp [Text.isAlpha, low, high]
  · have plain := host_char_plain c (name.chars c member)
    exact ⟨plain.inScheme, plain.small⟩

def ofTried (target : String) : Except Url.Fault Url → Option ProbeTarget
  | .ok url =>
    if isHttp url then some (.http url)
    else if isTcp url then (address? url).map .tcp
    else some (.tcp target)
  | .error _ => some (.tcp target)

/-- Blanks around a target do not count, and what is left of a target is tried as a URL. -/
theorem parse_padded (before target after : String)
    (blank_before : ∀ c ∈ before.toList, Text.isBlank c = true)
    (blank_after : ∀ c ∈ after.toList, Text.isBlank c = true) (asked : target ≠ "")
    (unblank : ∀ c ∈ target.toList, Text.isBlank c = false) :
    parse? (before ++ target ++ after) = ofTried target (Url.parse target) := by
  have trimmed : Text.trimText (before ++ target ++ after) = target := by
    rw [Text.trimText, String.toList_append, String.toList_append,
      Text.trim_padded _ _ _ blank_before blank_after,
      Text.trim_unblank _ (fun c first => unblank c (List.mem_of_mem_head? first))
        (fun c last => unblank c (List.mem_of_mem_getLast? last)), String.ofList_toList]
  rw [parse?, trimmed]
  exact if_neg asked

theorem address_asked (name : HostName host) : address host port ≠ "" := by
  obtain ⟨c, rest, whole, -⟩ := name.first
  intro blank
  have chars := congrArg String.toList blank
  rw [address_chars, whole] at chars
  cases chars

theorem address_host_plain (name : HostName host) :
    ':' ∉ host.toList ∧ '[' ∉ host.toList ∧ '@' ∉ (address host port).toList ∧
      '#' ∉ (address host port).toList ∧ '?' ∉ (address host port).toList ∧
      '/' ∉ (address host port).toList := by
  have marks (mark : Char) (marked : mark ∈ "@/?#[".toList) :
      mark ∉ (address host port).toList :=
    fun member => (address_plain name mark member).unmarked marked
  refine ⟨fun colon => ?_, fun bracket => ?_, marks '@' (by decide), marks '#' (by decide),
    marks '?' (by decide), marks '/' (by decide)⟩
  · exact (host_char_plain ':' (name.chars ':' colon)).colon rfl
  · exact (host_char_plain '[' (name.chars '[' bracket)).unmarked (by decide)

def tcpUrl (host : String) (port : Nat) : Url :=
  ⟨"tcp".toList, some ⟨[], none, .domain host.toList, some port⟩, .segments [], none, none⟩

theorem parse_tcp_url (name : HostName host) (fits : port < 65536) :
    Url.parse ("tcp://" ++ address host port) = .ok (tcpUrl host port) := by
  obtain ⟨colon, bracket, sign, hash, mark, stroke⟩ := @address_host_plain host port name
  have scheme : Url.Scheme "tcp".toList :=
    scheme_of_name ⟨⟨_, _, rfl, by decide⟩, List.all_eq_true.mp (by decide)⟩
  have visible : ∀ c ∈ ("tcp://" ++ address host port).toList, 0x20 < c.toNat := by
    intro c member
    rw [String.toList_append] at member
    rcases List.mem_append.mp member with front | back
    · have all : "tcp://".toList.all (fun c => decide (0x20 < c.toNat)) = true := by decide
      exact of_decide_eq_true (List.all_eq_true.mp all c front)
    · exact (address_plain name c back).visible
  have whole : ("tcp://" ++ address host port).toList =
      "tcp".toList ++ ':' :: ('/' :: '/' :: (address host port).toList) := by simp
  have parts : Url.Parts.of ('/' :: '/' :: (address host port).toList) =
      ⟨'/' :: '/' :: (address host port).toList, none, none⟩ :=
    Url.parts_plain _ (by simp [hash]) (by simp [mark])
  have found : Url.authority "tcp".toList false true (address host port).toList =
      .ok ⟨[], none, .domain host.toList, some port⟩ := by
    obtain ⟨c, rest, start, -⟩ := name.first
    rw [address_chars] at sign ⊢
    refine Url.authority_named _ _ _ _ (by simp [start]) sign colon bracket ?_ ?_ fits (by decide)
    · exact fun c member => (host_char_plain c (name.chars c member)).allowed
    · exact fun c member => (host_char_plain c (name.chars c member)).kept
  have alone := Url.with_authority_alone "tcp".toList false
    ('/' :: '/' :: (address host port).toList) _ (fun c member => ?_) _ found
  · rw [← String.ofList_toList (s := "tcp://" ++ address host port),
      Url.parse_scheme _ "tcp".toList _ scheme visible whole, parts]
    exact alone
  · have other : c ≠ '/' := fun same => stroke (same ▸ member)
    simp [Url.isSlash, other]

/-- The bare address as a URL: the host in the place of the scheme, nothing but digits behind. -/
theorem parse_address (name : HostName host) :
    Url.parse (address host port) =
      Url.absolute host.toList ⟨Text.Decimal.write port, none, none⟩ := by
  obtain ⟨-, -, -, hash, mark, -⟩ := @address_host_plain host port name
  have parts : Url.Parts.of (Text.Decimal.write port) = ⟨Text.Decimal.write port, none, none⟩ := by
    rw [address_chars] at hash mark
    simp only [List.mem_append, List.mem_cons, not_or] at hash mark
    exact Url.parts_plain _ hash.2.2 mark.2.2
  rw [← String.ofList_toList (s := address host port),
    Url.parse_scheme _ _ _ (scheme_of_name name)
      (fun c member => (address_plain name c member).visible) address_chars, parts]

def portUrl (scheme : String) (port : Nat) : Url :=
  ⟨scheme.toList, some ⟨[], none, .ipv4 port, none⟩, .segments [[]], none, none⟩

theorem parse_http_port (scheme : String) (known : scheme = "http" ∨ scheme = "https")
    (port : Nat) (fits : port < 65536) :
    Url.absolute scheme.toList ⟨Text.Decimal.write port, none, none⟩ =
      .ok (portUrl scheme port) := by
  have digits := Url.Host.written_digits port
  have unslashed : ∀ c ∈ Text.Decimal.write port, Url.isSlash true c = false := by
    intro c member
    have ascii := (Url.Host.digit_kept c (digits c member)).ascii
    have all := Url.Form.ascii_all (fun c => !Text.isDigit c || !Url.isSlash true c) (by decide) c
      ascii
    simpa [digits c member] using all
  have kept : (Text.Decimal.write port).dropWhile (Url.isSlash true) = Text.Decimal.write port := by
    obtain ⟨m, rest, written⟩ := Text.Decimal.write_cons port
    rw [written] at unslashed ⊢
    rw [List.dropWhile_cons_of_neg (by simp [unslashed _ List.mem_cons_self])]
  have alone := Url.with_authority_alone scheme.toList true (Text.Decimal.write port) _ unslashed _
    (Url.authority_number scheme.toList port (Nat.lt_trans fits (by decide)))
  rcases known with rfl | rfl
  · rw [Url.absolute, if_neg (by decide), if_pos (by decide)]
    dsimp only
    rw [kept]
    exact alone
  · rw [Url.absolute, if_neg (by decide), if_pos (by decide)]
    dsimp only
    rw [kept]
    exact alone

/-- Behind `tcp:` a port is a path, so that the URL has no host. -/
theorem parse_tcp_port (port : Nat) :
    Url.absolute "tcp".toList ⟨Text.Decimal.write port, none, none⟩ =
      .ok ⟨"tcp".toList, none, .opaqueText (Url.escape Url.keepOpaque (Text.Decimal.write port)),
        none, none⟩ := by
  obtain ⟨m, rest, written⟩ := Text.Decimal.write_cons port
  have stroke : Text.Decimal.digitChar m ≠ '/' := fun same => by
    have digit := Text.Decimal.is_digit_char m
    rw [same] at digit
    cases digit
  rw [Url.absolute, if_neg (by decide), if_neg (by decide), written]
  dsimp only
  split
  · rename_i more same
    exact absurd (List.cons.inj same).1 stroke
  · rename_i more same
    exact absurd (List.cons.inj same).1 stroke
  · rfl

/-- A URL of another scheme than those that targets are told by. -/
theorem of_other_scheme {rest : Url.Parts} (other : host ≠ "tcp" ∧ host ≠ "http" ∧ host ≠ "https")
    (url : Url) (read : Url.absolute host.toList rest = .ok url) :
    isHttp url = false ∧ isTcp url = false := by
  have scheme := Url.absolute_scheme _ _ url read
  simp only [isHttp, isTcp, scheme, Bool.or_eq_false_iff, beq_eq_false_iff_ne, ne_eq,
    String.toList_inj]
  exact ⟨other.2, other.1⟩

section Padded

variable (before after : String) (blank_before : ∀ c ∈ before.toList, Text.isBlank c = true)
  (blank_after : ∀ c ∈ after.toList, Text.isBlank c = true)
include blank_before blank_after

theorem parse_by_url (name : HostName host) (fits : port < 65536) :
    parse? (before ++ ("tcp://" ++ address host port) ++ after) =
      some (.tcp (address host port)) := by
  have unblank : ∀ c ∈ ("tcp://" ++ address host port).toList, Text.isBlank c = false := by
    intro c member
    rw [String.toList_append, List.mem_append] at member
    rcases member with front | back
    · have all : "tcp://".toList.all (fun c => !Text.isBlank c) = true := by decide
      simpa using List.all_eq_true.mp all c front
    · exact (address_plain name c back).unblank
  obtain ⟨c, rest, start, -⟩ := name.first
  have found : (tcpUrl host port).host? = some (.domain host.toList) := by
    simp [Url.host?, tcpUrl, start, Url.Host.isEmpty]
  have written : address? (tcpUrl host port) = some (address host port) := by
    simp only [address?, found, bind, Option.bind]
    rw [← String.ofList_toList (s := address host port), address_chars]
    rfl
  have http : isHttp (tcpUrl host port) = false := rfl
  have tcp : isTcp (tcpUrl host port) = true := rfl
  rw [parse_padded before _ after blank_before blank_after (by simp) unblank,
    parse_tcp_url name fits]
  simp [ofTried, http, tcp, written]

theorem parse_bare (name : HostName host) :
    parse? (before ++ address host port ++ after) =
      ofTried (address host port)
        (Url.absolute host.toList ⟨Text.Decimal.write port, none, none⟩) := by
  rw [parse_padded before _ after blank_before blank_after (address_asked name)
    fun c member => (address_plain name c member).unblank, parse_address name]

end Padded

/-- Behind the `tcp` URL is always the address. The bare address is one unless the host has the name
of a scheme that targets are told by: behind `tcp` there is no host then, and behind `http` and
`https` the port is taken for the host. -/
theorem spellings_agree_iff (host : String) (name : HostName host) (port : Nat)
    (fits : port < 65536) (before after : String)
    (blank_before : ∀ c ∈ before.toList, Text.isBlank c = true)
    (blank_after : ∀ c ∈ after.toList, Text.isBlank c = true) :
    parse? (before ++ ("tcp://" ++ address host port) ++ after) =
        some (.tcp (address host port)) ∧
      (parse? (before ++ address host port ++ after) = some (.tcp (address host port)) ↔
        host ≠ "tcp" ∧ host ≠ "http" ∧ host ≠ "https") ∧
      (host = "tcp" → parse? (before ++ address host port ++ after) = none) ∧
      (host = "http" ∨ host = "https" →
        parse? (before ++ address host port ++ after) = some (.http (portUrl host port))) := by
  have bare := @parse_bare host port before after blank_before blank_after name
  have refused (same : host = "tcp") : parse? (before ++ address host port ++ after) = none := by
    rw [bare, same, parse_tcp_port]
    rfl
  have requested (known : host = "http" ∨ host = "https") :
      parse? (before ++ address host port ++ after) = some (.http (portUrl host port)) := by
    rw [bare, parse_http_port host known port fits]
    rcases known with rfl | rfl <;> rfl
  refine ⟨parse_by_url before after blank_before blank_after name fits,
    ⟨fun taken => ?_, fun other => ?_⟩, refused, requested⟩
  · refine ⟨fun same => ?_, fun same => ?_, fun same => ?_⟩
    · rw [refused same] at taken
      cases taken
    · rw [requested (Or.inl same)] at taken
      cases taken
    · rw [requested (Or.inr same)] at taken
      cases taken
  · rw [bare]
    cases read : Url.absolute host.toList ⟨Text.Decimal.write port, none, none⟩ with
    | error fault => rfl
    | ok url =>
      obtain ⟨http, tcp⟩ := of_other_scheme other url read
      simp [ofTried, http, tcp]

-- The scheme `ftp` is a special one, yet no target is told by it.
theorem padded_ftp_host_agrees :
    parse? ("\t" ++ ("tcp://" ++ address "ftp" 21) ++ "\u3000") = some (.tcp (address "ftp" 21)) ∧
      parse? ("\t" ++ address "ftp" 21 ++ "\u3000") = some (.tcp (address "ftp" 21)) := by
  have name : HostName "ftp" := ⟨⟨_, _, rfl, by decide⟩, List.all_eq_true.mp (by decide)⟩
  obtain ⟨by_url, bare, -⟩ := spellings_agree_iff "ftp" name 21 (by decide) "\t" "\u3000"
    (List.all_eq_true.mp (by decide)) (List.all_eq_true.mp (by decide))
  exact ⟨by_url, bare.mpr (by decide)⟩

-- A host may have the name of a scheme that targets are told by.
theorem host_named_tcp_refused :
    HostName "tcp" ∧ Url.Host.endsInNumber "tcp".toList = false ∧
      parse? "tcp://tcp:80" = some (.tcp "tcp:80") ∧ parse? "tcp:80" = none ∧
      parse? "http:80" = some (.http (portUrl "http" 80)) := by
  refine ⟨⟨⟨_, _, rfl, by decide⟩, List.all_eq_true.mp (by decide)⟩, by decide, ?_, by decide, ?_⟩
  · decide +kernel
  · decide +kernel

end StartupLatency.ProbeTarget
