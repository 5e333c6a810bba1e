import StartupLatency.Proofs.Decimal
import StartupLatency.Proofs.FormRoundTrip
import StartupLatency.Url.Parser
import StartupLatency.Word

/-!
The parts of a URL as they are found in its text: the scheme in front of the first colon, which the
URL keeps whatever else is read, host and port of an authority, and a decimal number as a host,
which is an address.
-/

namespace StartupLatency.Url

theorem clean_plain (cs : List Char) (plain : ∀ c ∈ cs, 0x20 < c.toNat) : clean cs = cs := by
  have kept (cs : List Char) (plain : ∀ c ∈ cs, 0x20 < c.toNat) :
      cs.dropWhile (fun c => decide (c.toNat ≤ 0x20)) = cs := by
    cases cs with
    | nil => rfl
    | cons c rest =>
      have first := plain c List.mem_cons_self
      rw [List.dropWhile_cons_of_neg (by simpa using first)]
  have back : ∀ c ∈ cs.reverse, 0x20 < c.toNat := by simpa using plain
  have inner : ∀ c ∈ cs, (!"\t\n\r".toList.contains c) = true := by
    intro c member
    have low : "\t\n\r".toList.all (fun mark => decide (mark.toNat ≤ 0x20)) = true := by decide
    have outside : c ∉ "\t\n\r".toList := fun mark =>
      absurd (plain c member) (Nat.not_lt.mpr (of_decide_eq_true (List.all_eq_true.mp low c mark)))
    simpa using outside
  simp only [clean, kept cs plain, kept cs.reverse back, List.reverse_reverse,
    List.filter_eq_self.mpr inner]

structure Scheme (scheme : List Char) : Prop where
  first : ∃ c rest, scheme = c :: rest ∧ Text.isAlpha c = true
  chars : ∀ c ∈ scheme, isSchemeChar c = true ∧ Text.lowerChar c = c

theorem split_scheme (scheme rest : List Char) (proper : Scheme scheme) :
    splitScheme? (scheme ++ ':' :: rest) = some (scheme, rest) := by
  obtain ⟨⟨c, more, rfl, alpha⟩, chars⟩ := proper
  have inside : ∀ d ∈ c :: more, isSchemeChar d = true := fun d member => (chars d member).1
  have front : (c :: more ++ ':' :: rest).takeWhile isSchemeChar = c :: more := by
    rw [List.takeWhile_append_of_pos inside, List.takeWhile_cons_of_neg (by decide),
      List.append_nil]
  have back : (c :: more ++ ':' :: rest).dropWhile isSchemeChar = ':' :: rest := by
    rw [List.dropWhile_append_of_pos inside, List.dropWhile_cons_of_neg (by decide)]
  have small : Text.lower (c :: more) = c :: more :=
    (List.map_congr_left fun d member => (chars d member).2).trans (List.map_id _)
  simp only [splitScheme?, List.cons_append, List.head?_cons, alpha, if_true]
  rw [← List.cons_append, back, front]
  exact congrArg (fun scheme => some (scheme, rest)) small

theorem parse_scheme (raw scheme rest : List Char) (proper : Scheme scheme)
    (plain : ∀ c ∈ raw, 0x20 < c.toNat) (whole : raw = scheme ++ ':' :: rest) :
    parse (String.ofList raw) = absolute scheme (Parts.of rest) := by
  rw [parse, parseAgainst, String.toList_ofList, clean_plain raw plain, whole,
    split_scheme scheme rest proper]

theorem cut_absent (separator : Char) (cs : List Char) (absent : separator ∉ cs) :
    cutAt separator cs = (cs, none) := by
  have all : (cs ++ []).dropWhile (· != separator) = [] :=
    List.dropWhile_append_of_pos (Text.others_of_absent separator cs absent)
  rw [List.append_nil] at all
  rw [cutAt, all]

theorem parts_plain (cs : List Char) (hash : '#' ∉ cs) (mark : '?' ∉ cs) :
    Parts.of cs = ⟨cs, none, none⟩ := by
  rw [Parts.of, cut_absent '#' cs hash]
  dsimp only
  rw [cut_absent '?' cs mark]

theorem with_authority_read (scheme : List Char) (special : Bool) (parts : Parts)
    (cs : List Char) (url : Url) (read : withAuthority scheme special parts cs = .ok url) :
    url.scheme = scheme ∧ ∃ segments, url.path = .segments segments := by
  have behind (path : List Char) :
      ∃ segments, pathAfterAuthority special path = .segments segments := by
    cases path with
    | nil => exact ⟨_, rfl⟩
    | cons c rest => exact ⟨_, rfl⟩
  simp only [withAuthority, bind, Except.bind] at read
  split at read
  · cases read
  · cases read
    exact ⟨rfl, behind _⟩

theorem file_read (parts : Parts) (url : Url) (read : file parts = .ok url) :
    url.scheme = "file".toList ∧ ∃ segments, url.path = .segments segments := by
  have rooted (segments pieces : List (List Char)) :
      ∃ kept, filePath segments pieces = .segments kept := ⟨_, rfl⟩
  simp only [file, bind, Except.bind] at read
  split at read
  · split at read
    · split at read
      · cases read
        exact ⟨rfl, rooted _ _⟩
      · split at read
        · cases read
          exact ⟨rfl, rooted _ _⟩
        · split at read
          · cases read
          · cases read
            exact ⟨rfl, rooted _ _⟩
    · split at read <;> cases read <;> exact ⟨rfl, rooted _ _⟩
  · cases read
    exact ⟨rfl, rooted _ _⟩
  · cases read
    exact ⟨rfl, _, rfl⟩

/-- Whatever is read behind it, a scheme stays the scheme. -/
theorem absolute_scheme (scheme : List Char) (parts : Parts) (url : Url)
    (read : absolute scheme parts = .ok url) : url.scheme = scheme := by
  simp only [absolute] at read
  split at read
  · rename_i named
    rw [named]
    exact (file_read parts url read).1
  · split at read
    · exact (with_authority_read _ _ _ _ url read).1
    · split at read
      · exact (with_authority_read _ _ _ _ url read).1
      · cases read
        rfl
      · cases read
        rfl

theorem cut_user_absent (cs : List Char) (sign : '@' ∉ cs) : cutUserInfo cs = (none, cs) := by
  rw [cutUserInfo, cut_absent '@' cs.reverse (by simpa using sign)]
  simp

/-- A host without brackets ends at the first colon. -/
theorem cut_host_colon (host digits : List Char) (colon : ':' ∉ host) (bracket : '[' ∉ host) :
    cutHost false (host ++ ':' :: digits) = (host, some digits) := by
  induction host with
  | nil => rfl
  | cons c rest ih =>
    simp only [List.mem_cons, not_or] at colon bracket
    rw [List.cons_append, cutHost, if_neg (fun here => colon.1 here.1.symm),
      if_neg (Ne.symm bracket.1)]
    dsimp only
    rw [ite_self, ih colon.2 bracket.2]

theorem cut_host_whole (host : List Char) (colon : ':' ∉ host) (bracket : '[' ∉ host) :
    cutHost false host = (host, none) := by
  induction host with
  | nil => rfl
  | cons c rest ih =>
    simp only [List.mem_cons, not_or] at colon bracket
    rw [cutHost, if_neg (fun here => colon.1 here.1.symm), if_neg (Ne.symm bracket.1)]
    dsimp only
    rw [ite_self, ih colon.2 bracket.2]

theorem is_empty_written (n : Nat) : (Text.Decimal.write n).isEmpty = false := by
  obtain ⟨m, rest, written⟩ := Text.Decimal.write_cons n
  rw [written]
  rfl

theorem port_written (scheme : List Char) (n : Nat) (fits : n < 65536)
    (ordinary : defaultPort? scheme = none) :
    port scheme (Text.Decimal.write n) = .ok (some n) := by
  obtain ⟨m, rest, written⟩ := Text.Decimal.write_cons n
  have value : Text.Decimal.read? (Text.Decimal.write n) = some n := by
    have value := Text.Decimal.read_write n
    rw [written] at value ⊢
    exact value
  simp only [port, is_empty_written, value, fits, ordinary, if_true, Bool.false_eq_true, if_false,
    reduceCtorEq]

theorem escape_kept (keep : Char → Bool) (cs : List Char) (kept : ∀ c ∈ cs, keep c = true) :
    escape keep cs = cs := by
  induction cs with
  | nil => rfl
  | cons c rest ih =>
    obtain ⟨here, later⟩ := List.forall_mem_cons.mp kept
    have behind : rest.flatMap _ = rest := ih later
    rw [escape, List.flatMap_cons, if_pos here, behind, List.singleton_append]

theorem Host.bracketed_absent (cs : List Char) (bracket : '[' ∉ cs) : bracketed? cs = none := by
  unfold bracketed?
  split
  · exact absurd List.mem_cons_self bracket
  · rfl

/-- An opaque host and a port, and nothing in front of them. -/
theorem authority_named (scheme host : List Char) (n : Nat) (isLast : Bool) (named : host ≠ [])
    (sign : '@' ∉ host ++ ':' :: Text.Decimal.write n) (colon : ':' ∉ host) (bracket : '[' ∉ host)
    (allowed : ∀ c ∈ host, Host.forbiddenInOpaque c = false)
    (kept : ∀ c ∈ host, keepOpaque c = true) (fits : n < 65536)
    (ordinary : defaultPort? scheme = none) :
    authority scheme false isLast (host ++ ':' :: Text.Decimal.write n) =
      .ok ⟨[], none, .domain host, some n⟩ := by
  have some_host : host.isEmpty = false := List.isEmpty_eq_false_iff.mpr named
  have opaque_host : Host.opaqueHost host = .ok (.domain host) := by
    have none_forbidden : host.any Host.forbiddenInOpaque = false :=
      List.any_eq_false.mpr fun c member => by simp [allowed c member]
    simp [Host.opaqueHost, Host.bracketed_absent host bracket, none_forbidden,
      escape_kept keepOpaque host kept]
  simp only [authority, cut_user_absent _ sign, cut_host_colon host _ colon bracket, some_host,
    opaque_host, bind, Except.bind, Option.getD_some, port_written scheme n fits ordinary,
    Bool.false_and, Bool.false_eq_true, if_false]
  rfl

theorem with_authority_alone (scheme : List Char) (special : Bool) (main cs : List Char)
    (stroke : ∀ c ∈ cs, isSlash special c = false) (found : Authority)
    (read : authority scheme special true cs = .ok found) :
    withAuthority scheme special ⟨main, none, none⟩ cs =
      .ok ⟨scheme, some found, pathAfterAuthority special [], none, none⟩ := by
  have inside : ∀ c ∈ cs, (!isSlash special c) = true := fun c member => by simp [stroke c member]
  have front : cs.takeWhile (fun c => !isSlash special c) = cs := by
    simpa using @List.takeWhile_append_of_pos _ _ cs [] inside
  have back : cs.dropWhile (fun c => !isSlash special c) = [] := by
    simpa using @List.dropWhile_append_of_pos _ _ cs [] inside
  simp only [withAuthority, front, back, List.isEmpty_nil, Option.isNone_none, Bool.and_self, read,
    bind, Except.bind]
  rfl

theorem unescape_unmarked (cs : List Char) (plain : ∀ c ∈ cs, c ≠ '%') :
    unescape cs = Text.Utf8.encode cs := by
  induction cs with
  | nil => rfl
  | cons c rest ih =>
    obtain ⟨here, later⟩ := List.forall_mem_cons.mp plain
    rw [unescape_plain c rest here, ih later]
    rfl

/-! A decimal number as a host. -/

namespace International

theorem to_ascii_plain (cs : List Char)
    (plain : ∀ c ∈ cs, c.toNat < 128 ∧ foldPoint c.toNat = c.toNat) (dot : '.' ∉ cs)
    (label : cs ≠ "xn--".toList) : toAscii? cs = some cs := by
  have kept : cs.filter (fun c => !isIgnored c.toNat) = cs := by
    refine List.filter_eq_self.mpr fun c member => ?_
    have ascii := (plain c member).1
    simp only [isIgnored, Bool.not_eq_true', Bool.or_eq_false_iff, beq_eq_false_iff_ne]
    omega
  have allowed : cs.any (fun c => isRefused c.toNat) = false := by
    refine List.any_eq_false.mpr fun c member => ?_
    have ascii := (plain c member).1
    simp only [isRefused, Bool.or_eq_true, Bool.and_eq_true, decide_eq_true_eq, beq_iff_eq]
    omega
  have folded : cs.map (fun c => Char.ofNat (foldPoint c.toNat)) = cs := by
    refine (List.map_congr_left fun c member => ?_).trans (List.map_id cs)
    rw [(plain c member).2, Char.ofNat_toNat]
    rfl
  have ascii : cs.all (fun c => decide (c.toNat < 128)) = true :=
    List.all_eq_true.mpr fun c member => decide_eq_true (plain c member).1
  have other : [cs].contains "xn--".toList = false := by simpa using Ne.symm label
  simp only [toAscii?, kept, allowed, folded, Text.split_on_piece '.' cs dot, other,
    Bool.false_eq_true, if_false, List.map_cons, List.map_nil, labelToAscii, ascii, if_true,
    List.intercalate_singleton]

end International

namespace Host
open Text.Decimal

structure Kept (c : Char) : Prop where
  ascii : c.toNat < 128
  folded : International.foldPoint c.toNat = c.toNat
  allowed : forbiddenInDomain c = false
  dot : c ≠ '.'
  percent : c ≠ '%'
  hexMark : c ≠ 'x' ∧ c ≠ 'X'

theorem digit_kept (c : Char) (digit : Text.isDigit c = true) : Kept c := by
  have ascii : c.toNat < 128 := Nat.lt_of_le_of_lt (digit_bounds c digit).2 (by decide)
  have all := Form.ascii_all (fun c => !Text.isDigit c ||
    (International.foldPoint c.toNat == c.toNat && !forbiddenInDomain c && c != '.' && c != '%' &&
      c != 'x' && c != 'X')) (by decide) c ascii
  simp only [digit, Bool.not_true, Bool.false_or, Bool.and_eq_true, beq_iff_eq, Bool.not_eq_true',
    bne_iff_ne] at all
  obtain ⟨⟨⟨⟨⟨folded, allowed⟩, dot⟩, percent⟩, small⟩, great⟩ := all
  exact ⟨ascii, folded, allowed, dot, percent, small, great⟩

theorem written_digits (n : Nat) : ∀ c ∈ write n, Text.isDigit c = true := by
  intro c member
  obtain ⟨m, rfl⟩ := mem_write n c member
  exact is_digit_char m

theorem number_written (n : Nat) : number? 10 (write n) = some n := by
  induction n using Nat.strongRecOn with
  | ind n ih =>
    have digit (n : Nat) : Text.hexValue? (digitChar n) = some (n % 10) := by
      rw [Text.hexValue?, if_pos (is_digit_char n), digit_char_value]
    have last (cs : List Char) (value n : Nat) (front : number? 10 cs = some value) :
        number? 10 (cs ++ [digitChar n]) = some (10 * value + n % 10) := by
      have small : n % 10 < 10 := Nat.mod_lt n (by decide)
      unfold number? at front ⊢
      rw [List.foldl_append, front, List.foldl_cons, List.foldl_nil, Option.bind_some, digit,
        Option.bind_some, if_pos small]
    rw [write_last_digit]
    split
    · rename_i small
      have single := last [] 0 n rfl
      rwa [List.nil_append, Nat.mul_zero, Nat.zero_add, Nat.mod_eq_of_lt small] at single
    · have shorter : n / 10 < n := Nat.div_lt_self (by omega) (by decide)
      rw [last _ _ n (ih (n / 10) shorter), Nat.div_add_mod]

/-- Without a leading zero a number is decimal. -/
theorem ipv4_number_written (n : Nat) : ipv4Number? (write n) = some n := by
  have decimal := number_written n
  have digits := written_digits n
  unfold ipv4Number?
  split
  · rename_i blank
    obtain ⟨m, rest, written⟩ := write_cons n
    rw [written] at blank
    cases blank
  · rename_i rest written
    exact absurd rfl (digit_kept 'x' (digits 'x' (by simp [written]))).hexMark.1
  · rename_i rest written
    exact absurd rfl (digit_kept 'X' (digits 'X' (by simp [written]))).hexMark.2
  · rename_i c rest written
    rcases Nat.eq_zero_or_pos n with rfl | positive
    · rw [write_last_digit, if_pos (by decide)] at written
      cases written
    · have head := head_write n positive
      rw [written] at head
      exact absurd rfl head
  · exact decimal

/-- A number that fits four bytes is the address of these bytes. -/
theorem special_written (n : Nat) (fits : n < Word.limit32) :
    special (write n) = .ok (.ipv4 n) := by
  have kept (c : Char) (member : c ∈ write n) := digit_kept c (written_digits n c member)
  obtain ⟨m, rest, written⟩ := write_cons n
  have bracket : '[' ∉ write n := fun member => absurd (written_digits n '[' member) (by decide)
  have dot : '.' ∉ write n := fun member => (kept '.' member).dot rfl
  have bytes := unescape_unmarked (write n) fun c member => (kept c member).percent
  have name : International.toAscii? (write n) = some (write n) := by
    refine International.to_ascii_plain _ (fun c member => ?_) dot fun same => ?_
    · exact ⟨(kept c member).ascii, (kept c member).folded⟩
    · exact absurd (written_digits n 'n' (by simp [same])) (by decide)
  have allowed : (write n).any forbiddenInDomain = false :=
    List.any_eq_false.mpr fun c member => by simp [(kept c member).allowed]
  have labels : dropLastEmpty (Text.splitOn '.' (write n)) = [write n] := by
    rw [Text.split_on_piece '.' _ dot, dropLastEmpty, written]
    rfl
  have ends : endsInNumber (write n) = true := by
    simp [endsInNumber, labels, ipv4_number_written]
  have small : n < 4294967296 := fits
  have address : ipv4? (write n) = some n := by
    simp [ipv4?, labels, ipv4_number_written, small]
  simp only [special, bracketed_absent _ bracket, bytes, Text.Utf8.decode_exact, Option.bind_some,
    name, allowed, is_empty_written, ends, address, Bool.false_eq_true, if_false, if_true]

end Host

theorem authority_number (scheme : List Char) (n : Nat) (fits : n < Word.limit32) :
    authority scheme true true (Text.Decimal.write n) = .ok ⟨[], none, .ipv4 n, none⟩ := by
  have digits := Host.written_digits n
  have absent (mark : Char) (other : Text.isDigit mark = false) : mark ∉ Text.Decimal.write n :=
    fun member => Bool.false_ne_true (other.symm.trans (digits mark member))
  simp only [authority, cut_user_absent _ (absent '@' (by decide)),
    cut_host_whole _ (absent ':' (by decide)) (absent '[' (by decide)), is_empty_written,
    Host.special_written n fits, bind, Except.bind, Bool.false_and, Bool.false_eq_true, if_false,
    if_true]
  rfl

end StartupLatency.Url
