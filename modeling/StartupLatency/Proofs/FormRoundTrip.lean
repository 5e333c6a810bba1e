import StartupLatency.Proofs.Pieces
import StartupLatency.Url.Form

/-!
Reading back what the form encoding has written: the characters of UTF-8 bytes, the bytes that are
written after a percent sign, and the pairs that are joined in a query.
-/

namespace StartupLatency

namespace Text.Utf8

theorem run_lead (b : Nat) (lead : Lead) (rest : List Nat) (large : 0x80 ≤ b)
    (announced : lead? b = some lead) : run .start (b :: rest) = run (.inside lead) rest := by
  rw [run, begin, if_neg (Nat.not_lt.mpr large), announced]
  rfl

theorem run_last (bits low high b : Nat) (rest : List Nat) (fits : low ≤ b ∧ b ≤ high) :
    run (.inside ⟨bits, low, high, 1⟩) (b :: rest) =
      some (Char.ofNat (bits * 64 + (b - 0x80))) :: run .start rest := by
  rw [run, if_pos fits, if_pos rfl]

theorem run_inner (bits low high more b : Nat) (rest : List Nat) (fits : low ≤ b ∧ b ≤ high) :
    run (.inside ⟨bits, low, high, more + 2⟩) (b :: rest) =
      run (.inside ⟨bits * 64 + (b - 0x80), 0x80, 0xBF, more + 1⟩) rest := by
  rw [run, if_pos fits, if_neg (by simp)]
  rfl

/-- A character behind the first 2048 is announced by a byte that lets its second byte through. -/
theorem lead_three (n : Nat) (low : 0x800 ≤ n) (high : n < 0x10000)
    (valid : n < 0xD800 ∨ 0xDFFF < n) :
    ∃ least most, lead? (0xE0 + n / 4096) = some ⟨n / 4096, least, most, 2⟩ ∧
      least ≤ 0x80 + n / 64 % 64 ∧ 0x80 + n / 64 % 64 ≤ most := by
  unfold lead?
  rw [if_neg (by omega), if_neg (by omega)]
  by_cases first : n < 0x1000
  · rw [if_pos (by omega), show n / 4096 = 0 by omega]
    exact ⟨_, _, rfl, by omega, by omega⟩
  · rw [if_neg (by omega)]
    by_cases surrogate : n / 4096 = 0xD
    · rw [if_pos (by omega), surrogate]
      exact ⟨_, _, rfl, by omega, by omega⟩
    · rw [if_neg (by omega), if_pos (by omega), Nat.add_sub_cancel_left]
      exact ⟨_, _, rfl, by omega, by omega⟩

theorem lead_four (n : Nat) (low : 0x10000 ≤ n) (high : n < 0x110000) :
    ∃ least most, lead? (0xF0 + n / 262144) = some ⟨n / 262144, least, most, 3⟩ ∧
      least ≤ 0x80 + n / 4096 % 64 ∧ 0x80 + n / 4096 % 64 ≤ most := by
  unfold lead?
  rw [if_neg (by omega), if_neg (by omega), if_neg (by omega), if_neg (by omega),
    if_neg (by omega)]
  by_cases first : n < 0x40000
  · rw [if_pos (by omega), show n / 262144 = 0 by omega]
    exact ⟨_, _, rfl, by omega, by omega⟩
  · rw [if_neg (by omega)]
    by_cases last : n / 262144 = 4
    · rw [if_neg (by omega), if_pos (by omega), last]
      exact ⟨_, _, rfl, by omega, by omega⟩
    · rw [if_pos (by omega), Nat.add_sub_cancel_left]
      exact ⟨_, _, rfl, by omega, by omega⟩

-- The bytes of a character put its bits together again: one case for each number of bytes.
theorem run_bytes (c : Char) (rest : List Nat) :
    run .start (bytesOf c ++ rest) = some c :: run .start rest := by
  have valid : c.toNat < 0xD800 ∨ 0xDFFF < c.toNat ∧ c.toNat < 0x110000 := c.valid
  have back : Char.ofNat c.toNat = c := Char.ofNat_toNat c
  unfold bytesOf
  dsimp only
  generalize c.toNat = n at *
  subst back
  by_cases one : n < 0x80
  · rw [if_pos one, List.singleton_append, run, begin, if_pos one]
    rfl
  · rw [if_neg one]
    by_cases two : n < 0x800
    · have announced : lead? (0xC0 + n / 64) = some ⟨n / 64, 0x80, 0xBF, 1⟩ := by
        rw [lead?, if_neg (by omega), if_pos (by omega), Nat.add_sub_cancel_left]
      rw [if_pos two, List.cons_append, run_lead _ _ _ (by omega) announced, List.singleton_append,
        run_last _ _ _ _ _ (by omega), Nat.add_sub_cancel_left, Nat.div_add_mod']
    · rw [if_neg two]
      by_cases three : n < 0x10000
      · obtain ⟨least, most, announced, fits⟩ :=
          lead_three n (by omega) three (valid.imp_right And.left)
        rw [if_pos three, List.cons_append, run_lead _ _ _ (by omega) announced, List.cons_append,
          run_inner _ _ _ 0 _ _ fits, List.singleton_append, run_last _ _ _ _ _ (by omega),
          show (n / 4096 * 64 + (0x80 + n / 64 % 64 - 0x80)) * 64 +
            (0x80 + n % 64 - 0x80) = n by omega]
      · obtain ⟨least, most, announced, fits⟩ := lead_four n (by omega) (by omega)
        rw [if_neg three, List.cons_append, run_lead _ _ _ (by omega) announced, List.cons_append,
          run_inner _ _ _ 1 _ _ fits, List.cons_append, run_inner _ _ _ 0 _ _ (by omega),
          List.singleton_append, run_last _ _ _ _ _ (by omega),
          show ((n / 262144 * 64 + (0x80 + n / 4096 % 64 - 0x80)) * 64 +
            (0x80 + n / 64 % 64 - 0x80)) * 64 + (0x80 + n % 64 - 0x80) = n by omega]

theorem run_encode (cs : List Char) : run .start (encode cs) = cs.map some := by
  induction cs with
  | nil => rfl
  | cons c rest ih =>
    have behind : encode (c :: rest) = bytesOf c ++ encode rest := rfl
    rw [behind, run_bytes, ih, List.map_cons]

theorem decode_encode (cs : List Char) : decodeLossy (encode cs) = cs := by
  rw [decodeLossy, run_encode, List.map_map]
  exact List.map_id cs

theorem decode_exact (cs : List Char) : decode? (encode cs) = some cs := by
  rw [decode?, run_encode]
  induction cs with
  | nil => rfl
  | cons c rest ih => simp [ih]

theorem bytes_small (c : Char) : ∀ b ∈ bytesOf c, b < 256 := by
  have valid : c.toNat < 0xD800 ∨ 0xDFFF < c.toNat ∧ c.toNat < 0x110000 := c.valid
  unfold bytesOf
  dsimp only
  split
  · simp; omega
  · split
    · simp; omega
    · split
      · simp; omega
      · simp; omega

theorem bytes_some (c : Char) : 1 ≤ (bytesOf c).length := by
  unfold bytesOf
  dsimp only
  split
  · exact Nat.le_refl 1
  · split
    · simp
    · split <;> simp

end Text.Utf8

namespace Url

theorem hex_value_digit : ∀ d < 16, Text.hexValue? (Text.hexDigitUpper d) = some d := by decide

theorem unescape_byte (b : Nat) (small : b < 256) (rest : List Char) :
    unescape (escapeByte b ++ rest) = b :: unescape rest := by
  have high := hex_value_digit (b / 16) (by omega)
  have low := hex_value_digit (b % 16) (by omega)
  simp only [escapeByte, List.cons_append, List.nil_append, unescape, high, low, Nat.div_add_mod]

theorem unescape_plain (c : Char) (rest : List Char) (plain : c ≠ '%') :
    unescape (c :: rest) = Text.Utf8.bytesOf c ++ unescape rest := by
  rw [unescape]
  rintro a b more rfl
  exact absurd rfl plain

theorem unescape_bytes (bytes : List Nat) (small : ∀ b ∈ bytes, b < 256) (rest : List Char) :
    unescape (bytes.flatMap escapeByte ++ rest) = bytes ++ unescape rest := by
  induction bytes with
  | nil => rfl
  | cons b more ih =>
    obtain ⟨here, later⟩ := List.forall_mem_cons.mp small
    rw [List.flatMap_cons, List.append_assoc, unescape_byte b here, ih later, List.cons_append]

namespace Form

/-- How a blank is written aside, the characters that are kept and the percent sign. -/
def written (c : Char) : Bool := keep c || c == '+' || c == '%'

theorem keep_ascii (c : Char) (kept : keep c = true) : c.toNat < 128 := by
  simp only [keep, Text.isAlpha, Text.isDigit, Bool.or_eq_true, Bool.and_eq_true,
    decide_eq_true_eq, List.contains_iff_mem] at kept
  rcases kept with (((low | upper) | digit) | mark)
  · exact Nat.lt_of_le_of_lt low.2 (by decide)
  · exact Nat.lt_of_le_of_lt upper.2 (by decide)
  · exact Nat.lt_of_le_of_lt digit.2 (by decide)
  · have marks : "*-._".toList.all (·.toNat < 128) = true := by decide
    exact of_decide_eq_true (List.all_eq_true.mp marks c mark)

theorem written_ascii (c : Char) (by_form : written c = true) : c.toNat < 128 := by
  simp only [written, Bool.or_eq_true, beq_iff_eq] at by_form
  rcases by_form with ((kept | rfl) | rfl)
  · exact keep_ascii c kept
  · decide
  · decide

theorem ascii_all (test : Char → Bool) (all : ∀ n < 128, test (Char.ofNat n) = true) (c : Char)
    (ascii : c.toNat < 128) : test c = true := by
  simpa [Char.ofNat_toNat] using all c.toNat ascii

theorem hex_written : ∀ d < 16, written (Text.hexDigitUpper d) = true := by decide

theorem byte_written (b : Nat) (small : b < 256) : ∀ c ∈ escapeByte b, written c = true := by
  simp only [escapeByte, List.forall_mem_cons, List.not_mem_nil, false_implies, implies_true,
    and_true]
  exact ⟨rfl, hex_written _ (by omega), hex_written _ (by omega)⟩

theorem char_written (c : Char) : ∀ d ∈ encodeChar c, written d = true := by
  intro d member
  unfold encodeChar at member
  split at member
  · cases List.mem_singleton.mp member
    rfl
  · simp only [escape, List.flatMap_cons, List.flatMap_nil, List.append_nil] at member
    split at member
    · rename_i kept
      cases List.mem_singleton.mp member
      simp [written, kept]
    · obtain ⟨b, byte, digit⟩ := List.mem_flatMap.mp member
      exact byte_written b (Text.Utf8.bytes_small c b byte) d digit

theorem text_written (cs : List Char) : ∀ d ∈ encodeText cs, written d = true := by
  intro d member
  obtain ⟨c, _, here⟩ := List.mem_flatMap.mp member
  exact char_written c d here

theorem escaped_length (bytes : List Nat) :
    (bytes.flatMap escapeByte).length = 3 * bytes.length := by
  induction bytes with
  | nil => rfl
  | cons b rest ih =>
    rw [List.flatMap_cons, List.length_append, ih, List.length_cons]
    simp [escapeByte]
    omega

theorem encode_longer (cs : List Char) : cs.length ≤ (encodeText cs).length := by
  induction cs with
  | nil => exact Nat.le_refl 0
  | cons c rest ih =>
    have encoded : encodeText (c :: rest) = encodeChar c ++ encodeText rest := rfl
    have some_char : 1 ≤ (encodeChar c).length := by
      unfold encodeChar
      split
      · exact Nat.le_refl 1
      · simp only [escape, List.flatMap_cons, List.flatMap_nil, List.append_nil]
        split
        · exact Nat.le_refl 1
        · have bytes := Text.Utf8.bytes_some c
          rw [escaped_length]
          omega
    rw [encoded, List.length_append, List.length_cons]
    omega

theorem byte_unblank (b : Nat) (small : b < 256) : ∀ c ∈ escapeByte b, c ≠ '+' := by
  have hex : ∀ d < 16, Text.hexDigitUpper d ≠ '+' := by decide
  simp only [escapeByte, List.forall_mem_cons, List.not_mem_nil, false_implies, implies_true,
    and_true]
  exact ⟨by decide, hex _ (by omega), hex _ (by omega)⟩

def withBlank (c : Char) : Char := if c = '+' then ' ' else c

theorem unescape_char (c : Char) (rest : List Char) :
    unescape ((encodeChar c).map withBlank ++ rest) = Text.Utf8.bytesOf c ++ unescape rest := by
  unfold encodeChar
  split
  · rename_i blank
    subst blank
    exact unescape_plain ' ' rest (by decide)
  · simp only [escape, List.flatMap_cons, List.flatMap_nil, List.append_nil]
    split
    · rename_i kept
      have sign : c ≠ '%' := by
        rintro rfl
        exact absurd kept (by decide)
      have plus : c ≠ '+' := by
        rintro rfl
        exact absurd kept (by decide)
      rw [List.map_singleton, withBlank, if_neg plus]
      exact unescape_plain c rest sign
    · -- Escaped bytes have no plus sign among them that could be taken for a blank.
      have same : ((Text.Utf8.bytesOf c).flatMap escapeByte).map withBlank =
          (Text.Utf8.bytesOf c).flatMap escapeByte := by
        refine (List.map_congr_left fun d member => ?_).trans (List.map_id _)
        obtain ⟨b, byte, digit⟩ := List.mem_flatMap.mp member
        exact if_neg (byte_unblank b (Text.Utf8.bytes_small c b byte) d digit)
      rw [same, unescape_bytes _ (Text.Utf8.bytes_small c)]

theorem unescape_text (cs : List Char) :
    unescape ((encodeText cs).map withBlank) = Text.Utf8.encode cs := by
  induction cs with
  | nil => rfl
  | cons c rest ih =>
    have encoded : encodeText (c :: rest) = encodeChar c ++ encodeText rest := rfl
    rw [encoded, List.map_append, unescape_char, ih]
    rfl

theorem decode_text (text : String) : decodeText (encodeText text.toList) = text := by
  have read := Text.Utf8.decode_encode text.toList
  rw [← unescape_text] at read
  have whole := congrArg String.ofList read
  rwa [String.ofList_toList] at whole

theorem separator_unwritten (cs : List Char) (separator : Char)
    (reserved : written separator = false) : separator ∉ encodeText cs := by
  intro member
  rw [text_written cs separator member] at reserved
  cases reserved

theorem decode_pair (pair : String × String) : decodePair (encodePair pair) = pair := by
  have name := separator_unwritten pair.1.toList '=' (by decide)
  unfold decodePair encodePair
  rw [Text.take_before '=' _ _ name, Text.drop_before '=' _ _ name]
  simp [decode_text]

theorem separated (pair : String × String) : '&' ∉ encodePair pair := by
  unfold encodePair
  simp [separator_unwritten _ '&' (by decide)]

/-- Pairs that are written one behind the other, each with a separator in front, are read back. -/
theorem decode_written (pairs : List (String × String)) :
    decode (pairs.flatMap fun pair => '&' :: encodePair pair) = pairs := by
  have pieces : Text.splitOn '&' (pairs.flatMap fun pair => '&' :: encodePair pair) =
      [] :: pairs.map encodePair := by
    have joined := Text.split_on_joined '&' [] (pairs.map encodePair) fun piece member => by
      rcases List.mem_cons.mp member with rfl | written
      · exact List.not_mem_nil
      · obtain ⟨pair, _, rfl⟩ := List.mem_map.mp written
        exact separated pair
    rwa [List.nil_append, List.flatMap_map] at joined
  have whole :
      (pairs.map encodePair).filter (fun piece => !piece.isEmpty) = pairs.map encodePair := by
    refine List.filter_eq_self.mpr fun piece member => ?_
    obtain ⟨pair, _, rfl⟩ := List.mem_map.mp member
    simp [encodePair]
  unfold decode
  rw [pieces]
  simp only [List.filter_cons, List.isEmpty_nil, Bool.not_true, Bool.false_eq_true, if_false, whole,
    List.map_map]
  exact (List.map_congr_left fun pair _ => decode_pair pair).trans (List.map_id pairs)

theorem decode_one (pair : String × String) : decode (encodePair pair) = [pair] := by
  have some_sign : (encodePair pair).isEmpty = false := by simp [encodePair]
  rw [decode, Text.split_on_piece '&' _ (separated pair),
    List.filter_cons_of_pos (by simp [some_sign])]
  exact congrArg (· :: []) (decode_pair pair)

theorem decode_between (front back : List Char) :
    decode (front ++ '&' :: back) = decode front ++ decode back := by
  rw [decode, Text.split_on_between, List.filter_append, List.map_append]
  rfl

/-- Pairs that are appended to a query come behind whatever is read in it. -/
theorem decode_append (query : List Char) (pairs : List (String × String)) :
    decode (append query pairs) = decode query ++ pairs := by
  induction pairs generalizing query with
  | nil => rw [append, List.append_nil]
  | cons pair rest ih =>
    have longer : decode ((if query.isEmpty then [] else query ++ ['&']) ++ encodePair pair) =
        decode query ++ [pair] := by
      cases query with
      | nil => exact decode_one pair
      | cons c more =>
        rw [List.isEmpty_cons, if_neg Bool.false_ne_true, List.append_assoc,
          List.singleton_append, decode_between, decode_one]
    rw [append, ih, longer, List.append_assoc, List.singleton_append]

end Form
end Url
end StartupLatency
