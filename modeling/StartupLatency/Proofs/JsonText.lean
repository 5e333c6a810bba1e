import StartupLatency.Json.Reader
import StartupLatency.Json.Writer
import StartupLatency.Proofs.Decimal

/-!
Reading JSON text as it is written. A value is read back from its compact text wherever that text
stands in front of what may follow a value, and its reader needs no more steps than the text has
characters.
-/

namespace StartupLatency

theorem Text.hex_value_lower : ∀ d < 16, Text.hexValue? (Text.hexDigitLower d) = some d := by decide

namespace Json

/-! ## Strings -/

theorem hex_control (n : Nat) (control : n < 32) (rest : List Char) :
    readHex4 ('0' :: '0' :: Text.hexDigitLower (n / 16) :: Text.hexDigitLower (n % 16) :: rest) =
      some (n, rest) := by
  have zero : Text.hexValue? '0' = some 0 := rfl
  have high := Text.hex_value_lower (n / 16) (by omega)
  have low := Text.hex_value_lower (n % 16) (by omega)
  simp only [readHex4, zero, high, low, bind, Option.bind_some, pure, Option.some.injEq,
    Prod.mk.injEq, and_true]
  omega

/-- A step reads what is written of one character. -/
theorem read_escaped (c : Char) (fuel : Nat) (done rest : List Char) :
    readString (fuel + 1) (some done) (escapeChar c ++ rest) =
      readString fuel (some (c :: done)) rest := by
  by_cases short : c ∈ ['"', '\\', '\n', '\r', '\t', '\x08', '\x0c']
  · simp only [List.mem_cons, List.not_mem_nil, or_false] at short
    rcases short with rfl | rfl | rfl | rfl | rfl | rfl | rfl <;> rfl
  · simp only [List.mem_cons, List.not_mem_nil, or_false, not_or] at short
    obtain ⟨mark, back, line, carriage, tab, bell, form⟩ := short
    rw [escapeChar, if_neg mark, if_neg back, if_neg line, if_neg carriage, if_neg tab,
      if_neg bell, if_neg form]
    by_cases control : c.toNat < 32
    · rw [if_pos control]
      simp only [List.cons_append, List.nil_append, readString]
      rw [if_neg (by decide), if_neg (by decide), if_neg (by decide), hex_control _ control]
      dsimp only
      rw [if_neg (by omega), if_neg (by omega), Char.ofNat_toNat]
      rfl
    · rw [if_neg control, List.singleton_append]
      simp only [readString]
      rw [if_neg mark, if_neg control, if_pos back]
      rfl

theorem read_string (cs done rest : List Char) (fuel : Nat) (enough : cs.length < fuel) :
    readString fuel (some done) (cs.flatMap escapeChar ++ '"' :: rest) =
      some (some (done.reverse ++ cs), rest) := by
  induction cs generalizing done fuel with
  | nil =>
    obtain ⟨more, rfl⟩ := Nat.exists_eq_add_of_lt enough
    rw [List.append_nil]
    simp [readString]
  | cons c cs ih =>
    cases fuel with
    | zero => cases enough
    | succ fuel =>
      rw [List.flatMap_cons, List.append_assoc, read_escaped,
        ih (c :: done) fuel (Nat.lt_of_succ_lt_succ enough), List.reverse_cons, List.append_assoc,
        List.singleton_append]

theorem escaped_longer (cs : List Char) : cs.length ≤ (cs.flatMap escapeChar).length := by
  induction cs with
  | nil => exact Nat.le_refl 0
  | cons c rest ih =>
    have some_char : 1 ≤ (escapeChar c).length := by
      unfold escapeChar
      repeat' split
      all_goals simp
    rw [List.flatMap_cons, List.length_append, List.length_cons]
    omega

theorem read_quoted (cs rest : List Char) :
    ∃ behind, quote cs ++ rest = '"' :: behind ∧
      readString (behind.length + 1) (some []) behind = some (some cs, rest) := by
  refine ⟨cs.flatMap escapeChar ++ '"' :: rest, by simp [quote], ?_⟩
  refine read_string cs [] rest _ ?_
  have longer := escaped_longer cs
  rw [List.length_append]
  omega

/-! ## Whole numbers -/

def Ends (rest : List Char) : Prop := ∀ c ∈ rest.head?, c = ',' ∨ c = ']' ∨ c = '}'

theorem ends_cases (rest : List Char) (ends : Ends rest) :
    rest = [] ∨ ∃ c more, rest = c :: more ∧ (c = ',' ∨ c = ']' ∨ c = '}') := by
  cases rest with
  | nil => exact Or.inl rfl
  | cons c more => exact Or.inr ⟨c, more, rfl, ends c rfl⟩

theorem span_written (n : Nat) (rest : List Char) (ends : Ends rest) :
    spanDigits (Text.Decimal.write n ++ rest) = (Text.Decimal.write n, rest) := by
  have digits : ∀ c ∈ Text.Decimal.write n, Text.isDigit c = true := by
    intro c member
    obtain ⟨m, rfl⟩ := Text.Decimal.mem_write n c member
    exact Text.Decimal.is_digit_char m
  rw [spanDigits, List.takeWhile_append_of_pos digits, List.dropWhile_append_of_pos digits]
  rcases ends_cases rest ends with rfl | ⟨c, more, rfl, rfl | rfl | rfl⟩
  · simp
  · simp [Text.isDigit]
  · simp [Text.isDigit]
  · simp [Text.isDigit]

theorem take_digits_onto (n : Nat) (fits : n < Word.limit64) (behind : List Char) :
    takeDigits 0 (Text.Decimal.digitsOnto n behind) = takeDigits n behind := by
  induction n using Nat.strongRecOn generalizing behind with
  | ind n ih =>
    have value := Text.Decimal.digit_char_value n
    rw [Text.Decimal.digitsOnto]
    by_cases small : n < 10
    · rw [dif_pos small, takeDigits, value, Nat.mod_eq_of_lt small]
      simp only [Nat.mul_zero, Nat.zero_add]
      rw [if_pos fits]
    · have shorter : n / 10 < n := Nat.div_lt_self (by omega) (by decide)
      rw [dif_neg small, ih (n / 10) shorter (Nat.lt_trans shorter fits), takeDigits, value,
        Nat.div_add_mod, if_pos fits]

theorem whole_written (n : Nat) :
    ((Text.Decimal.write n).isEmpty ||
      ((Text.Decimal.write n).length > 1 && (Text.Decimal.write n).head? == some '0')) = false := by
  obtain ⟨m, rest, written⟩ := Text.Decimal.write_cons n
  cases n with
  | zero =>
    rw [Text.Decimal.write_last_digit, if_pos (by decide)]
    rfl
  | succ n =>
    have head := Text.Decimal.head_write (n + 1) (Nat.succ_pos n)
    rw [written] at head ⊢
    simpa using fun _ => head

theorem read_digits (n : Nat) (fits : n < Word.limit64) (rest : List Char) (ends : Ends rest) :
    readNumber (Text.Decimal.write n ++ rest) = some (intOfParts false n, rest) ∧
      readNumber ('-' :: (Text.Decimal.write n ++ rest)) = some (intOfParts true n, rest) := by
  have digits : takeDigits 0 (Text.Decimal.write n) = (n, 0) := take_digits_onto n fits []
  have span := span_written n rest ends
  have whole := whole_written n
  have unsigned : ∀ more, Text.Decimal.write n ++ rest ≠ '-' :: more := by
    intro more same
    obtain ⟨m, digits, written⟩ := Text.Decimal.write_cons n
    rw [written] at same
    have digit := Text.Decimal.is_digit_char m
    rw [(List.cons.inj same).1] at digit
    cases digit
  constructor
  · unfold readNumber
    split
    rename_i negative cs sign
    split at sign
    · rename_i more same
      exact absurd same (unsigned more)
    · cases sign
      rw [span]
      simp only [whole, digits]
      rcases ends_cases rest ends with rfl | ⟨c, more, rfl, rfl | rfl | rfl⟩ <;> simp
  · simp only [readNumber]
    rw [span]
    simp only [whole, digits]
    rcases ends_cases rest ends with rfl | ⟨c, more, rfl, rfl | rfl | rfl⟩ <;> simp

theorem read_int (value : Int) (low : -(Word.half64 : Int) ≤ value) (high : value < Word.limit64)
    (rest : List Char) (ends : Ends rest) :
    readNumber (Text.Decimal.writeInt value ++ rest) = some (.int value, rest) := by
  cases value with
  | ofNat n =>
    exact (read_digits n (Int.ofNat_lt.mp high) rest ends).1
  | negSucc n =>
    have small : n + 1 ≤ Word.half64 := by omega
    have fits : n + 1 < Word.limit64 := Nat.lt_of_le_of_lt small (by decide)
    rw [Text.Decimal.writeInt, List.cons_append, (read_digits (n + 1) fits rest ends).2, intOfParts,
      if_pos rfl, if_neg (by omega)]
    rfl

/-! ## Values -/

inductive Plain : Json → Prop where
  | null : Plain .null
  | bool (value : Bool) : Plain (.bool value)
  | int (value : Int) (low : -(Word.half64 : Int) ≤ value) (high : value < Word.limit64) :
    Plain (.int value)
  | str (value : String) : Plain (.str value)
  | arr (items : List Json) (each : ∀ item ∈ items, Plain item) : Plain (.arr items)
  | obj (members : List (String × Json)) (each : ∀ member ∈ members, Plain member.2) :
    Plain (.obj members)

def ReadsBack (json : Json) : Prop :=
  ∀ fuel rest, Ends rest → json.compact.length ≤ fuel →
    readValue fuel (json.compact ++ rest) = some (json, rest)

-- Characters that begin a blank, a value other than a number or the end of a list.
def marks : List Char := [' ', '\n', '\t', '\r', 'n', 't', 'f', '"', '[', '{', ']']

theorem int_head (value : Int) :
    ∃ c more, Text.Decimal.writeInt value = c :: more ∧ c ∉ marks := by
  have digit (m : Nat) : Text.Decimal.digitChar m ∉ marks := by
    intro mark
    have none : marks.all (fun c => !Text.isDigit c) = true := by decide
    have digit := List.all_eq_true.mp none _ mark
    rw [Text.Decimal.is_digit_char] at digit
    cases digit
  cases value with
  | ofNat n =>
    obtain ⟨m, rest, written⟩ := Text.Decimal.write_cons n
    exact ⟨_, rest, written, digit m⟩
  | negSucc n => exact ⟨'-', _, rfl, by decide⟩

theorem skip_head (c : Char) (rest : List Char) (mark : isSpace c = false) :
    skipSpace (c :: rest) = c :: rest := List.dropWhile_cons_of_neg (by simp [mark])

theorem unmarked_space (c : Char) (other : c ∉ marks) : isSpace c = false := by
  simp only [marks, List.mem_cons, List.not_mem_nil, or_false, not_or] at other
  simp [isSpace, other]

theorem compact_head {json : Json} (plain : Plain json) :
    ∃ c more, json.compact = c :: more ∧ isSpace c = false ∧ c ≠ ']' := by
  cases plain with
  | null => exact ⟨_, _, rfl, rfl, by decide⟩
  | bool value => cases value <;> exact ⟨_, _, rfl, rfl, by decide⟩
  | int value =>
    obtain ⟨c, more, written, other⟩ := int_head value
    refine ⟨c, more, written, unmarked_space c other, ?_⟩
    rintro rfl
    exact other (by decide)
  | str value => exact ⟨_, _, rfl, rfl, by decide⟩
  | arr items => cases items <;> exact ⟨_, _, rfl, rfl, by decide⟩
  | obj members => cases members <;> exact ⟨_, _, rfl, rfl, by decide⟩

theorem read_value_number (c : Char) (cs : List Char) (fuel : Nat) (other : c ∉ marks) :
    readValue (fuel + 1) (c :: cs) = readNumber (c :: cs) := by
  rw [readValue, skip_head c cs (unmarked_space c other)]
  simp only [marks, List.mem_cons, List.not_mem_nil, or_false, not_or] at other
  split <;> simp_all

theorem reads_back_of_step {json : Json} (plain : Plain json)
    (step : ∀ fuel rest, Ends rest → json.compact.length ≤ fuel + 1 →
      readValue (fuel + 1) (json.compact ++ rest) = some (json, rest)) : ReadsBack json := by
  intro fuel rest ends enough
  cases fuel with
  | zero =>
    obtain ⟨c, more, text, _⟩ := compact_head plain
    rw [text] at enough
    cases enough
  | succ fuel => exact step fuel rest ends enough

theorem reads_back_int (value : Int) (low : -(Word.half64 : Int) ≤ value)
    (high : value < Word.limit64) : ReadsBack (.int value) := by
  refine reads_back_of_step (.int value low high) fun fuel rest ends _ => ?_
  obtain ⟨c, more, written, other⟩ := int_head value
  have read := read_int value low high rest ends
  have text : (Json.int value).compact = Text.Decimal.writeInt value := rfl
  rw [written] at read
  rw [text, written]
  exact (read_value_number c (more ++ rest) fuel other).trans read

theorem reads_back_str (value : String) : ReadsBack (.str value) := by
  refine reads_back_of_step (.str value) fun fuel rest _ _ => ?_
  obtain ⟨behind, text, read⟩ := read_quoted value.toList rest
  rw [compact, text, readValue, skip_head _ _ rfl]
  simp [read]

theorem ends_items (items : List Json) (rest : List Char) :
    Ends (compactItems items ++ rest) := by
  cases items with
  | nil =>
    intro c first
    cases first
    exact Or.inr (Or.inl rfl)
  | cons item more =>
    intro c first
    cases first
    exact Or.inl rfl

theorem ends_members (members : List (String × Json)) (rest : List Char) :
    Ends (compactMembers members ++ rest) := by
  cases members with
  | nil =>
    intro c first
    cases first
    exact Or.inr (Or.inr rfl)
  | cons member more =>
    intro c first
    cases first
    exact Or.inl rfl

theorem compact_items_some (items : List Json) : 1 ≤ (compactItems items).length := by
  cases items <;> simp [compactItems]

theorem compact_members_some (members : List (String × Json)) :
    1 ≤ (compactMembers members).length := by
  cases members <;> simp [compactMembers]

/-- Items are read one by one: what is left of them ends where the next one begins. -/
theorem read_items (item : Json) (items : List Json)
    (each : ∀ other ∈ item :: items, ReadsBack other) (fuel : Nat) (rest : List Char)
    (enough : item.compact.length + (compactItems items).length ≤ fuel) :
    readItems fuel (item.compact ++ (compactItems items ++ rest)) =
      some (item :: items, rest) := by
  have closing := compact_items_some items
  obtain ⟨here, later⟩ := List.forall_mem_cons.mp each
  induction items generalizing item fuel with
  | nil =>
    cases fuel with
    | zero => omega
    | succ fuel =>
      rw [readItems, here fuel _ (ends_items [] rest) (by omega)]
      rfl
  | cons next items ih =>
    have text : compactItems (next :: items) ++ rest =
        ',' :: (next.compact ++ (compactItems items ++ rest)) := by
      rw [compactItems, List.cons_append, List.append_assoc]
    have size : (compactItems (next :: items)).length =
        next.compact.length + (compactItems items).length + 1 := by
      rw [compactItems, List.length_cons, List.length_append]
    cases fuel with
    | zero => omega
    | succ fuel =>
      have read := ih next later fuel (by omega) (compact_items_some items)
        (later next List.mem_cons_self) fun other among =>
          later other (List.mem_cons_of_mem next among)
      rw [readItems, here fuel _ (ends_items _ rest) (by omega), text]
      simp [skip_head ',' _ rfl, read]

/-- A member is read with what follows it: the end of the object or the next member. -/
theorem read_member (member : String × Json) (reads : ReadsBack member.2) (fuel : Nat)
    (rest : List Char) (enough : member.2.compact.length ≤ fuel) :
    readMembers (fuel + 1) (quote member.1.toList ++ ':' :: (member.2.compact ++ '}' :: rest)) =
        some ([(some member.1, member.2)], rest) ∧
      readMembers (fuel + 1) (quote member.1.toList ++ ':' :: (member.2.compact ++ ',' :: rest)) =
        (readMembers fuel rest).map fun (members, rest) =>
          ((some member.1, member.2) :: members, rest) := by
  constructor
  · obtain ⟨inside, text, name⟩ :=
      read_quoted member.1.toList (':' :: (member.2.compact ++ '}' :: rest))
    have value := reads fuel ('}' :: rest) (ends_members [] rest) enough
    rw [text, readMembers, skip_head '"' _ rfl]
    simp [name, skip_head ':' _ rfl, skip_head '}' _ rfl, value]
  · obtain ⟨inside, text, name⟩ :=
      read_quoted member.1.toList (':' :: (member.2.compact ++ ',' :: rest))
    have ends : Ends (',' :: rest) := fun c first => Or.inl (Option.some.inj first).symm
    have value := reads fuel (',' :: rest) ends enough
    rw [text, readMembers, skip_head '"' _ rfl]
    simp [name, skip_head ':' _ rfl, skip_head ',' _ rfl, value]

theorem read_members (member : String × Json) (members : List (String × Json))
    (each : ∀ other ∈ member :: members, ReadsBack other.2) (fuel : Nat) (rest : List Char)
    (enough : member.2.compact.length + (compactMembers members).length ≤ fuel) :
    readMembers fuel
        (quote member.1.toList ++ ':' :: (member.2.compact ++ (compactMembers members ++ rest))) =
      some ((member :: members).map fun other => (some other.1, other.2), rest) := by
  have closing := compact_members_some members
  obtain ⟨here, later⟩ := List.forall_mem_cons.mp each
  induction members generalizing member fuel with
  | nil =>
    cases fuel with
    | zero => omega
    | succ fuel =>
      exact (read_member member here fuel rest (by omega)).1
  | cons next members ih =>
    have text : compactMembers (next :: members) ++ rest =
        ',' :: (quote next.1.toList ++
          ':' :: (next.2.compact ++ (compactMembers members ++ rest))) := by
      simp [compactMembers]
    have size : (compactMembers (next :: members)).length =
        (quote next.1.toList).length + next.2.compact.length +
          (compactMembers members).length + 2 := by
      simp only [compactMembers, List.length_cons, List.length_append]
      omega
    cases fuel with
    | zero => omega
    | succ fuel =>
      have read := ih next later fuel (by omega) (compact_members_some members)
        (later next List.mem_cons_self) fun other among =>
          later other (List.mem_cons_of_mem next among)
      rw [text, (read_member member here fuel _ (by omega)).2, read]
      rfl

theorem read_arr (cs rest : List Char) (items : List Json) (fuel : Nat)
    (head : ∃ c more, cs = c :: more ∧ isSpace c = false ∧ c ≠ ']')
    (read : readItems fuel cs = some (items, rest)) :
    readValue (fuel + 1) ('[' :: cs) = some (.arr items, rest) := by
  obtain ⟨c, more, rfl, blank, closing⟩ := head
  rw [readValue, skip_head '[' _ rfl]
  simp only [skip_head c more blank]
  split
  · rename_i same
    exact absurd (List.cons.inj same).1 closing
  · rw [read]
    rfl

theorem read_obj (cs rest : List Char) (members : List (String × Json)) (fuel : Nat)
    (read : readMembers fuel ('"' :: cs) =
      some (members.map fun member => (some member.1, member.2), rest)) :
    readValue (fuel + 1) ('{' :: '"' :: cs) = some (.obj members, rest) := by
  rw [readValue, skip_head '{' _ rfl]
  simp only [skip_head '"' cs rfl]
  have named : (members.map fun member => (some member.1, member.2)).all
      (fun member => member.1.isSome) = true := by simp
  have back : (members.map fun member => (some member.1, member.2)).filterMap
      (fun member => member.1.map fun name => (name, member.2)) = members := by
    rw [List.filterMap_map]
    exact List.filterMap_some
  rw [read, Option.map_some, if_pos named, back]
  rfl

/-- What is plain is read back from its compact text. -/
theorem plain_reads_back {json : Json} (plain : Plain json) : ReadsBack json := by
  induction plain with
  | null => exact reads_back_of_step .null fun fuel rest _ _ => rfl
  | bool value =>
    refine reads_back_of_step (.bool value) fun fuel rest _ _ => ?_
    cases value <;> rfl
  | int value low high => exact reads_back_int value low high
  | str value => exact reads_back_str value
  | arr items each ih =>
    refine reads_back_of_step (.arr items each) fun fuel rest _ enough => ?_
    cases items with
    | nil => rfl
    | cons item items =>
      rw [compact, List.length_cons, List.length_append] at enough
      obtain ⟨c, more, text, head⟩ := compact_head (each item List.mem_cons_self)
      rw [compact, List.cons_append, List.append_assoc]
      refine read_arr _ rest _ fuel ⟨c, _, by rw [text]; rfl, head⟩ ?_
      exact read_items item items ih fuel rest (by omega)
  | obj members each ih =>
    refine reads_back_of_step (.obj members each) fun fuel rest _ enough => ?_
    cases members with
    | nil => rfl
    | cons member members =>
      simp only [compact, List.length_cons, List.length_append] at enough
      have read := read_members member members ih fuel rest (by omega)
      rw [compact, List.cons_append, List.append_assoc, List.cons_append, List.append_assoc]
      exact read_obj _ rest _ fuel read

/-- A plain value is what its compact text is read as. -/
theorem of_text_compact {json : Json} (plain : Plain json) :
    ofText? json.compactText = some json := by
  have read := plain_reads_back plain (json.compact.length + 1) [] (fun _ none => by cases none)
    (Nat.le_succ _)
  rw [List.append_nil] at read
  rw [ofText?, compactText, String.toList_ofList, read?, read]
  rfl

end Json
end StartupLatency
