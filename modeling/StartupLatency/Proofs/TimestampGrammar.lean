import StartupLatency.Instant.Rfc3339
import StartupLatency.Proofs.CalendarDates
import StartupLatency.Proofs.Decimal
import StartupLatency.Proofs.Pieces

/-!
The texts that are timestamps. A reading is spelled with every field at its full width; the mark
between date and time, the fraction and the offset have several spellings. The strict reader takes
these texts and no others, and the reading decides which instant is named, if any.
-/

namespace StartupLatency

namespace Instant
open Text.Decimal

theorem bind_ok {ε α β : Type} (first : Except ε α) (next : α → Except ε β) (last : β) :
    first >>= next = .ok last ↔ ∃ value, first = .ok value ∧ next value = .ok last := by
  cases first with
  | error fault => exact ⟨nofun, nofun⟩
  | ok value =>
    constructor
    · exact fun read => ⟨value, rfl, read⟩
    · rintro ⟨_, same, read⟩
      cases same
      exact read

theorem row_taken (row behind : List Char) (all : ∀ c ∈ row, Text.isDigit c = true)
    (ends : ∀ c ∈ behind.head?, Text.isDigit c = false) :
    (row ++ behind).takeWhile Text.isDigit = row := by
  rw [List.takeWhile_append_of_pos all]
  cases behind with
  | nil => simp
  | cons c rest => simp [ends c rfl]

theorem row_parts (cs : List Char) : ∃ row behind, cs = row ++ behind ∧
    (∀ c ∈ row, Text.isDigit c = true) ∧ ∀ c ∈ behind.head?, Text.isDigit c = false := by
  refine ⟨cs.takeWhile Text.isDigit, cs.dropWhile Text.isDigit,
    List.takeWhile_append_dropWhile.symm,
    fun c member => List.all_eq_true.mp List.all_takeWhile c member, ?_⟩
  intro c first
  have stops := List.head?_dropWhile_not Text.isDigit cs
  rw [Option.mem_def.mp first] at stops
  exact stops

/-- As many digits as stand there are read, up to the most that may. -/
theorem take_digits (least most : Nat) (digits behind : List Char)
    (all : ∀ c ∈ digits, Text.isDigit c = true) (enough : least ≤ digits.length)
    (few : digits.length ≤ most)
    (ends : digits.length = most ∨ ∀ c ∈ behind.head?, Text.isDigit c = false) :
    takeNumber least most (digits ++ behind) = .ok (value digits, behind) := by
  have found : ((digits ++ behind).take most).takeWhile Text.isDigit = digits := by
    rcases ends with full | other
    · rw [List.take_left' full]
      simpa using row_taken digits [] all nofun
    · rw [← List.take_takeWhile, row_taken digits behind all other, List.take_of_length_le few]
  have long : ¬ (digits ++ behind).length < least := by
    rw [List.length_append]
    omega
  have back : (digits ++ behind).drop digits.length = behind := List.drop_left
  simp only [takeNumber, found, long, back, Nat.not_lt.mpr enough, if_false]
  rfl

theorem taken_digits (least most : Nat) (cs : List Char) (n : Nat) (behind : List Char)
    (read : takeNumber least most cs = .ok (n, behind)) :
    ∃ digits, cs = digits ++ behind ∧ (∀ c ∈ digits, Text.isDigit c = true) ∧
      least ≤ digits.length ∧ digits.length ≤ most ∧ n = value digits := by
  have front : (cs.take most).takeWhile Text.isDigit <+: cs :=
    (List.takeWhile_prefix _).trans (List.take_prefix _ _)
  simp only [takeNumber] at read
  split at read
  · cases read
  split at read
  · cases read
  rename_i enough
  cases read
  refine ⟨(cs.take most).takeWhile Text.isDigit, ?_, ?_, Nat.not_lt.mp enough, ?_, rfl⟩
  · exact (List.prefix_iff_eq_append.mp front).symm
  · exact fun c member => List.all_eq_true.mp List.all_takeWhile c member
  · exact Nat.le_trans (List.takeWhile_prefix _).length_le (List.length_take_le _ _)

/-- A field of fixed width. -/
theorem take_number_iff (width : Nat) (cs : List Char) (n : Nat) (behind : List Char) :
    takeNumber width width cs = .ok (n, behind) ↔
      n < limit width ∧ cs = writeFixed width n ++ behind := by
  constructor
  · intro read
    obtain ⟨digits, rfl, all, enough, few, rfl⟩ := taken_digits _ _ _ _ _ read
    obtain rfl := Nat.le_antisymm enough few
    obtain ⟨written, below⟩ := fixed_value digits all
    exact ⟨below, by rw [written]⟩
  · rintro ⟨below, rfl⟩
    have full := length_write_fixed width n
    rw [take_digits _ _ _ _ (mem_write_fixed width n) (Nat.le_of_eq full.symm) (Nat.le_of_eq full)
      (.inl full), value_write_fixed, Nat.mod_eq_of_lt below]

theorem take_char_iff (wanted : Char) (cs behind : List Char) :
    takeChar wanted cs = .ok behind ↔ cs = wanted :: behind := by
  cases cs with
  | nil => exact ⟨nofun, nofun⟩
  | cons c rest =>
    rw [takeChar]
    split
    · rename_i here
      simp [here]
    · rename_i other
      exact ⟨nofun, fun same => absurd (List.cons.inj same).1 other⟩

theorem take_separator_iff (cs behind : List Char) :
    takeSeparator cs = .ok behind ↔
      ∃ mark, (mark = 'T' ∨ mark = 't' ∨ mark = ' ') ∧ cs = mark :: behind := by
  cases cs with
  | nil => exact ⟨nofun, nofun⟩
  | cons c rest =>
    rw [takeSeparator]
    split
    · rename_i here
      constructor
      · intro read
        cases read
        exact ⟨c, here, rfl⟩
      · rintro ⟨mark, -, same⟩
        cases same
        rfl
    · rename_i other
      refine ⟨nofun, ?_⟩
      rintro ⟨mark, here, same⟩
      cases same
      exact absurd here other

theorem within_iff (low high n m : Nat) :
    within low high n = .ok m ↔ n = m ∧ low ≤ n ∧ n ≤ high := by
  rw [within]
  split
  · rename_i inside
    simp [inside]
  · rename_i outside
    exact ⟨nofun, fun ⟨_, inside⟩ => absurd inside outside⟩

/-- A fraction with its nanoseconds, which are its first nine digits; zeros stand for digits that
are missing, and further digits for nothing. -/
inductive Fraction : List Char → Nat → Prop
  | absent : Fraction [] 0
  | digits (row : List Char) (nanos : Nat) (some_digit : row ≠ [])
      (all : ∀ c ∈ row, Text.isDigit c = true) (below : nanos < limit 9)
      (front : (row ++ List.replicate 9 '0').take 9 = writeFixed 9 nanos) :
      Fraction ('.' :: row) nanos

theorem take_fraction_digits (row behind : List Char) (some_digit : row ≠ [])
    (all : ∀ c ∈ row, Text.isDigit c = true)
    (ends : ∀ c ∈ behind.head?, Text.isDigit c = false) :
    takeFraction ('.' :: (row ++ behind)) =
      .ok (value ((row ++ List.replicate 9 '0').take 9), behind) := by
  have positive : 0 < row.length := List.length_pos_iff.mpr some_digit
  have length : (row.take 9).length = min 9 row.length := List.length_take
  have read : takeNumber 1 9 (row ++ behind) = .ok (value (row.take 9), row.drop 9 ++ behind) := by
    have parted : row ++ behind = row.take 9 ++ (row.drop 9 ++ behind) := by
      rw [← List.append_assoc, List.take_append_drop]
    rw [parted]
    refine take_digits 1 9 _ _ (fun c member => all c (List.mem_of_mem_take member)) (by omega)
      (by omega) ?_
    -- A short row ends where no digit follows, a long one where nine have been read.
    rcases Nat.lt_or_ge row.length 9 with short | long
    · rw [List.drop_of_length_le (Nat.le_of_lt short)]
      exact .inr ends
    · exact .inl (by omega)
  have nine : (row ++ List.replicate 9 '0').take 9 =
      row.take 9 ++ List.replicate (9 - min 9 row.length) '0' := by
    have missing : 9 - row.length = 9 - min 9 row.length := by omega
    rw [List.take_append, List.take_replicate, missing, Nat.min_eq_left (Nat.sub_le _ _)]
  simp only [takeFraction, read, row_taken row behind all ends, List.drop_left, nine, value_zeros]

theorem take_fraction (fraction : List Char) (nanos : Nat) (behind : List Char)
    (spelled : Fraction fraction nanos)
    (ends : ∀ c ∈ behind.head?, Text.isDigit c = false ∧ c ≠ '.') :
    takeFraction (fraction ++ behind) = .ok (nanos, behind) := by
  cases spelled with
  | absent =>
    cases behind with
    | nil => rfl
    | cons c rest =>
      have other := (ends c rfl).2
      rw [List.nil_append, takeFraction]
      exact fun rest same => other (List.cons.inj same).1
  | digits row _ some_digit all below front =>
    rw [List.cons_append,
      take_fraction_digits row behind some_digit all fun c first => (ends c first).1, front,
      value_write_fixed, Nat.mod_eq_of_lt below]

theorem nine_digits (row : List Char) (all : ∀ c ∈ row, Text.isDigit c = true) :
    writeFixed 9 (value ((row ++ List.replicate 9 '0').take 9)) =
        (row ++ List.replicate 9 '0').take 9 ∧
      value ((row ++ List.replicate 9 '0').take 9) < limit 9 := by
  have nine : ((row ++ List.replicate 9 '0').take 9).length = 9 := by simp
  have digits : ∀ c ∈ (row ++ List.replicate 9 '0').take 9, Text.isDigit c = true := by
    intro c member
    rcases List.mem_append.mp (List.mem_of_mem_take member) with front | zero
    · exact all c front
    · rw [List.eq_of_mem_replicate zero]
      rfl
  have written := fixed_value _ digits
  rwa [nine] at written

theorem taken_fraction (cs : List Char) (nanos : Nat) (behind : List Char)
    (read : takeFraction cs = .ok (nanos, behind)) :
    ∃ fraction, cs = fraction ++ behind ∧ Fraction fraction nanos := by
  by_cases point : ∃ rest, cs = '.' :: rest
  · obtain ⟨rest, rfl⟩ := point
    obtain ⟨row, after, rfl, all, ends⟩ := row_parts rest
    have some_digit : row ≠ [] := by
      rintro rfl
      simp only [takeFraction] at read
      split at read
      · cases read
      · rename_i taken
        obtain ⟨digits, whole, digit, enough, -⟩ := taken_digits _ _ _ _ _ taken
        obtain ⟨c, more, rfl⟩ := List.exists_cons_of_length_pos enough
        have other := ends c (by rw [← List.nil_append after, whole]; rfl)
        rw [digit c List.mem_cons_self] at other
        cases other
    obtain ⟨written, below⟩ := nine_digits row all
    rw [take_fraction_digits row after some_digit all ends] at read
    cases read
    exact ⟨'.' :: row, rfl, .digits row _ some_digit all below written.symm⟩
  · have plain : takeFraction cs = .ok (0, cs) := by
      rw [takeFraction]
      exact fun rest same => point ⟨rest, same⟩
    rw [plain] at read
    cases read
    exact ⟨[], rfl, .absent⟩

/-- An offset with its seconds, east of UTC behind a plus and west of it behind a minus. -/
inductive Offset : List Char → Int → Prop
  | utc (letter : Char) (here : letter = 'Z' ∨ letter = 'z') : Offset [letter] 0
  | apart (sign : Char) (hours minutes : Nat) (signed : sign = '+' ∨ sign = '-' ∨ sign = '−')
      (hour : hours < 100) (minute : minutes < 60) :
      Offset (sign :: (writeFixed 2 hours ++ ':' :: writeFixed 2 minutes))
        (if sign = '+' then ((hours * 60 + minutes) * 60 : Nat)
        else -((hours * 60 + minutes) * 60 : Nat))

theorem two_digits (a b : Char) (tens : Text.isDigit a = true) (ones : Text.isDigit b = true) :
    writeFixed 2 ((a.toNat - 48) * 10 + (b.toNat - 48)) = [a, b] ∧
      (a.toNat - 48) * 10 + (b.toNat - 48) < 100 := by
  have number : value [a, b] = (a.toNat - 48) * 10 + (b.toNat - 48) := by
    simp [value, Nat.mul_comm]
  have row := fixed_value [a, b] (by simp [tens, ones])
  rw [number] at row
  exact row

theorem written_digits (n : Nat) (below : n < 100) :
    writeFixed 2 n = [digitChar (n / 10), digitChar n] ∧
      ((digitChar (n / 10)).toNat - 48) * 10 + ((digitChar n).toNat - 48) = n := by
  refine ⟨rfl, ?_⟩
  rw [digit_char_value, digit_char_value]
  omega

theorem take_minutes_iff (cs : List Char) (minutes : Nat) (behind : List Char) :
    takeMinutes cs = .ok (minutes, behind) ↔
      minutes < 60 ∧ cs = writeFixed 2 minutes ++ behind := by
  constructor
  · intro read
    rw [takeMinutes.eq_def] at read
    split at read
    · rename_i a b rest
      dsimp only at read
      split at read
      · rename_i digits
        split at read
        · rename_i below
          cases read
          rw [(two_digits a b digits.1 digits.2).1]
          exact ⟨below, rfl⟩
        · cases read
      · cases read
    · cases read
  · rintro ⟨below, rfl⟩
    obtain ⟨written, number⟩ := written_digits minutes (by omega)
    rw [written]
    simp only [List.cons_append, List.nil_append, takeMinutes, is_digit_char, number, below,
      and_self, if_true]

theorem taken_offset (cs : List Char) (offset : Int) (behind : List Char)
    (read : takeOffset (takeChar ':') cs = .ok (offset, behind)) :
    ∃ text, cs = text ++ behind ∧ Offset text offset := by
  cases cs with
  | nil => cases read
  | cons c rest =>
    simp only [takeOffset] at read
    split at read
    · rename_i letter
      cases read
      exact ⟨[c], rfl, .utc c letter⟩
    split at read
    · cases read
    rename_i other
    have signed : c = '+' ∨ c = '-' ∨ c = '−' := by
      by_contra none_of_them
      simp only [not_or] at none_of_them
      exact other none_of_them
    split at read
    · rename_i a b rest
      split at read
      · rename_i digits
        obtain ⟨hour, below⟩ := two_digits a b digits.1 digits.2
        simp only [bind_ok, take_char_iff, Prod.exists, take_minutes_iff] at read
        obtain ⟨_, rfl, minutes, _, ⟨minute, rfl⟩, last⟩ := read
        cases last
        refine ⟨_, ?_, .apart c _ minutes signed below minute⟩
        rw [hour, List.cons_append, List.append_assoc]
        rfl
      · cases read
    · cases read

theorem take_offset (text : List Char) (offset : Int) (behind : List Char)
    (spelled : Offset text offset) :
    takeOffset (takeChar ':') (text ++ behind) = .ok (offset, behind) := by
  cases spelled with
  | utc letter here => exact if_pos here
  | apart sign hours minutes signed hour minute =>
    obtain ⟨written, number⟩ := written_digits hours hour
    have letter : ¬ (sign = 'Z' ∨ sign = 'z') := by
      rcases signed with rfl | rfl | rfl <;> decide
    have unsigned : ¬ (sign ≠ '+' ∧ sign ≠ '-' ∧ sign ≠ '−') := by
      rintro ⟨plus, minus, proper⟩
      rcases signed with here | here | here
      · exact plus here
      · exact minus here
      · exact proper here
    have behind_colon := (take_minutes_iff (writeFixed 2 minutes ++ behind) minutes behind).mpr
      ⟨minute, rfl⟩
    simp only [List.cons_append, written, List.nil_append, takeOffset, letter,
      unsigned, is_digit_char, number, and_self, if_true, if_false, bind, Except.bind,
      (take_char_iff ':' _ _).mpr rfl, behind_colon]
    rfl

theorem offset_front (text : List Char) (offset : Int) (spelled : Offset text offset) :
    ∀ c ∈ text.head?, Text.isDigit c = false ∧ c ≠ '.' := by
  intro c first
  cases spelled with
  | utc letter here =>
    cases first
    rcases here with rfl | rfl <;> decide
  | apart sign hours minutes signed hour minute =>
    cases first
    rcases signed with rfl | rfl | rfl <;> decide

/-- A reading in the fixed form. The day is that of some month; whether it is one of the month that
stands there is not decided by the form. -/
structure Reading.Spelled (r : Reading) (cs : List Char) : Prop where
  year : 0 ≤ r.date.year ∧ r.date.year ≤ 9999
  month : 1 ≤ r.date.month ∧ r.date.month ≤ 12
  day : 1 ≤ r.date.day ∧ r.date.day ≤ 31
  hour : r.hour ≤ 23
  minute : r.minute ≤ 59
  second : r.second ≤ 60
  text : ∃ mark fraction offset, (mark = 'T' ∨ mark = 't' ∨ mark = ' ') ∧
    Fraction fraction r.nanos ∧ Offset offset r.offset ∧
    cs = writeFixed 4 r.date.year.toNat ++ '-' :: (writeFixed 2 r.date.month ++
      '-' :: (writeFixed 2 r.date.day ++ mark :: (writeFixed 2 r.hour ++
      ':' :: (writeFixed 2 r.minute ++ ':' :: (writeFixed 2 r.second ++ (fraction ++ offset))))))

structure Reading.Names (r : Reading) (t : Instant) : Prop where
  date : r.date.isValid = true
  offset : r.offset.natAbs < 86400
  secs : r.date.toDays * 86400 + ((r.hour * 60 + r.minute) * 60 + min r.second 59 : Nat) -
    r.offset = t.secs
  nanos : (if r.second = 60 then r.nanos + 1000000000 else r.nanos) = t.nanos

theorem of_parts_iff (secs : Int) (nanos : Nat) (t : Instant) :
    ofParts? secs nanos = some t ↔ secs = t.secs ∧ nanos = t.nanos := by
  constructor
  · intro made
    rw [ofParts?] at made
    split at made
    · cases made
      exact ⟨rfl, rfl⟩
    · cases made
  · rintro ⟨rfl, rfl⟩
    exact dif_pos ⟨t.in_range, t.nanos_lt, t.leap_on_59⟩

theorem resolve_iff (r : Reading) (t : Instant) (second : r.second ≤ 60) :
    r.resolve = .ok t ↔ r.Names t := by
  have last : (if r.second = 60 then 59 else r.second) = min r.second 59 := by
    split <;> omega
  have made := of_parts_iff (r.date.toDays * 86400 +
    ((r.hour * 60 + r.minute) * 60 + min r.second 59 : Nat) - r.offset)
    (if r.second = 60 then r.nanos + 1000000000 else r.nanos) t
  simp only [Reading.resolve, last]
  split
  · rename_i outside
    refine ⟨nofun, fun named => ?_⟩
    simp [named.date, Nat.not_le.mpr named.offset] at outside
  · rename_i inside
    simp only [Bool.or_eq_true, Bool.not_eq_true', decide_eq_true_eq, not_or, Bool.not_eq_false,
      Nat.not_le, ge_iff_le] at inside
    constructor
    · intro read
      split at read
      · rename_i found
        cases read
        have parts := made.mp found
        exact ⟨inside.1, inside.2, parts.1, parts.2⟩
      · cases read
    · intro named
      rw [made.mpr ⟨named.secs, named.nanos⟩]

/-- What is spelled is read, up to the resolution. -/
theorem read_spelled (r : Reading) (cs : List Char) (spelled : r.Spelled cs) :
    readStrict cs = r.resolve := by
  obtain ⟨mark, fraction, offset, separator, nanos, zone, rfl⟩ := spelled.text
  obtain ⟨early, late⟩ := spelled.year
  have short {n high : Nat} (below : n ≤ high) (small : high < 100) (behind : List Char) :
      takeNumber 2 2 (writeFixed 2 n ++ behind) = .ok (n, behind) :=
    (take_number_iff 2 _ n behind).mpr ⟨Nat.lt_of_le_of_lt below small, rfl⟩
  have year (behind : List Char) : takeNumber 4 4 (writeFixed 4 r.date.year.toNat ++ behind) =
      .ok (r.date.year.toNat, behind) :=
    (take_number_iff 4 _ _ behind).mpr ⟨by change _ < 10000; omega, rfl⟩
  have bounds {n low high : Nat} (above : low ≤ n) (below : n ≤ high) :
      within low high n = .ok n := (within_iff low high n n).mpr ⟨rfl, above, below⟩
  have same : (r.date.year.toNat : Int) = r.date.year := Int.toNat_of_nonneg early
  have ends := take_offset offset r.offset [] zone
  rw [List.append_nil] at ends
  simp only [readStrict, bind, Except.bind, year, (take_char_iff _ _ _).mpr rfl,
    (take_separator_iff _ _).mpr ⟨mark, separator, rfl⟩, short spelled.month.2 (by decide),
    short spelled.day.2 (by decide), short spelled.hour (by decide),
    short spelled.minute (by decide), short spelled.second (by decide),
    bounds spelled.month.1 spelled.month.2, bounds spelled.day.1 spelled.day.2,
    bounds (Nat.zero_le _) spelled.hour, bounds (Nat.zero_le _) spelled.minute,
    bounds (Nat.zero_le _) spelled.second,
    take_fraction _ _ offset nanos (offset_front offset r.offset zone), ends, same]
  rfl

theorem read_strict_iff (cs : List Char) (t : Instant) :
    readStrict cs = .ok t ↔ ∃ r : Reading, r.Spelled cs ∧ r.Names t := by
  constructor
  · intro read
    -- Every reader says which text it took, so the whole is put together from its front.
    simp only [readStrict, bind_ok, Prod.exists, take_number_iff, take_char_iff, within_iff,
      take_separator_iff] at read
    obtain ⟨year, _, ⟨year_fits, rfl⟩, _, rfl, month, _, ⟨-, rfl⟩, _, ⟨rfl, months⟩, _, rfl,
      day, _, ⟨-, rfl⟩, _, ⟨rfl, days⟩, _, ⟨mark, separator, rfl⟩, hour, _, ⟨-, rfl⟩,
      _, ⟨rfl, -, hours⟩, _, rfl, minute, _, ⟨-, rfl⟩, _, ⟨rfl, -, minutes⟩, _, rfl,
      second, _, ⟨-, rfl⟩, _, ⟨rfl, -, seconds⟩, nanos, _, fraction_read, offset, rest, zone_read,
      last⟩ := read
    obtain ⟨fraction, rfl, fraction_spelled⟩ := taken_fraction _ _ _ fraction_read
    obtain ⟨zone, rfl, zone_spelled⟩ := taken_offset _ _ _ zone_read
    split at last
    · rename_i empty
      have late : year ≤ 9999 := Nat.le_of_lt_succ year_fits
      refine ⟨⟨⟨year, month, day⟩, hour, minute, second, nanos, offset⟩, ⟨⟨Int.natCast_nonneg _,
        Int.ofNat_le.mpr late⟩, months, days, hours, minutes, seconds, mark, fraction, zone,
        separator, fraction_spelled, zone_spelled, ?_⟩, (resolve_iff _ t seconds).mp last⟩
      rw [List.isEmpty_iff.mp empty, List.append_nil]
      rfl
    · cases last
  · rintro ⟨r, spelled, named⟩
    rw [read_spelled r cs spelled]
    exact (resolve_iff r t spelled.second).mpr named

theorem spelled_front (r : Reading) (cs : List Char) (spelled : r.Spelled cs) :
    ∃ n rest, cs = digitChar n :: rest := by
  obtain ⟨mark, fraction, offset, -, -, -, rfl⟩ := spelled.text
  exact ⟨_, _, rfl⟩

theorem offset_last (text : List Char) (offset : Int) (spelled : Offset text offset) :
    ∃ front last, text = front ++ [last] ∧ Text.isBlank last = false := by
  cases spelled with
  | utc letter here =>
    refine ⟨[], letter, rfl, ?_⟩
    rcases here with rfl | rfl <;> decide
  | apart sign hours minutes signed hour minute =>
    have parted : writeFixed 2 minutes = writeFixed 1 (minutes / 10) ++ [digitChar minutes] := rfl
    refine ⟨sign :: (writeFixed 2 hours ++ ':' :: writeFixed 1 (minutes / 10)), digitChar minutes,
      ?_, digit_char_unblank minutes⟩
    rw [parted]
    simp

theorem trim_spelled (r : Reading) (cs : List Char) (spelled : r.Spelled cs) :
    Text.trim cs = cs := by
  apply Text.trim_unblank
  · intro c first
    obtain ⟨n, rest, rfl⟩ := spelled_front r cs spelled
    cases first
    exact digit_char_unblank n
  · intro c last
    obtain ⟨mark, fraction, offset, -, -, zone, rfl⟩ := spelled.text
    obtain ⟨front, mark, rfl, unblank⟩ := offset_last offset r.offset zone
    simp only [← List.append_assoc, ← List.cons_append, List.getLast?_concat] at last
    cases last
    exact unblank

/-- An instant that a text names: the text is a reading of it with blanks around. -/
def NamedIn (raw : String) (t : Instant) : Prop :=
  ∃ (before text after : List Char) (r : Reading), raw.toList = before ++ text ++ after ∧
    (∀ c ∈ before, Text.isBlank c = true) ∧ (∀ c ∈ after, Text.isBlank c = true) ∧
    r.Spelled text ∧ r.Names t

theorem parse_iff (raw : String) (t : Instant) : parse? raw = some t ↔ t.NamedIn raw := by
  have strict : parse? raw = some t ↔ readStrict (Text.trim raw.toList) = .ok t := by
    rw [parse?]
    cases readStrict (Text.trim raw.toList) <;> simp [Except.toOption]
  rw [strict, read_strict_iff]
  constructor
  · rintro ⟨r, spelled, named⟩
    obtain ⟨before, after, whole, blank_before, blank_after⟩ := Text.trim_parts raw.toList
    exact ⟨before, _, after, r, whole, blank_before, blank_after, spelled, named⟩
  · rintro ⟨before, text, after, r, whole, blank_before, blank_after, spelled, named⟩
    refine ⟨r, ?_, named⟩
    rw [whole, Text.trim_padded before text after blank_before blank_after,
      trim_spelled r text spelled]
    exact spelled

end Instant
end StartupLatency
