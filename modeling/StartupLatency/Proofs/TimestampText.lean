import StartupLatency.Proofs.TimestampGrammar

/-!
Timestamps read back. Within the years that are written with four digits, a written timestamp spells
a reading that names the instant, a leap second by second 60; outside them a sign stands where a
digit is expected.
-/

namespace StartupLatency

namespace Instant
open Text.Decimal

-- The years that are written without a sign, and read at all.
def InFourDigits (t : Instant) : Prop := 0 ≤ t.date.year ∧ t.date.year ≤ 9999

instance (t : Instant) : Decidable t.InFourDigits :=
  inferInstanceAs (Decidable (0 ≤ t.date.year ∧ t.date.year ≤ 9999))

theorem year_text_fixed (year : Int) (early : 0 ≤ year) (late : year ≤ 9999) :
    yearText year = writeFixed 4 year.toNat := by
  have same : year.natAbs = year.toNat := by omega
  have fits : year.toNat < limit 4 := by
    change year.toNat < 10000
    omega
  rw [yearText, if_neg (Int.not_lt.mpr early), if_pos late, same]
  exact pad_write 3 year.toNat fits

def fields (t : Instant) : Reading where
  date := t.date
  hour := t.secondOfDay.toNat / 3600
  minute := t.secondOfDay.toNat / 60 % 60
  second := t.secondOfDay.toNat % 60 + t.nanos / 1000000000
  nanos := t.nanos % 1000000000
  offset := 0

theorem fields_name (t : Instant) : t.fields.Names t := by
  have days : t.date.toDays = t.secs / 86400 := CivilDate.to_days_of_days _
  have second : (t.secondOfDay.toNat : Int) = t.secs % 86400 :=
    Int.toNat_of_nonneg (Int.emod_nonneg _ (by decide))
  have below := t.nanos_lt
  have leap := t.leap_on_59
  -- Second 60 is written for a leap second and for nothing else.
  have sixty : t.secondOfDay.toNat % 60 + t.nanos / 1000000000 = 60 ↔ 1000000000 ≤ t.nanos := by
    omega
  constructor
  · exact CivilDate.of_days_valid _
  · exact Nat.zero_lt_succ _
  · simp only [fields, days]
    rcases Nat.lt_or_ge t.nanos 1000000000 with ordinary | late
    · omega
    · have last := leap late
      omega
  · simp only [fields, sixty]
    split
    · omega
    · omega

theorem format_spelled (t : Instant) (years : t.InFourDigits) :
    t.fields.Spelled t.format.toList := by
  have valid : t.date.isValid = true := CivilDate.of_days_valid t.dayNumber
  obtain ⟨first_month, last_month, first_day, last_day⟩ := CivilDate.bounds_of_valid valid
  have day : t.secondOfDay < 86400 := Int.emod_lt_of_pos _ (by decide)
  have leap := t.nanos_lt
  have nanos : t.nanos % 1000000000 < limit 9 := Nat.mod_lt _ (by decide)
  have nine : (writeFixed 9 (t.nanos % 1000000000) ++ List.replicate 9 '0').take 9 =
      writeFixed 9 (t.nanos % 1000000000) := by
    rw [List.take_left' (length_write_fixed _ _)]
  have row : writeFixed 9 (t.nanos % 1000000000) ≠ [] := by
    rw [← List.length_pos_iff, length_write_fixed]
    decide
  constructor
  · exact years
  · exact ⟨first_month, last_month⟩
  · exact ⟨first_day, last_day⟩
  · simp only [fields]
    omega
  · simp only [fields]
    omega
  · simp only [fields]
    omega
  · refine ⟨'T', '.' :: writeFixed 9 (t.nanos % 1000000000), ['Z'], .inl rfl,
      .digits _ _ row (mem_write_fixed 9 _) nanos nine, .utc 'Z' (.inl rfl), ?_⟩
    simp only [format, String.toList_ofList, dateText, clockText, year_text_fixed _ years.1 years.2,
      fields, List.append_assoc, List.cons_append]

/-- What is written in the years of four digits is read back, leap seconds included. -/
theorem parse_format (t : Instant) (years : t.InFourDigits) : parse? t.format = some t :=
  (parse_iff _ _).mpr ⟨[], t.format.toList, [], t.fields, by simp, nofun, nofun,
    format_spelled t years, fields_name t⟩

theorem format_signed (t : Instant) (years : ¬ t.InFourDigits) :
    ∃ sign rest, (sign = '-' ∨ sign = '+') ∧ t.format.toList = sign :: rest := by
  simp only [format, String.toList_ofList, dateText, yearText, List.append_assoc]
  split
  · exact ⟨'-', _, .inl rfl, rfl⟩
  split
  · rename_i early late
    exact absurd ⟨Int.not_lt.mp early, late⟩ years
  · exact ⟨'+', _, .inr rfl, rfl⟩

/-- A text with a sign in front names no instant. -/
theorem parse_signed (raw : String) (sign : Char) (rest : List Char)
    (signed : sign = '-' ∨ sign = '+') (whole : raw.toList = sign :: rest) : parse? raw = none := by
  rw [Option.eq_none_iff_forall_ne_some]
  intro t read
  obtain ⟨before, text, after, r, parted, blank, -, spelled, -⟩ := (parse_iff raw t).mp read
  obtain ⟨n, more, rfl⟩ := spelled_front r text spelled
  rw [whole] at parted
  cases before with
  | nil =>
    have digit := is_digit_char n
    rw [← (List.cons.inj parted).1] at digit
    rcases signed with rfl | rfl <;> cases digit
  | cons c before =>
    have front := blank c List.mem_cons_self
    rw [← (List.cons.inj parted).1] at front
    rcases signed with rfl | rfl <;> cases front

/-- Written timestamps are read back in the years of four digits and nowhere else; the texts that
are read are those of the fixed form with blanks around, and writing what was read changes the text
but not the instant. -/
theorem timestamps_come_back :
    (∀ t : Instant, parse? t.format = if t.InFourDigits then some t else none) ∧
    (∀ (raw : String) (t : Instant), parse? raw = some t ↔ t.NamedIn raw) ∧
    ∀ (raw : String) (t : Instant), parse? raw = some t → t.InFourDigits →
      parse? t.format = some t := by
  refine ⟨?_, parse_iff, fun _ t _ years => parse_format t years⟩
  intro t
  split
  · rename_i years
    exact parse_format t years
  · rename_i years
    obtain ⟨sign, rest, signed, whole⟩ := format_signed t years
    exact parse_signed _ sign rest signed whole

-- A leap second under an offset, with digits beyond nanoseconds and blanks around.
def lateLeap : Instant := ⟨253402300739, 1123456789, by decide, by decide, by decide⟩

theorem leap_under_offset_comes_back :
    parse? " 9999-12-31t23:59:60.12345678999+00:01 " = some lateLeap ∧ lateLeap.InFourDigits ∧
      parse? lateLeap.format = some lateLeap := by
  have read : parse? " 9999-12-31t23:59:60.12345678999+00:01 " = some lateLeap := by decide
  have years : lateLeap.InFourDigits := by decide
  exact ⟨read, years, timestamps_come_back.2.2 _ lateLeap read years⟩

-- An offset can take the instant of a text out of the years that are read.
example : (parse? "0000-01-01T00:00:00+00:01").map (fun t => t.date.year) = some (-1) := by decide

end Instant
end StartupLatency
