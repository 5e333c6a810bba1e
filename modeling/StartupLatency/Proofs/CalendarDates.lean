import StartupLatency.Instant

/-!
Day counts as calendar dates. An era of 400 years falls into centuries, these into cycles of four
years and these into years, each period being cut short at its end; from that split every division
of the count is known. So a day count comes back from its date, and the date is one of the calendar.
-/

namespace StartupLatency.CivilDate

def yearOfEra (day : Int) : Int := (day - day / 1460 + day / 36524 - day / 146096) / 365

def dayOfYear (day : Int) : Int :=
  day - (365 * yearOfEra day + yearOfEra day / 4 - yearOfEra day / 100)

-- The date of a day in a year that begins in March.
def ofMarch (year day : Int) : CivilDate :=
  let month := (5 * day + 2) / 153
  let inMonth := day - (153 * month + 2) / 5 + 1
  if month < 10 then ⟨year, (month + 3).toNat, inMonth.toNat⟩
  else ⟨year + 1, (month - 9).toNat, inMonth.toNat⟩

theorem of_days_march (days : Int) :
    ofDays days =
      ofMarch (yearOfEra ((days + 719468) % 146097) + (days + 719468) / 146097 * 400)
        (dayOfYear ((days + 719468) % 146097)) := rfl

/-- Day `rest` of a four-year cycle. The cycle that ends a century lacks its leap day, the last one
of an era has it. -/
structure InCycle (day century cycle rest : Int) : Prop where
  century_bounds : 0 ≤ century ∧ century ≤ 3
  cycle_bounds : 0 ≤ cycle ∧ cycle ≤ 24
  rest_bounds : 0 ≤ rest ∧ rest ≤ 1460
  short : cycle = 24 → century < 3 → rest < 1460
  split : day = 36524 * century + 1461 * cycle + rest

variable {day century cycle rest : Int}

theorem exists_in_cycle (early : 0 ≤ day) (late : day < 146097) :
    ∃ century cycle rest, InCycle day century cycle rest := by
  -- The last century is the longest, so it is not found by division.
  rcases Int.lt_or_le day 109572 with before | last
  · refine ⟨day / 36524, day % 36524 / 1461, day % 36524 % 1461, ?_⟩
    constructor <;> omega
  · refine ⟨3, (day - 109572) / 1461, (day - 109572) % 1461, ?_⟩
    constructor <;> omega

-- The year of a cycle; its last day is the leap day of the last year.
def yearOfCycle (rest : Int) : Int := if rest < 1460 then rest / 365 else 3

theorem year_of_cycle_bounds (bounds : 0 ≤ rest ∧ rest ≤ 1460) :
    0 ≤ yearOfCycle rest ∧ yearOfCycle rest ≤ 3 := by
  unfold yearOfCycle
  split <;> omega

theorem year_in_cycle (part : InCycle day century cycle rest) :
    yearOfEra day = 100 * century + 4 * cycle + yearOfCycle rest := by
  obtain ⟨centuries, cycles, days, short, split⟩ := part
  have by_cycles : day / 1460 = 25 * century + cycle + (24 * century + cycle + rest) / 1460 := by
    omega
  rw [yearOfEra, yearOfCycle]
  by_cases last : day = 146096
  · have ends : century = 3 ∧ cycle = 24 ∧ rest = 1460 := by omega
    obtain ⟨rfl, rfl, rfl⟩ := ends
    rw [last]
    rfl
  · have by_centuries : day / 36524 = century := by omega
    have before_end : day / 146096 = 0 := by omega
    rw [by_cycles, by_centuries, before_end]
    split
    · omega
    · omega

theorem day_in_cycle (part : InCycle day century cycle rest) :
    dayOfYear day = rest - 365 * yearOfCycle rest := by
  have years := year_of_cycle_bounds part.rest_bounds
  have cycles := part.cycle_bounds
  have by_cycles : yearOfEra day / 4 = 25 * century + cycle := by
    rw [year_in_cycle part]
    omega
  have by_centuries : yearOfEra day / 100 = century := by
    rw [year_in_cycle part]
    omega
  rw [dayOfYear, by_cycles, by_centuries, year_in_cycle part, part.split]
  omega

theorem year_of_era_bounds (early : 0 ≤ day) (late : day < 146097) :
    0 ≤ yearOfEra day ∧ yearOfEra day < 400 := by
  obtain ⟨century, cycle, rest, part⟩ := exists_in_cycle early late
  have years := year_of_cycle_bounds part.rest_bounds
  have centuries := part.century_bounds
  have cycles := part.cycle_bounds
  rw [year_in_cycle part]
  omega

theorem day_of_year_bounds (early : 0 ≤ day) (late : day < 146097) :
    0 ≤ dayOfYear day ∧ dayOfYear day ≤ 365 := by
  obtain ⟨century, cycle, rest, part⟩ := exists_in_cycle early late
  have days := part.rest_bounds
  rw [day_in_cycle part, yearOfCycle]
  split <;> omega

/-- A year of 366 days ends with the February of a leap year. -/
theorem leap_of_last_day (era : Int) (early : 0 ≤ day) (late : day < 146097)
    (last : dayOfYear day = 365) : isLeapYear (yearOfEra day + era * 400 + 1) = true := by
  obtain ⟨century, cycle, rest, part⟩ := exists_in_cycle early late
  have days := part.rest_bounds
  rw [day_in_cycle part, yearOfCycle] at last
  have ends : rest = 1460 := by split at last <;> omega
  have year : yearOfEra day = 100 * century + 4 * cycle + 3 := by
    rw [year_in_cycle part, ends]
    rfl
  have fourth : (yearOfEra day + era * 400 + 1) % 4 = 0 := by omega
  have leap : (yearOfEra day + era * 400 + 1) % 100 ≠ 0 ∨
      (yearOfEra day + era * 400 + 1) % 400 = 0 := by
    have short := part.short
    have centuries := part.century_bounds
    have cycles := part.cycle_bounds
    omega
  simpa [isLeapYear, fourth] using leap

theorem of_march_to_days (year era day : Int) (years : 0 ≤ year ∧ year < 400)
    (days : 0 ≤ day ∧ day ≤ 365) :
    (ofMarch (year + era * 400) day).toDays =
      era * 146097 + (year * 365 + year / 4 - year / 100 + day) - 719468 := by
  have by_era : (year + era * 400) / 400 = era := by omega
  have in_era : (year + era * 400) % 400 = year := by omega
  simp only [ofMarch]
  generalize found : (5 * day + 2) / 153 = month
  split
  · have late : ¬ (month + 3).toNat ≤ 2 := by omega
    have back : (((month + 3).toNat : Int) + 9) % 12 = month := by omega
    simp only [toDays, late, if_false, back, by_era, in_era]
    omega
  · have early : (month - 9).toNat ≤ 2 := by omega
    have back : (((month - 9).toNat : Int) + 9) % 12 = month := by omega
    simp only [toDays, early, if_true, back, Int.add_sub_cancel, by_era, in_era]
    omega

theorem of_march_valid (year day : Int) (days : 0 ≤ day ∧ day ≤ 365)
    (leap : day = 365 → isLeapYear (year + 1) = true) : (ofMarch year day).isValid = true := by
  simp only [ofMarch]
  generalize found : (5 * day + 2) / 153 = month
  split
  · simp only [isValid, daysInMonth, Bool.and_eq_true, decide_eq_true_eq]
    split
    · omega
    · split
      · omega
      · omega
  · simp only [isValid, daysInMonth, Bool.and_eq_true, decide_eq_true_eq]
    split
    · split
      · omega
      · rename_i common
        have before : day ≠ 365 := fun last => common (leap last)
        omega
    · split
      · omega
      · omega

theorem to_days_of_days (days : Int) : (ofDays days).toDays = days := by
  have early : 0 ≤ (days + 719468) % 146097 := Int.emod_nonneg _ (by decide)
  have late : (days + 719468) % 146097 < 146097 := Int.emod_lt_of_pos _ (by decide)
  rw [of_days_march, of_march_to_days _ _ _ (year_of_era_bounds early late)
    (day_of_year_bounds early late), dayOfYear]
  omega

theorem of_days_valid (days : Int) : (ofDays days).isValid = true := by
  have early : 0 ≤ (days + 719468) % 146097 := Int.emod_nonneg _ (by decide)
  have late : (days + 719468) % 146097 < 146097 := Int.emod_lt_of_pos _ (by decide)
  rw [of_days_march]
  exact of_march_valid _ _ (day_of_year_bounds early late) (leap_of_last_day _ early late)

theorem bounds_of_valid {date : CivilDate} (valid : date.isValid = true) :
    1 ≤ date.month ∧ date.month ≤ 12 ∧ 1 ≤ date.day ∧ date.day ≤ 31 := by
  simp only [isValid, Bool.and_eq_true, decide_eq_true_eq] at valid
  have longest : daysInMonth date.year date.month ≤ 31 := by
    unfold daysInMonth
    split
    · split <;> decide
    · split <;> decide
  omega

end StartupLatency.CivilDate
