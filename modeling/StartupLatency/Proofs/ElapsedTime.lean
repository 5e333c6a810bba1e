import StartupLatency.Observation

/-!
The time between two instants. It is held as seconds rounded down with nanoseconds on top of them,
and taken apart again for its milliseconds. No step on the way leaves its word, and what comes out
is the exact number of nanoseconds cut toward zero.
-/

namespace StartupLatency

namespace Word

def signed? (half : Nat) (n : Int) : Option Int :=
  if -(half : Int) ≤ n ∧ n < half then some n else none

theorem signed_of_near {half : Nat} {n : Int} (near : n.natAbs < half) :
    signed? half n = some n := by
  have bounds : -(half : Int) ≤ n ∧ n < half := by omega
  exact if_pos bounds

theorem signed_goes_on {β : Type} {half : Nat} {n : Int} (rest : Int → Option β)
    (near : n.natAbs < half) : (signed? half n >>= rest) = rest n := by
  rw [signed_of_near near, Option.bind_eq_bind, Option.bind_some]

theorem half32_eq : half32 = 2147483648 := rfl

theorem half64_eq : half64 = 9223372036854775808 := rfl

end Word

/-- Nanoseconds as whole milliseconds, cut toward zero. -/
theorem cut_to_millis (nanos : Int) :
    nanos.tdiv 1000000 = if 0 ≤ nanos then nanos / 1000000 else -(-nanos / 1000000) := by
  split
  · rename_i ahead
    exact Int.tdiv_eq_ediv_of_nonneg ahead
  · rename_i back
    have opposite : 0 ≤ -nanos := by omega
    rw [← Int.tdiv_eq_ediv_of_nonneg opposite, Int.neg_tdiv, Int.neg_neg]

/-- Parts of one sign are cut one by one. -/
theorem cut_by_parts (secs nanos : Int) (signs : 0 ≤ secs ∧ 0 ≤ nanos ∨ secs ≤ 0 ∧ nanos ≤ 0) :
    (secs * 1000000000 + nanos).tdiv 1000000 = secs * 1000 + nanos.tdiv 1000000 := by
  rw [cut_to_millis, cut_to_millis]
  split <;> split <;> omega

/-- A signed span of time: seconds rounded down, and nanoseconds on top of them. The milliseconds of
a span and of its opposite are numbers of 64 bits. -/
structure TimeSpan where
  secs : Int
  nanos : Nat
  nanos_lt : nanos < 1000000000
  in_range : (secs * 1000000000 + nanos).natAbs ≤ (Word.half64 - 1) * 1000000

namespace TimeSpan

def ofParts? (secs : Int) (nanos : Nat) : Option TimeSpan :=
  if valid : nanos < 1000000000 ∧
      (secs * 1000000000 + nanos).natAbs ≤ (Word.half64 - 1) * 1000000 then
    some ⟨secs, nanos, valid.1, valid.2⟩
  else none

variable (span first second : TimeSpan)

def totalNanos : Int := span.secs * 1000000000 + span.nanos

def plusInWords? : Option TimeSpan := do
  let secs ← Word.signed? Word.half64 (first.secs + second.secs)
  let nanos ← Word.signed? Word.half32 (first.nanos + second.nanos)
  if nanos < 1000000000 then ofParts? secs nanos.toNat
  else
    let secs ← Word.signed? Word.half64 (secs + 1)
    ofParts? secs (nanos - 1000000000).toNat

def wholeSecs : Int := if span.secs < 0 ∧ 0 < span.nanos then span.secs + 1 else span.secs

def restNanos : Int :=
  if span.secs < 0 ∧ 0 < span.nanos then span.nanos - 1000000000 else span.nanos

def millisInWords? : Option Int := do
  let whole ← Word.signed? Word.half64 span.wholeSecs
  let scaled ← Word.signed? Word.half64 (whole * 1000)
  let rest ← Word.signed? Word.half32 span.restNanos
  Word.signed? Word.half64 (scaled + rest.tdiv 1000000)

theorem of_parts_near (secs : Int) (nanos : Nat) (small : nanos < 1000000000)
    (near : secs.natAbs ≤ 1000000000000000) :
    ∃ span, ofParts? secs nanos = some span ∧ span.secs = secs ∧ span.nanos = nanos := by
  have half64 := Word.half64_eq
  have range : (secs * 1000000000 + nanos).natAbs ≤ (Word.half64 - 1) * 1000000 := by omega
  exact ⟨⟨secs, nanos, small, range⟩, dif_pos ⟨small, range⟩, rfl, rfl⟩

theorem plus_in_words (near : first.secs.natAbs + second.secs.natAbs < 1000000000000000) :
    ∃ sum, first.plusInWords? second = some sum ∧
      sum.totalNanos = first.totalNanos + second.totalNanos := by
  have half64 := Word.half64_eq
  have half32 := Word.half32_eq
  have first_small := first.nanos_lt
  have second_small := second.nanos_lt
  have secs : (first.secs + second.secs).natAbs < Word.half64 := by omega
  have nanos : ((first.nanos : Int) + second.nanos).natAbs < Word.half32 := by omega
  rw [plusInWords?, Word.signed_goes_on _ secs, Word.signed_goes_on _ nanos]
  unfold totalNanos
  split
  · rename_i part
    obtain ⟨sum, made, sum_secs, sum_nanos⟩ := of_parts_near (first.secs + second.secs)
      ((first.nanos : Int) + second.nanos).toNat (by omega) (by omega)
    exact ⟨sum, made, by omega⟩
  · rename_i full
    have carried : (first.secs + second.secs + 1).natAbs < Word.half64 := by omega
    rw [Word.signed_goes_on _ carried]
    obtain ⟨sum, made, sum_secs, sum_nanos⟩ := of_parts_near (first.secs + second.secs + 1)
      ((first.nanos : Int) + second.nanos - 1000000000).toNat (by omega) (by omega)
    exact ⟨sum, made, by omega⟩

/-- Taken apart toward zero, both parts have the sign of the span. -/
theorem parts_of_one_sign :
    span.wholeSecs * 1000000000 + span.restNanos = span.totalNanos ∧
      (0 ≤ span.wholeSecs ∧ 0 ≤ span.restNanos ∨ span.wholeSecs ≤ 0 ∧ span.restNanos ≤ 0) := by
  have small := span.nanos_lt
  unfold wholeSecs restNanos totalNanos
  split <;> omega

theorem millis_in_words : span.millisInWords? = some (span.totalNanos.tdiv 1000000) := by
  have range : span.totalNanos.natAbs ≤ (Word.half64 - 1) * 1000000 := span.in_range
  have half64 := Word.half64_eq
  have half32 := Word.half32_eq
  obtain ⟨parted, signs⟩ := span.parts_of_one_sign
  have cut : span.wholeSecs * 1000 + span.restNanos.tdiv 1000000 =
      span.totalNanos.tdiv 1000000 := by
    rw [← parted, cut_by_parts _ _ signs]
  have whole : span.wholeSecs.natAbs < Word.half64 := by omega
  have scaled : (span.wholeSecs * 1000).natAbs < Word.half64 := by omega
  have rest : span.restNanos.natAbs < Word.half32 := by
    have small := span.nanos_lt
    unfold restNanos
    split <;> omega
  have millis : (span.totalNanos.tdiv 1000000).natAbs < Word.half64 := by
    rw [cut_to_millis]
    split <;> omega
  rw [millisInWords?, Word.signed_goes_on _ whole, Word.signed_goes_on _ scaled,
    Word.signed_goes_on _ rest, cut, Word.signed_of_near millis]

end TimeSpan

namespace Instant

variable (t start : Instant)

-- Nanoseconds since 1970, leap seconds not counted.
def unixNanos : Int := t.secs * 1000000000 + t.nanos

-- The second that a leap second adds to a difference or takes from it.
def leapSecs : Int :=
  if start.secondOfDay < t.secondOfDay then (if start.isLeapSecond then 1 else 0)
  else if t.secondOfDay < start.secondOfDay then (if t.isLeapSecond then -1 else 0)
  else 0

def daySpanInWords? : Option TimeSpan := do
  let days ← Word.signed? Word.half64 (t.dayNumber - start.dayNumber)
  let secs ← Word.signed? Word.half64 (days * 86400)
  TimeSpan.ofParts? secs 0

def clockSpanInWords? : Option TimeSpan := do
  let secs ← Word.signed? Word.half64 (t.secondOfDay - start.secondOfDay)
  let nanos ← Word.signed? Word.half64 ((t.nanos : Int) - start.nanos)
  let secs ← Word.signed? Word.half64 (secs + t.leapSecs start)
  let secs ← Word.signed? Word.half64 (secs + nanos / 1000000000)
  TimeSpan.ofParts? secs (nanos % 1000000000).toNat

def spanInWords? : Option TimeSpan := do
  let days ← t.daySpanInWords? start
  let clock ← t.clockSpanInWords? start
  days.plusInWords? clock

/-- Whole milliseconds from `start` to `t` in steps of words; without an outcome if a step leaves
its word or a span its range. -/
def millisInWords? : Option Int := do
  let span ← t.spanInWords? start
  span.millisInWords?

theorem secs_near : t.secs.natAbs < 9000000000000 := by
  have range := t.in_range
  unfold minSecs maxSecs at range
  omega

theorem secs_parts : t.dayNumber * 86400 + t.secondOfDay = t.secs := by
  unfold dayNumber secondOfDay
  omega

theorem second_of_day_bounds : 0 ≤ t.secondOfDay ∧ t.secondOfDay < 86400 := by
  unfold secondOfDay
  omega

theorem leap_secs_near : (t.leapSecs start).natAbs ≤ 1 := by
  unfold leapSecs
  split
  · split <;> decide
  · split
    · split <;> decide
    · decide

theorem nanos_since_parts : t.nanosSince start =
    (t.secs - start.secs + t.leapSecs start) * 1000000000 + ((t.nanos : Int) - start.nanos) := rfl

theorem day_span_in_words : ∃ span, t.daySpanInWords? start = some span ∧
    span.secs = (t.dayNumber - start.dayNumber) * 86400 ∧ span.nanos = 0 := by
  have half64 := Word.half64_eq
  have late := t.secs_near
  have early := start.secs_near
  have days : (t.dayNumber - start.dayNumber).natAbs < 300000000 := by
    unfold dayNumber
    omega
  have number : (t.dayNumber - start.dayNumber).natAbs < Word.half64 := by omega
  have secs : ((t.dayNumber - start.dayNumber) * 86400).natAbs < Word.half64 := by omega
  rw [daySpanInWords?, Word.signed_goes_on _ number, Word.signed_goes_on _ secs]
  exact TimeSpan.of_parts_near _ 0 (by decide) (by omega)

theorem clock_span_in_words : ∃ span, t.clockSpanInWords? start = some span ∧
    span.secs.natAbs ≤ 86403 ∧ span.totalNanos =
      (t.secondOfDay - start.secondOfDay + t.leapSecs start) * 1000000000 +
        ((t.nanos : Int) - start.nanos) := by
  have half64 := Word.half64_eq
  have late := t.second_of_day_bounds
  have early := start.second_of_day_bounds
  have leap := t.leap_secs_near start
  have late_nanos := t.nanos_lt
  have early_nanos := start.nanos_lt
  have secs : (t.secondOfDay - start.secondOfDay).natAbs < Word.half64 := by omega
  have nanos : ((t.nanos : Int) - start.nanos).natAbs < Word.half64 := by omega
  have counted : (t.secondOfDay - start.secondOfDay + t.leapSecs start).natAbs < Word.half64 := by
    omega
  -- The nanoseconds are carried downward, so that what is left of them is not negative.
  have carried : (t.secondOfDay - start.secondOfDay + t.leapSecs start +
      ((t.nanos : Int) - start.nanos) / 1000000000).natAbs ≤ 86403 := by omega
  have fits : (t.secondOfDay - start.secondOfDay + t.leapSecs start +
      ((t.nanos : Int) - start.nanos) / 1000000000).natAbs < Word.half64 := by omega
  rw [clockSpanInWords?, Word.signed_goes_on _ secs, Word.signed_goes_on _ nanos,
    Word.signed_goes_on _ counted, Word.signed_goes_on _ fits]
  obtain ⟨span, made, span_secs, span_nanos⟩ := TimeSpan.of_parts_near _
    (((t.nanos : Int) - start.nanos) % 1000000000).toNat (by omega)
    (Nat.le_trans carried (by decide))
  refine ⟨span, made, span_secs ▸ carried, ?_⟩
  rw [TimeSpan.totalNanos, span_secs, span_nanos]
  omega

theorem span_in_words : ∃ span, t.spanInWords? start = some span ∧
    span.totalNanos = t.nanosSince start := by
  obtain ⟨days, days_made, days_secs, days_nanos⟩ := t.day_span_in_words start
  obtain ⟨clock, clock_made, clock_near, clock_total⟩ := t.clock_span_in_words start
  have late := t.secs_near
  have early := start.secs_near
  have late_parts := t.secs_parts
  have early_parts := start.secs_parts
  have late_clock := t.second_of_day_bounds
  have early_clock := start.second_of_day_bounds
  obtain ⟨span, made, total⟩ := days.plus_in_words clock (by omega)
  refine ⟨span, ?_, ?_⟩
  · rw [spanInWords?, days_made, clock_made]
    exact made
  · rw [total, clock_total, TimeSpan.totalNanos, days_secs, days_nanos, nanos_since_parts]
    omega

theorem millis_in_words : t.millisInWords? start = some (t.millisSince start) := by
  obtain ⟨span, made, total⟩ := t.span_in_words start
  rw [millisInWords?, made, Option.bind_eq_bind, Option.bind_some, span.millis_in_words, total]
  rfl

theorem nanos_near : (t.nanosSince start).natAbs < 20000000000000 * 1000000000 := by
  have late := t.secs_near
  have early := start.secs_near
  have leap := t.leap_secs_near start
  have late_nanos := t.nanos_lt
  have early_nanos := start.nanos_lt
  rw [nanos_since_parts]
  omega

/-- The milliseconds between any two instants are a number of 64 bits. -/
theorem millis_fits : Word.Signed64 (t.millisSince start) := by
  have half64 := Word.half64_eq
  have near := t.nanos_near start
  rw [millisSince, cut_to_millis, Word.Signed64]
  split <;> omega

theorem leap_secs_swap : start.leapSecs t = -t.leapSecs start := by
  unfold leapSecs
  rcases Int.lt_trichotomy start.secondOfDay t.secondOfDay with later | same | earlier
  · rw [if_neg (Int.not_lt.mpr (Int.le_of_lt later)), if_pos later, if_pos later]
    split <;> rfl
  · simp only [same, Int.lt_irrefl, if_false, Int.neg_zero]
  · rw [if_pos earlier, if_neg (Int.not_lt.mpr (Int.le_of_lt earlier)), if_pos earlier]
    split <;> rfl

theorem millis_since_swap : start.millisSince t = -t.millisSince start := by
  have nanos : start.nanosSince t = -t.nanosSince start := by
    rw [nanos_since_parts, nanos_since_parts, leap_secs_swap]
    omega
  rw [millisSince, nanos, Int.neg_tdiv]
  rfl

theorem millis_since_pos : 0 < t.millisSince start ↔ 1000000 ≤ t.nanosSince start := by
  rw [millisSince, cut_to_millis]
  split <;> omega

theorem nanos_since_regular (regular : t.isLeapSecond = false)
    (started : start.isLeapSecond = false) :
    t.nanosSince start = t.unixNanos - start.unixNanos := by
  simp only [nanosSince, regular, started, Bool.false_eq_true, if_false, ite_self, unixNanos]
  omega

theorem millis_since_regular (regular : t.isLeapSecond = false)
    (started : start.isLeapSecond = false) :
    t.millisSince start = (t.unixNanos - start.unixNanos).tdiv 1000000 := by
  rw [millisSince, nanos_since_regular t start regular started]

theorem millis_since_mono (later : Instant) (regular : t.isLeapSecond = false)
    (still : later.isLeapSecond = false) (started : start.isLeapSecond = false)
    (order : t.unixNanos ≤ later.unixNanos) : t.millisSince start ≤ later.millisSince start := by
  rw [t.millis_since_regular start regular started, later.millis_since_regular start still started]
  exact Int.tdiv_le_tdiv (by decide) (Int.sub_le_sub_right order _)

end Instant

namespace Observation

theorem latency_read (created t : Instant) (raw : String) (read : Instant.parse? raw = some t) :
    latency? created raw = some (t.millisSince created) := by
  rw [latency?, read, Option.map_some]

theorem latency_of_none (created : Instant) (raw : String) (unread : Instant.parse? raw = none) :
    latency created raw = 0 := by
  rw [latency, latency?, unread]
  rfl

theorem latency_of_some (created t : Instant) (raw : String)
    (read : Instant.parse? raw = some t) : latency created raw = t.millisSince created := by
  rw [latency, latency_read created t raw read, Option.getD_some]

/-- Between any two instants the milliseconds are found without leaving a word, and exchanging the
instants turns their sign. Between instants that are no leap seconds they are the nanoseconds cut
toward zero: positive from a millisecond after the creation on, negative from one before it, and
never less for a later timestamp. -/
theorem latencies_cut_toward_zero :
    (∀ t start : Instant, t.millisInWords? start = some (t.millisSince start) ∧
      Word.Signed64 (t.millisSince start) ∧ start.millisSince t = -t.millisSince start) ∧
    ∀ (created t : Instant) (raw : String), Instant.parse? raw = some t →
      t.isLeapSecond = false → created.isLeapSecond = false →
      ∃ millis, latency? created raw = some millis ∧ t.millisInWords? created = some millis ∧
        millis = (t.unixNanos - created.unixNanos).tdiv 1000000 ∧
        (0 < millis ↔ created.unixNanos + 1000000 ≤ t.unixNanos) ∧
        (millis < 0 ↔ t.unixNanos + 1000000 ≤ created.unixNanos) ∧
        (∀ (later : String) (u : Instant), Instant.parse? later = some u →
          u.isLeapSecond = false → t.unixNanos ≤ u.unixNanos →
          ∃ more, latency? created later = some more ∧ millis ≤ more) ∧
        ∀ back, Instant.parse? back = some created → latency? t back = some (-millis) := by
  refine ⟨fun t start => ⟨t.millis_in_words start, t.millis_fits start, t.millis_since_swap start⟩,
    ?_⟩
  intro created t raw read regular started
  have nanos := t.nanos_since_regular created regular started
  have before : t.millisSince created < 0 ↔ t.unixNanos + 1000000 ≤ created.unixNanos := by
    have behind := created.millis_since_pos t
    rw [t.millis_since_swap created, created.nanos_since_regular t started regular] at behind
    omega
  refine ⟨t.millisSince created, latency_read created t raw read, t.millis_in_words created,
    t.millis_since_regular created regular started, ?_, before, ?_, ?_⟩
  · rw [t.millis_since_pos created, nanos]
    omega
  · intro later u read_later still order
    exact ⟨_, latency_read created u later read_later,
      t.millis_since_mono created u regular still started order⟩
  · intro back read_back
    rw [latency_read t created back read_back, t.millis_since_swap created]

def justBeforeEpoch : Instant := ⟨-1, 999100000, by decide, by decide, by decide⟩

def justAfterEpoch : Instant := ⟨0, 600000, Instant.epoch.in_range, by decide, by decide⟩

-- The span between them is held as one second back and 998500000 nanoseconds forward.
theorem borrowed_second_cut :
    Instant.parse? " 1969-12-31t23:59:59.9991+00:00 " = some justBeforeEpoch ∧
      latency? justAfterEpoch " 1969-12-31t23:59:59.9991+00:00 " = some (-1) ∧
      (∃ more, latency? justAfterEpoch "1970-01-01T00:00:00Z" = some more ∧ -1 ≤ more) ∧
      latency? justBeforeEpoch "1970-01-01T00:00:00.0006Z" = some 1 := by
  have read : Instant.parse? " 1969-12-31t23:59:59.9991+00:00 " = some justBeforeEpoch := by decide
  have read_epoch : Instant.parse? "1970-01-01T00:00:00Z" = some .epoch := by decide
  have read_back : Instant.parse? "1970-01-01T00:00:00.0006Z" = some justAfterEpoch := by decide
  obtain ⟨millis, derived, -, cut, -, -, grows, back⟩ :=
    latencies_cut_toward_zero.2 justAfterEpoch justBeforeEpoch _ read (by decide) (by decide)
  have value : millis = -1 := cut.trans (by decide)
  subst value
  exact ⟨read, derived, grows _ .epoch read_epoch (by decide) (by decide), back _ read_back⟩

end Observation
end StartupLatency
