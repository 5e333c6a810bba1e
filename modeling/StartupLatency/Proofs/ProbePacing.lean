import Mathlib.Algebra.BigOperators.Group.Finset.Basic
import Mathlib.Algebra.Order.Floor.Div
import StartupLatency.Proofs.ProbeAttempts
import StartupLatency.Reporter.Config

/-!
How many attempts the probe loop makes, and when. Each attempt starts when those before it and the
intervals behind them are over, so their number is bounded by how many intervals the time has room
for, whatever the attempts themselves take, as long as the clock can tell the time.
-/

namespace StartupLatency

namespace ProbePlan

def pacedStart (plan : ProbePlan) (d : Nat → Nat) (attempt : Nat) : Nat :=
  ∑ earlier ∈ Finset.range attempt, (d earlier + plan.interval)

/-- The clock can tell the end of the time, and of every pause that begins within it. Where the time
is no longer than a cut pause, that pause does as well. -/
structure Clocked (plan : ProbePlan) (prober : Prober) : Prop where
  timed : plan.Timed prober
  paused : plan.timeout ≤ Prober.farAhead ∨ plan.timeout + plan.interval ≤ prober.room

instance (plan : ProbePlan) (prober : Prober) : Decidable (plan.Clocked prober) :=
  decidable_of_iff
    (plan.Timed prober ∧
      (plan.timeout ≤ Prober.farAhead ∨ plan.timeout + plan.interval ≤ prober.room))
    ⟨fun ⟨timed, paused⟩ => ⟨timed, paused⟩, fun clocked => ⟨clocked.timed, clocked.paused⟩⟩

variable {plan : ProbePlan} {prober : Prober} {d : Nat → Nat}

/-- A pause that is cut ends behind the time, as the whole one would. -/
theorem pause_clocked (clocked : plan.Clocked prober) (finish : Nat) :
    prober.pause finish plan.interval = plan.interval ∨
      plan.timeout ≤ finish + prober.pause finish plan.interval ∧
        plan.timeout ≤ finish + plan.interval := by
  obtain ⟨timed, paused⟩ := clocked
  simp only [Timed] at timed
  unfold Prober.pause
  split
  · exact Or.inl rfl
  · omega

theorem intervals_le_paced (attempt : Nat) :
    attempt * plan.interval ≤ plan.pacedStart d attempt := by
  rw [pacedStart, Finset.sum_add_distrib, Finset.sum_const, Finset.card_range, smul_eq_mul]
  exact Nat.le_add_left _ _

theorem within_iff (waits : 0 < plan.interval) (attempt : Nat) :
    attempt < plan.timeout ⌈/⌉ plan.interval ↔ attempt * plan.interval < plan.timeout := by
  rw [← Nat.not_le, ceilDiv_le_iff_le_mul waits, Nat.mul_comm, Nat.not_le]

theorem made_iff (waits : 0 < plan.interval) (attempt : Nat) :
    attempt < (plan.run prober).starts.length ↔ plan.Makes prober attempt := by
  constructor
  · intro within
    exact ((run_starts waits attempt _).mp (List.getElem?_eq_getElem within)).1
  · intro made
    have listed := (run_starts waits attempt _).mpr ⟨made, rfl⟩
    exact (List.getElem?_eq_some_iff.mp listed).1

/-- Of the attempts that are made only the last one can succeed. -/
theorem outcome_of_up (waits : 0 < plan.interval) (attempt : Nat)
    (made : plan.Makes prober attempt) (up : plan.answerOf prober attempt = .up) :
    (plan.run prober).outcome = .ready (plan.finishOf prober attempt) := by
  have ends := run_ends plan prober waits
  generalize (plan.run prober).outcome = outcome at ends
  cases ends with
  | ready other makes ready => rw [stops_once made makes (by simp [up]) (by simp [ready])]
  | crashed time crashes =>
    rcases crashes with untimed | ⟨other, makes, crash⟩
    · exact absurd made.timed untimed
    · cases stops_once made makes (by simp [up]) (by simp [crash])
      cases up.symm.trans crash
  | timedOut time late fails => cases up.symm.trans (fails.failed attempt made)

theorem ready_or_late (waits : 0 < plan.interval) (timed : plan.Timed prober)
    (stands : ∀ attempt, plan.Makes prober attempt → plan.answerOf prober attempt ≠ .crash) :
    (∃ attempt, plan.Makes prober attempt ∧ plan.answerOf prober attempt = .up ∧
        (plan.run prober).outcome = .ready (plan.finishOf prober attempt)) ∨
      ∃ time, (plan.run prober).outcome = .timedOut time := by
  have ends := run_ends plan prober waits
  generalize (plan.run prober).outcome = outcome at ends
  cases ends with
  | ready attempt made up => exact Or.inl ⟨attempt, made, up, rfl⟩
  | crashed time crashes =>
    rcases crashes with untimed | ⟨attempt, made, crash⟩
    · exact absurd timed untimed
    · exact absurd crash (stands attempt made)
  | timedOut time => exact Or.inr ⟨time, rfl⟩

/-- The attempts take `d` and either succeed or fail, by a clock that can tell the time. -/
structure Paced (plan : ProbePlan) (prober : Prober) (d : Nat → Nat) (succeeds : Nat → Bool) :
    Prop where
  clocked : plan.Clocked prober
  takes : ∀ attempt, prober.takes attempt (plan.pacedStart d attempt) = d attempt
  answers : ∀ attempt, prober.answer attempt (plan.pacedStart d attempt) =
    if succeeds attempt then .up else .down

section Paced

variable {succeeds : Nat → Bool} (paced : plan.Paced prober d succeeds)
include paced

/-- An attempt starts at its paced time, unless both are too late. -/
theorem start_paced (attempt : Nat) :
    plan.startOf prober attempt = plan.pacedStart d attempt ∨
      plan.timeout ≤ plan.startOf prober attempt ∧
        plan.timeout ≤ plan.pacedStart d attempt := by
  induction attempt with
  | zero => exact Or.inl rfl
  | succ attempt ih =>
    have next : plan.pacedStart d (attempt + 1) =
        plan.pacedStart d attempt + d attempt + plan.interval := by
      rw [pacedStart, pacedStart, Finset.sum_range_succ, Nat.add_assoc]
    rw [startOf, next]
    rcases ih with same | late
    · rw [same, paced.takes]
      have pause := pause_clocked paced.clocked (plan.pacedStart d attempt + d attempt)
      omega
    · omega

theorem start_of_within {attempt : Nat} (within : plan.pacedStart d attempt < plan.timeout) :
    plan.startOf prober attempt = plan.pacedStart d attempt := by
  rcases start_paced paced attempt with same | late
  · exact same
  · omega

theorem answer_of_within {attempt : Nat} (within : plan.pacedStart d attempt < plan.timeout) :
    plan.answerOf prober attempt = if succeeds attempt then .up else .down := by
  rw [answerOf, start_of_within paced within, paced.answers]

theorem makes_iff (attempt : Nat) :
    plan.Makes prober attempt ↔
      plan.pacedStart d attempt < plan.timeout ∧
        ∀ earlier < attempt, succeeds earlier = false := by
  -- Whatever starts before an attempt in time is in time too.
  have failed (within : plan.pacedStart d attempt < plan.timeout) (earlier : Nat)
      (before : earlier < attempt) :
      plan.answerOf prober earlier = .down ↔ succeeds earlier = false := by
    have start : plan.startOf prober earlier ≤ plan.startOf prober attempt :=
      start_le_start (Nat.le_of_lt before)
    rw [start_of_within paced within] at start
    have early : plan.pacedStart d earlier < plan.timeout := by
      rcases start_paced paced earlier with same | late <;> omega
    rw [answer_of_within paced early]
    cases succeeds earlier <;> simp
  constructor
  · intro made
    have within : plan.pacedStart d attempt < plan.timeout := by
      have start := made.within
      rcases start_paced paced attempt with same | late <;> omega
    exact ⟨within, fun earlier before => (failed within earlier before).mp (made.failed _ before)⟩
  · rintro ⟨within, fails⟩
    refine ⟨paced.clocked.timed, ?_, fun earlier before => ?_⟩
    · rwa [start_of_within paced within]
    · exact (failed within earlier before).mpr (fails earlier before)

theorem attempts_bounded (waits : 0 < plan.interval) :
    (plan.run prober).starts.length ≤ plan.timeout ⌈/⌉ plan.interval := by
  by_contra more
  obtain ⟨within, _⟩ :=
    (makes_iff paced _).mp ((made_iff waits _).mp (Nat.not_le.mp more))
  have room := (within_iff waits _).mpr (Nat.lt_of_le_of_lt (intervals_le_paced _) within)
  exact Nat.lt_irrefl _ room

/-- Attempts that fail at once leave no time unused. -/
theorem attempts_instantaneous (waits : 0 < plan.interval)
    (instant : ∀ attempt, d attempt = 0 ∧ succeeds attempt = false) :
    (plan.run prober).starts.length = plan.timeout ⌈/⌉ plan.interval := by
  refine Nat.le_antisymm (attempts_bounded paced waits) ?_
  by_contra fewer
  have room := (within_iff waits _).mp (Nat.not_le.mp fewer)
  have within : plan.pacedStart d (plan.run prober).starts.length < plan.timeout := by
    simpa [pacedStart, instant] using room
  have made := (made_iff waits _).mpr
    ((makes_iff paced _).mpr ⟨within, fun earlier _ => (instant earlier).2⟩)
  exact Nat.lt_irrefl _ made

end Paced

end ProbePlan

/-! ## Spans of whole seconds -/

theorem Duration.ticks_of_seconds (secs : Nat) (fits : secs < Word.limit64) :
    (Duration.ofSeconds secs).ticks = secs * 1000 := by
  simp [Duration.ofSeconds, Duration.ofParts?, fits, Duration.ticks]

namespace ReporterConfig

theorem seconds_whole (env : Environment) (name : String) (fallback : Nat)
    (positive : 0 < fallback) (fits : fallback < Word.limit64) :
    ∃ secs, 1 ≤ secs ∧ (seconds env name fallback).ticks = secs * 1000 := by
  rw [seconds]
  generalize asked : ((env.text? name).bind fun raw =>
    Text.Decimal.readBelow? Word.limit64 (Text.trim raw.toList)).filter (0 < ·) = given
  cases given with
  | none => exact ⟨fallback, positive, Duration.ticks_of_seconds fallback fits⟩
  | some secs =>
    obtain ⟨read, above⟩ := Option.filter_eq_some_iff.mp asked
    obtain ⟨raw, _, number⟩ := Option.bind_eq_some_iff.mp read
    have below := (Option.filter_eq_some_iff.mp number).2
    exact ⟨secs, of_decide_eq_true above, Duration.ticks_of_seconds secs (of_decide_eq_true below)⟩

theorem spans_read (env : Environment) (config : ReporterConfig)
    (read : ofEnvironment env = .ok config) :
    config.timeout = seconds env "probe_timeout" 60 ∧
      config.interval = seconds env "probe_interval" 2 := by
  simp only [ofEnvironment, bind, Except.bind, pure, Except.pure] at read
  split at read
  · cases read
  · split at read
    · cases read
    · split at read
      · cases read
      · cases read
        exact ⟨rfl, rfl⟩

theorem plan_whole (env : Environment) (config : ReporterConfig)
    (read : ofEnvironment env = .ok config) :
    ∃ timeout interval, 1 ≤ timeout ∧ 1 ≤ interval ∧
      config.settings.plan = ⟨timeout * 1000, interval * 1000⟩ := by
  obtain ⟨timeoutRead, intervalRead⟩ := spans_read env config read
  obtain ⟨timeout, lasts, timeoutTicks⟩ :=
    seconds_whole env "probe_timeout" 60 (by decide) (by decide)
  obtain ⟨interval, waits, intervalTicks⟩ :=
    seconds_whole env "probe_interval" 2 (by decide) (by decide)
  refine ⟨timeout, interval, lasts, waits, ?_⟩
  rw [settings, ReporterSettings.plan, timeoutRead, intervalRead, timeoutTicks, intervalTicks]

end ReporterConfig

namespace ProbePlan

-- Up at the second attempt, which starts in time and ends behind it.
def lateProber : Prober where
  takes _ _ := 300
  answer attempt _ := if attempt == 1 then .up else .down
  room := Prober.widestRoom

def deadProber : Prober := .ofScript [.down] 0

def sixSeconds : Variables :=
  .ofList [("MY_POD_NAME", "web"), ("MY_POD_NAMESPACE", "perf"), ("PROBE_INTERVAL", "0"),
    ("PROBE_TARGET", "tcp://10.0.0.1:80"), ("PROBE_TIMEOUT", " 6 ")]

end ProbePlan
end StartupLatency
