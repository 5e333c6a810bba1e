import StartupLatency.Probe

/-!
The attempts of the probe loop. As long as attempts fail, the prober alone fixes when the next one
starts and what becomes of it, so the loop's end is decided by the first attempt that does not
fail, or by the lack of one before the time is up. A loop whose end is beyond its clock comes to no
attempt at all.
-/

namespace StartupLatency

namespace ProbePlan

section
variable (plan : ProbePlan) (prober : Prober)

def startOf : Nat → Nat
  | 0 => 0
  | attempt + 1 =>
    let start := startOf attempt
    let finish := start + prober.takes attempt start
    finish + prober.pause finish plan.interval

def finishOf (attempt : Nat) : Nat :=
  plan.startOf prober attempt + prober.takes attempt (plan.startOf prober attempt)

def answerOf (attempt : Nat) : ProbeAnswer :=
  prober.answer attempt (plan.startOf prober attempt)

/-- The attempt comes to be made: all before it fail, and it starts within the time. -/
structure Makes (attempt : Nat) : Prop where
  timed : plan.Timed prober
  within : plan.startOf prober attempt < plan.timeout
  failed : ∀ earlier < attempt, plan.answerOf prober earlier = .down

structure Fails : Prop where
  timed : plan.Timed prober
  failed : ∀ attempt, plan.Makes prober attempt → plan.answerOf prober attempt = .down

/-- The loop comes down: its end is beyond the clock, or an attempt that is made crashes. -/
def Crashes : Prop :=
  ¬ plan.Timed prober ∨
    ∃ attempt, plan.Makes prober attempt ∧ plan.answerOf prober attempt = .crash

inductive Ends : ProbeEnd → Prop where
  | ready (attempt : Nat) (made : plan.Makes prober attempt)
      (up : plan.answerOf prober attempt = .up) : Ends (.ready (plan.finishOf prober attempt))
  | crashed (time : Nat) (crashes : plan.Crashes prober) : Ends (.crashed time)
  | timedOut (time : Nat) (late : plan.timeout ≤ time) (fails : plan.Fails prober) :
      Ends (.timedOut time)

end

variable {plan : ProbePlan} {prober : Prober}

theorem start_le_start {attempt later : Nat} (order : attempt ≤ later) :
    plan.startOf prober attempt ≤ plan.startOf prober later := by
  induction order with
  | refl => exact Nat.le_refl _
  | step _ ih =>
    rw [startOf]
    omega

theorem pause_least (prober : Prober) (now interval : Nat) :
    min interval Prober.farAhead ≤ prober.pause now interval := by
  unfold Prober.pause
  split
  · exact Nat.min_le_left _ _
  · exact Nat.min_le_right _ _

/-- Waiting alone takes up that much time. -/
theorem pauses_le_start (attempt : Nat) :
    attempt * min plan.interval Prober.farAhead ≤ plan.startOf prober attempt := by
  induction attempt with
  | zero => exact Nat.le_of_eq (Nat.zero_mul _)
  | succ attempt ih =>
    have pause := pause_least prober
      (plan.startOf prober attempt + prober.takes attempt (plan.startOf prober attempt))
      plan.interval
    rw [startOf, Nat.succ_mul]
    omega

theorem timeout_le_start (waits : 0 < plan.interval) :
    plan.timeout ≤ plan.startOf prober plan.attemptBound := by
  have waiting : 0 < min plan.interval Prober.farAhead := Nat.lt_min.mpr ⟨waits, by decide⟩
  have covered : plan.timeout ≤ plan.attemptBound * min plan.interval Prober.farAhead := by
    rw [attemptBound, if_neg (Nat.ne_of_gt waiting), Nat.succ_mul]
    generalize min plan.interval Prober.farAhead = pause at waiting ⊢
    have parts := Nat.div_add_mod (plan.timeout + pause - 1) pause
    have rest := Nat.mod_lt (plan.timeout + pause - 1) waiting
    rw [Nat.mul_comm] at parts
    omega
  exact Nat.le_trans covered (pauses_le_start plan.attemptBound)

theorem not_makes_of_late {late later : Nat} (expired : plan.timeout ≤ plan.startOf prober late)
    (order : late ≤ later) : ¬ plan.Makes prober later := by
  intro made
  have start := Nat.le_trans expired (start_le_start order)
  exact Nat.not_lt.mpr start made.within

/-- An attempt that does not fail is the last one. -/
theorem not_makes_behind {attempt later : Nat} (stops : plan.answerOf prober attempt ≠ .down)
    (behind : attempt < later) : ¬ plan.Makes prober later := by
  intro made
  exact stops (made.failed attempt behind)

/-- Of the attempts that are made only one does not fail. -/
theorem stops_once {attempt other : Nat} (made : plan.Makes prober attempt)
    (makes : plan.Makes prober other) (stops : plan.answerOf prober attempt ≠ .down)
    (ended : plan.answerOf prober other ≠ .down) : other = attempt := by
  rcases Nat.lt_trichotomy other attempt with before | same | behind
  · exact absurd made (not_makes_behind ended before)
  · exact same
  · exact absurd makes (not_makes_behind stops behind)

/-- Nothing but failures up to the end of the time. -/
theorem fails_of_late {late : Nat} (timed : plan.Timed prober)
    (expired : plan.timeout ≤ plan.startOf prober late)
    (failed : ∀ earlier < late, plan.answerOf prober earlier = .down) : plan.Fails prober := by
  refine ⟨timed, fun attempt made => ?_⟩
  rcases Nat.lt_or_ge attempt late with before | order
  · exact failed attempt before
  · exact absurd made (not_makes_of_late expired order)

/-- The induction is on the attempts left. Those before `attempt` have failed, so the loop is at
the time at which `attempt` starts. -/
theorem run_from_ends (timed : plan.Timed prober) (bound attempt : Nat)
    (failed : ∀ earlier < attempt, plan.answerOf prober earlier = .down)
    (enough : plan.timeout ≤ plan.startOf prober (attempt + bound)) :
    plan.Ends prober
      (plan.runFrom prober attempt (plan.startOf prober attempt) bound).outcome := by
  induction bound generalizing attempt with
  | zero =>
    have expired : plan.timeout ≤ plan.startOf prober attempt := enough
    rw [runFrom, if_pos expired]
    exact .timedOut _ expired (fails_of_late timed expired failed)
  | succ bound ih =>
    rw [runFrom]
    split
    · rename_i expired
      exact .timedOut _ expired (fails_of_late timed expired failed)
    · rename_i within
      have makes : plan.Makes prober attempt := ⟨timed, Nat.not_le.mp within, failed⟩
      cases answer : prober.answer attempt (plan.startOf prober attempt) with
      | up => exact .ready attempt makes answer
      | crash => exact .crashed _ (Or.inr ⟨attempt, makes, answer⟩)
      | down =>
        apply ih (attempt + 1)
        · exact Nat.forall_lt_succ_right.mpr ⟨failed, answer⟩
        · rwa [Nat.add_right_comm, Nat.add_assoc]

theorem run_timed (timed : plan.Timed prober) :
    plan.run prober = plan.runFrom prober 0 (plan.startOf prober 0) plan.attemptBound :=
  if_pos timed

theorem run_untimed (untimed : ¬ plan.Timed prober) : plan.run prober = ⟨[], .crashed 0⟩ :=
  if_neg untimed

theorem run_ends (plan : ProbePlan) (prober : Prober) (waits : 0 < plan.interval) :
    plan.Ends prober (plan.run prober).outcome := by
  by_cases timed : plan.Timed prober
  · rw [run_timed timed]
    apply run_from_ends timed plan.attemptBound 0
    · intro earlier before
      exact absurd before (Nat.not_lt_zero earlier)
    · rw [Nat.zero_add]
      exact timeout_le_start waits
  · rw [run_untimed timed]
    exact .crashed 0 (Or.inl timed)

/-- A loop that fails neither succeeds nor comes down. -/
theorem not_crashes_of_fails (fails : plan.Fails prober) : ¬ plan.Crashes prober := by
  rintro (untimed | ⟨attempt, made, crash⟩)
  · exact untimed fails.timed
  · cases crash.symm.trans (fails.failed attempt made)

/-- The loop times out exactly when all its attempts fail. -/
theorem run_fails_iff (plan : ProbePlan) (prober : Prober) (waits : 0 < plan.interval) :
    plan.Fails prober ↔ ∃ time, (plan.run prober).outcome = .timedOut time := by
  have ends := run_ends plan prober waits
  generalize (plan.run prober).outcome = outcome at ends
  constructor
  · intro fails
    cases ends with
    | ready attempt made up => cases up.symm.trans (fails.failed attempt made)
    | crashed time crashes => exact absurd crashes (not_crashes_of_fails fails)
    | timedOut time => exact ⟨time, rfl⟩
  · rintro ⟨time, rfl⟩
    cases ends with
    | timedOut _ _ fails => exact fails

theorem run_crashes_iff (plan : ProbePlan) (prober : Prober) (waits : 0 < plan.interval) :
    plan.Crashes prober ↔ ∃ time, (plan.run prober).outcome = .crashed time := by
  have ends := run_ends plan prober waits
  generalize (plan.run prober).outcome = outcome at ends
  constructor
  · intro crashes
    cases ends with
    | ready attempt made up =>
      rcases crashes with untimed | ⟨other, makes, crash⟩
      · exact absurd made.timed untimed
      · -- Both would be the attempt that stops the loop.
        cases stops_once made makes (by simp [up]) (by simp [crash])
        cases up.symm.trans crash
    | crashed time => exact ⟨time, rfl⟩
    | timedOut time late fails => exact absurd crashes (not_crashes_of_fails fails)
  · rintro ⟨time, rfl⟩
    cases ends with
    | crashed _ crashes => exact crashes

theorem run_from_starts (timed : plan.Timed prober) (bound attempt index start : Nat)
    (failed : ∀ earlier < attempt, plan.answerOf prober earlier = .down)
    (enough : plan.timeout ≤ plan.startOf prober (attempt + bound)) :
    (plan.runFrom prober attempt (plan.startOf prober attempt) bound).starts[index]? =
        some start ↔
      plan.Makes prober (attempt + index) ∧ plan.startOf prober (attempt + index) = start := by
  induction bound generalizing attempt index with
  | zero =>
    have expired : plan.timeout ≤ plan.startOf prober attempt := enough
    simp [runFrom, expired, not_makes_of_late expired (Nat.le_add_right attempt index)]
  | succ bound ih =>
    rw [runFrom]
    split
    · rename_i expired
      simp [not_makes_of_late expired (Nat.le_add_right attempt index)]
    · rename_i within
      have makes : plan.Makes prober attempt := ⟨timed, Nat.not_le.mp within, failed⟩
      have only (stops : plan.answerOf prober attempt ≠ .down) :
          [plan.startOf prober attempt][index]? = some start ↔
            plan.Makes prober (attempt + index) ∧
              plan.startOf prober (attempt + index) = start := by
        cases index with
        | zero => simp [makes]
        | succ index => simp [not_makes_behind stops (Nat.lt_add_of_pos_right index.succ_pos)]
      cases answer : prober.answer attempt (plan.startOf prober attempt) with
      | up => exact only fun down => by cases answer.symm.trans down
      | crash => exact only fun down => by cases answer.symm.trans down
      | down =>
        cases index with
        | zero => simp [makes]
        | succ index =>
          have rest := ih (attempt + 1) index (Nat.forall_lt_succ_right.mpr ⟨failed, answer⟩)
            (by rwa [Nat.add_right_comm, Nat.add_assoc])
          rwa [Nat.add_right_comm, Nat.add_assoc] at rest

/-- A run lists the attempts that come to be made, each with the time of its start. -/
theorem run_starts (waits : 0 < plan.interval) (attempt start : Nat) :
    (plan.run prober).starts[attempt]? = some start ↔
      plan.Makes prober attempt ∧ plan.startOf prober attempt = start := by
  by_cases timed : plan.Timed prober
  · have enough : plan.timeout ≤ plan.startOf prober (0 + plan.attemptBound) := by
      rw [Nat.zero_add]
      exact timeout_le_start waits
    have listed := run_from_starts timed plan.attemptBound 0 attempt start
      (fun earlier before => absurd before (Nat.not_lt_zero earlier)) enough
    rwa [Nat.zero_add, ← run_timed timed] at listed
  · rw [run_untimed timed]
    constructor
    · intro listed
      cases listed
    · rintro ⟨made, _⟩
      exact absurd made.timed timed

end ProbePlan
end StartupLatency
