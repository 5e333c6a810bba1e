import Mathlib.Algebra.BigOperators.Group.Finset.Basic
import Mathlib.Data.ENat.Lattice
import StartupLatency.Proofs.DelayGrowth
import StartupLatency.Proofs.RetriedCalls
import StartupLatency.Proofs.RetrySchedule
import StartupLatency.Reporter

/-!
When a retried operation is called, and what comes of it. Where calls take no time, the times of
the calls are told by the pauses alone, and these by the number of the failed call; the end is told
by the first success in the order of calls.
-/

namespace StartupLatency

namespace Duration

theorem millis_ticks {d : Duration} (whole : d.Whole) : d.ticks = d.millis := by
  obtain ⟨millis, same⟩ := whole
  rw [ticks, Duration.millis, same]
  omega

theorem times_ticks {d product : Duration} {factor : Nat} (whole : d.Whole)
    (given : d.times? factor = some product) : product.ticks = d.millis * factor := by
  have exact_product := ticks_whole (times_whole whole given)
  have exact_single := ticks_whole whole
  rw [← millis_ticks whole]
  refine Nat.eq_of_mul_eq_mul_right (show 0 < 1000000 by decide) ?_
  rw [exact_product, total_of_times given, ← exact_single, Nat.mul_right_comm]

end Duration

namespace RetryPolicy

variable {σ α : Type}

def pause (policy : RetryPolicy) (attempt : Nat) : Nat :=
  policy.initialDelay.millis * min (2 ^ attempt) (2 ^ 32 - 1)

theorem delay_ticks {policy : RetryPolicy} (whole : policy.initialDelay.Whole) {attempt : Nat}
    {delay : Duration} (given : policy.delayAfter? attempt = some delay) :
    delay.ticks = policy.pause attempt := by
  rw [Duration.times_ticks whole given, pause]
  congr 1
  split
  · rename_i few
    have below : 2 ^ attempt ≤ 2 ^ 31 := Nat.pow_le_pow_right (by decide) (by omega)
    exact (Nat.min_eq_left (Nat.le_trans below (by decide))).symm
  · rename_i many
    have above : 2 ^ 32 ≤ 2 ^ attempt := Nat.pow_le_pow_right (by decide) (by omega)
    exact (Nat.min_eq_right (Nat.le_trans (Nat.sub_le _ _) above)).symm

def pauses (policy : RetryPolicy) (attempt count : Nat) : Nat :=
  ∑ index ∈ Finset.range count, policy.pause (attempt + index)

theorem pauses_succ (policy : RetryPolicy) (attempt count : Nat) :
    policy.pauses attempt (count + 1) =
      policy.pause attempt + policy.pauses (attempt + 1) count := by
  rw [pauses, pauses, Finset.sum_range_succ', Nat.add_comm]
  refine congrArg₂ (· + ·) rfl (Finset.sum_congr rfl fun index _ => ?_)
  rw [Nat.add_assoc, Nat.add_comm 1]

/-- What comes of at most so many calls, and after how many: the first success, or else the fault
of the last call. -/
inductive Comes (call : σ → Reply σ α) (left : Nat) (lastFault : String) (world : σ) :
    Nat → RetryResult α → Prop where
  | succeeds (failed : Nat) (fewer : failed < left) (value : α)
      (stumbles : Stumbles call failed world)
      (ok : (call (worldAfter call failed world)).answer = .ok value) :
      Comes call left lastFault world (failed + 1) (.succeeded value)
  | exhausts (fault : String) (stumbles : Stumbles call left world)
      (none : left = 0 → fault = lastFault)
      (last : ∀ earlier, left = earlier + 1 →
        (call (worldAfter call earlier world)).answer = .error fault) :
      Comes call left lastFault world left (.exhausted fault)

/-- A run whose calls start and end at the times that the pauses tell. -/
structure Paced (policy : RetryPolicy) (attempt now : Nat) (run : Retried σ α) : Prop where
  starts : run.attempts.map Attempt.start =
    (List.range run.attempts.length).map fun index => now + policy.pauses attempt index
  finish : run.finish = now + policy.pauses attempt (run.attempts.length - 1)

theorem paced_single (policy : RetryPolicy) (attempt now : Nat) (result : RetryResult α)
    (fault : Option String) (world : σ) :
    policy.Paced attempt now ⟨result, [⟨now, fault⟩], now, world⟩ := ⟨rfl, rfl⟩

theorem paced_cons {policy : RetryPolicy} {attempt now : Nat} {rest : Retried σ α}
    (fault : Option String) (called : 0 < rest.attempts.length)
    (paced : policy.Paced (attempt + 1) (now + policy.pause attempt) rest) :
    policy.Paced attempt now { rest with attempts := ⟨now, fault⟩ :: rest.attempts } := by
  constructor
  · rw [List.map_cons, List.length_cons, List.range_succ_eq_map, List.map_cons, List.map_map,
      paced.starts]
    refine congrArg₂ List.cons rfl (List.map_congr_left fun index _ => ?_)
    rw [Function.comp_apply, pauses_succ, Nat.add_assoc]
  · dsimp only
    rw [paced.finish, List.length_cons, Nat.add_sub_cancel, Nat.add_assoc, ← pauses_succ,
      Nat.sub_add_cancel called]

section Comes
variable {call : σ → Reply σ α} {left calls : Nat} {lastFault : String} {world : σ}
  {result : RetryResult α}

theorem comes_called (more : left ≠ 0) (comes : Comes call left lastFault world calls result) :
    0 < calls := by
  cases comes with
  | succeeds failed => exact Nat.succ_pos failed
  | exhausts => exact Nat.pos_of_ne_zero more

/-- A call that fails is followed by what comes of those behind it. -/
theorem comes_behind {fault : String} (fails : Fails call world) (more : left ≠ 0)
    (comes : Comes call left fault (call world).world calls result) :
    Comes call (left + 1) lastFault world (calls + 1) result := by
  cases comes with
  | succeeds failed fewer value stumbles ok =>
    exact .succeeds (failed + 1) (Nat.succ_lt_succ fewer) value ⟨fails, stumbles⟩ ok
  | exhausts latest stumbles none last =>
    refine .exhausts latest ⟨fails, stumbles⟩ (fun none => absurd none (Nat.succ_ne_zero left))
      fun earlier same => ?_
    cases Nat.succ.inj same
    obtain ⟨before, rfl⟩ := Nat.exists_eq_succ_of_ne_zero more
    exact last before rfl

end Comes

/-- The induction is on the calls left. -/
theorem run_from_timed {policy : RetryPolicy} (whole : policy.initialDelay.Whole)
    (call : σ → Reply σ α) (attempt left : Nat) (lastFault : String) (now : Nat) (world : σ)
    (lasting : ∀ earlier < attempt + left - 1, (policy.delayAfter? earlier).isSome = true)
    (instant : ∀ calls, (call (worldAfter call calls world)).takes = 0) :
    let run := policy.runFrom call attempt left lastFault now world
    policy.Paced attempt now run ∧
      Comes call left lastFault world run.attempts.length run.result := by
  induction left generalizing attempt lastFault now world with
  | zero =>
    refine ⟨⟨rfl, rfl⟩, .exhausts lastFault trivial (fun _ => rfl) fun earlier same => ?_⟩
    exact absurd same.symm (Nat.succ_ne_zero earlier)
  | succ left ih =>
    have no_time : (call world).takes = 0 := instant 0
    cases answer : (call world).answer with
    | ok value =>
      simp only [runFrom, answer, no_time, Nat.add_zero]
      exact ⟨paced_single policy attempt now _ _ _,
        .succeeds 0 (Nat.succ_pos left) value trivial answer⟩
    | error fault =>
      have fails : Fails call world := ⟨fault, answer⟩
      by_cases last : left = 0
      · subst last
        simp only [runFrom, answer, no_time, Nat.add_zero, if_true]
        refine ⟨paced_single policy attempt now _ _ _,
          .exhausts fault ⟨fails, trivial⟩ (fun none => absurd none (Nat.succ_ne_zero 0)) ?_⟩
        rintro earlier same
        cases same
        exact answer
      · obtain ⟨delay, given⟩ := Option.isSome_iff_exists.mp (lasting attempt (by omega))
        obtain ⟨paced, comes⟩ := ih (attempt + 1) fault (now + policy.pause attempt)
          (call world).world (fun earlier before => lasting earlier (by omega))
          (fun calls => instant (calls + 1))
        simp only [runFrom, answer, no_time, Nat.add_zero, if_neg last, given,
          delay_ticks whole given]
        exact ⟨paced_cons (some fault) (comes_called last comes) paced,
          comes_behind fails last comes⟩

/-! ## Scripts of outcomes -/

inductive FirstSuccess (outcomes : Nat → Except String α) : ℕ∞ → Prop where
  | found (k : Nat) (value : α) (ok : outcomes k = .ok value)
      (before : ∀ earlier < k, ∃ fault, outcomes earlier = .error fault) :
      FirstSuccess outcomes k
  | never (fails : ∀ k, ∃ fault, outcomes k = .error fault) : FirstSuccess outcomes ⊤

theorem first_success_behind (outcomes : Nat → Except String α) (calls : Nat)
    (fail : ∀ earlier < calls, ∃ fault, outcomes earlier = .error fault) :
    ∃ k : ℕ∞, FirstSuccess outcomes k ∧ calls ≤ k := by
  classical
  have failed_iff (k : Nat) :
      (∃ fault, outcomes k = .error fault) ↔ ¬ ∃ value, outcomes k = .ok value := by
    cases outcomes k <;> simp
  by_cases some : ∃ k value, outcomes k = .ok value
  · obtain ⟨value, ok⟩ := Nat.find_spec some
    refine ⟨Nat.find some, .found _ value ok fun earlier before => ?_, ?_⟩
    · exact (failed_iff earlier).mpr (Nat.find_min some before)
    · rw [Nat.cast_le]
      by_contra early
      exact (failed_iff _).mp (fail _ (Nat.not_le.mp early)) ⟨value, ok⟩
  · exact ⟨⊤, .never fun k => (failed_iff k).mpr fun success => some ⟨k, success⟩, le_top⟩

theorem stumbles_iff_answers (call : σ → Reply σ α) (calls : Nat) (world : σ) :
    Stumbles call calls world ↔
      ∀ earlier < calls, ∃ fault, (call (worldAfter call earlier world)).answer = .error fault := by
  induction calls generalizing world with
  | zero => simp [Stumbles]
  | succ calls ih => rw [Stumbles, ih, Nat.forall_lt_succ_left']; rfl

theorem comes_of_script {call : σ → Reply σ α} {outcomes : Nat → Except String α} {world : σ}
    {left calls : Nat} {lastFault : String} {result : RetryResult α}
    (answers : ∀ calls, (call (worldAfter call calls world)).answer = outcomes calls)
    (comes : Comes call left lastFault world calls result) :
    ∃ k : ℕ∞, FirstSuccess outcomes k ∧ (calls : ℕ∞) = min (k + 1) left ∧
      (∀ index : Nat, k = index → index < left →
        ∃ value, outcomes index = .ok value ∧ result = .succeeded value) ∧
      (left ≤ k → ∃ fault, result = .exhausted fault ∧ (left = 0 → fault = lastFault) ∧
        ∀ last, left = last + 1 → outcomes last = .error fault) := by
  have fail (calls : Nat) (stumbles : Stumbles call calls world) :
      ∀ earlier < calls, ∃ fault, outcomes earlier = .error fault := by
    simpa only [answers] using (stumbles_iff_answers call calls world).mp stumbles
  cases comes with
  | succeeds failed fewer value stumbles ok =>
    rw [answers] at ok
    refine ⟨failed, .found failed value ok (fail failed stumbles), ?_, fun index same _ => ?_,
      fun none => ?_⟩
    · have order : ((failed + 1 : Nat) : ℕ∞) ≤ left := Nat.cast_le.mpr fewer
      rw [← Nat.cast_succ, min_eq_left order]
    · cases Nat.cast_injective same
      exact ⟨value, ok, rfl⟩
    · exact absurd (Nat.cast_le.mp none) (Nat.not_le.mpr fewer)
  | exhausts fault stumbles none last =>
    obtain ⟨k, first, behind⟩ := first_success_behind outcomes left (fail left stumbles)
    refine ⟨k, first, ?_, fun index same before => ?_, fun _ => ⟨fault, rfl, none, ?_⟩⟩
    · exact (min_eq_right (le_trans behind le_self_add)).symm
    · rw [same, Nat.cast_le] at behind
      exact absurd behind (Nat.not_le.mpr before)
    · intro earlier same
      rw [← answers, last earlier same]

theorem pauses_doubling (policy : RetryPolicy) (count : Nat) (few : count ≤ 32) :
    policy.pauses 0 count = policy.initialDelay.millis * (2 ^ count - 1) := by
  induction count with
  | zero => rfl
  | succ count ih =>
    have below : 2 ^ count ≤ 2 ^ 31 := Nat.pow_le_pow_right (by decide) (by omega)
    have single : policy.pause count = policy.initialDelay.millis * 2 ^ count := by
      rw [pause, Nat.min_eq_left (Nat.le_trans below (by decide))]
    rw [pauses, Finset.sum_range_succ, ← pauses, ih (Nat.le_of_succ_le few), Nat.zero_add, single,
      ← Nat.mul_add]
    congr 1
    have positive : 0 < 2 ^ count := Nat.two_pow_pos count
    omega

/-- The retry loop over a script of outcomes, each of which takes no time. -/
theorem run_scripted (policy : RetryPolicy) (call : σ → Reply σ α)
    (outcomes : Nat → Except String α) (now : Nat) (world : σ)
    (whole : policy.initialDelay.Whole) (lasting : policy.Lasting)
    (instant : ∀ calls, (call (worldAfter call calls world)).takes = 0)
    (answers : ∀ calls, (call (worldAfter call calls world)).answer = outcomes calls) :
    let run := policy.run call now world
    let calls := run.attempts.length
    ∃ k : ℕ∞, FirstSuccess outcomes k ∧ (calls : ℕ∞) = min (k + 1) policy.maxAttempts ∧
      (∀ index : Nat, k = index → index < policy.maxAttempts →
        ∃ value, outcomes index = .ok value ∧ run.result = .succeeded value) ∧
      (policy.maxAttempts ≤ k → ∃ fault, run.result = .exhausted fault ∧
        (policy.maxAttempts = 0 → fault = "") ∧
        (∀ last, policy.maxAttempts = last + 1 → outcomes last = .error fault) ∧
        ∀ (settings : ReporterSettings) (operation : String), settings.retry = policy →
          Reporter.settle settings operation run.result =
            .error (.retriesExhausted operation policy.maxAttempts fault)) ∧
      run.attempts.map Attempt.start =
        (List.range calls).map (fun index => now + ∑ earlier ∈ Finset.range index,
          policy.pause earlier) ∧
      run.finish = now + ∑ earlier ∈ Finset.range (calls - 1), policy.pause earlier ∧
      (calls - 1 ≤ 32 →
        run.finish = now + policy.initialDelay.millis * (2 ^ (calls - 1) - 1)) := by
  intro run calls
  obtain ⟨paced, comes⟩ := run_from_timed whole call 0 policy.maxAttempts "" now world
    (fun earlier before => lasting earlier (by omega)) instant
  change Paced policy 0 now run at paced
  change Comes call policy.maxAttempts "" world calls run.result at comes
  have total (count : Nat) :
      ∑ earlier ∈ Finset.range count, policy.pause earlier = policy.pauses 0 count := by
    simp [pauses]
  simp only [total]
  obtain ⟨k, first, called, succeeds, exhausts⟩ := comes_of_script answers comes
  refine ⟨k, first, called, succeeds, fun none => ?_, paced.starts, paced.finish, fun few => ?_⟩
  · obtain ⟨fault, result, blank, last⟩ := exhausts none
    refine ⟨fault, result, blank, last, fun settings operation own => ?_⟩
    rw [result, Reporter.settle, own]
  · rw [← pauses_doubling policy _ few]
    exact paced.finish

-- Calls that follow a script; the world counts them.
def scriptedCall (outcomes : Nat → Except String α) (made : Nat) : Reply Nat α :=
  ⟨0, outcomes made, made + 1⟩

theorem world_scripted (outcomes : Nat → Except String α) (calls made : Nat) :
    worldAfter (scriptedCall outcomes) calls made = made + calls := by
  induction calls generalizing made with
  | zero => rfl
  | succ calls ih => exact (ih (made + 1)).trans (by omega)

def refusing (_ : Nat) : Except String Nat := .error "refused"

def recovering (call : Nat) : Except String Nat := if call < 2 then .error "refused" else .ok call

theorem recovering_scripted :
    (default.run (scriptedCall recovering) 5 0).result = .succeeded 2 ∧
      (default.run (scriptedCall recovering) 5 0).attempts.map Attempt.start = [5, 105, 305] ∧
      (default.run (scriptedCall recovering) 5 0).finish = 305 ∧
      ((RetryPolicy.mk (.ofMillis 100) 3).run (scriptedCall refusing) 5 0).result =
        .exhausted "refused" := by
  obtain ⟨k, first, called, succeeds, _, starts, finish, _⟩ :=
    run_scripted default (scriptedCall recovering) recovering 5 0 (by decide) (by decide)
      (fun _ => rfl) fun calls => by rw [world_scripted, Nat.zero_add, scriptedCall]
  have second : k = (2 : Nat) := by
    cases first with
    | found k value ok before =>
      have late : ¬ k < 2 := fun early => by simp [recovering, early] at ok
      have early : ¬ 2 < k := fun late => by simpa [recovering] using before 2 late
      exact congrArg Nat.cast (by omega)
    | never fails => simpa [recovering] using fails 2
  obtain ⟨value, ok, result⟩ := succeeds 2 second (by decide)
  cases ok
  have three : (default.run (scriptedCall recovering) 5 0).attempts.length = 3 := by
    have few : ((2 : Nat) + 1 : ℕ∞) ≤ default.maxAttempts :=
      Nat.cast_le.mpr (show 2 + 1 ≤ default.maxAttempts by decide)
    rw [second, min_eq_left few] at called
    exact Nat.cast_injective called
  rw [three] at starts finish
  refine ⟨result, starts, finish, ?_⟩
  obtain ⟨k, first, _, _, exhausts, _⟩ :=
    run_scripted ⟨.ofMillis 100, 3⟩ (scriptedCall refusing) refusing 5 0 (by decide) (by decide)
      (fun _ => rfl) fun _ => rfl
  have never : k = ⊤ := by
    cases first with
    | found k value ok => cases ok
    | never => rfl
  obtain ⟨fault, result, _, last, _⟩ := exhausts (by rw [never]; exact le_top)
  cases last 2 rfl
  exact result

end RetryPolicy
end StartupLatency
