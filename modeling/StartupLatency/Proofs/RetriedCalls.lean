import StartupLatency.Retry

/-!
Retried calls. The loop calls until one call succeeds or all attempts are spent, so what becomes of
it is decided by how many calls would fail in a row. Where the failures are scripted, that is a
question to the script.
-/

namespace StartupLatency

namespace RetryPolicy

variable {σ α ε : Type}

def Lasting (policy : RetryPolicy) : Prop :=
  ∀ attempt < policy.maxAttempts - 1, (policy.delayAfter? attempt).isSome = true

instance (policy : RetryPolicy) : Decidable policy.Lasting :=
  inferInstanceAs (Decidable (∀ attempt < policy.maxAttempts - 1, _))

def worldAfter (call : σ → Reply σ α) : Nat → σ → σ
  | 0, world => world
  | calls + 1, world => worldAfter call calls (call world).world

def Fails (call : σ → Reply σ α) (world : σ) : Prop := ∃ fault, (call world).answer = .error fault

def Stumbles (call : σ → Reply σ α) : Nat → σ → Prop
  | 0, _ => True
  | calls + 1, world => Fails call world ∧ Stumbles call calls (call world).world

def passed (attempts : List Attempt) : List Attempt :=
  attempts.filter fun attempt => attempt.fault.isNone

/-- The ends of a loop of at most that many calls: the first success ends it, and without one every
attempt is made. -/
inductive Ends (call : σ → Reply σ α) (calls : Nat) (world : σ) (run : Retried σ α) : Prop where
  | succeeds (failed : Nat) (fewer : failed < calls) (value : α)
      (stumbles : Stumbles call failed world)
      (ok : (call (worldAfter call failed world)).answer = .ok value)
      (result : run.result = .succeeded value)
      (after : run.world = (call (worldAfter call failed world)).world)
      (one : (passed run.attempts).length = 1)
  | exhausts (fault : String) (stumbles : Stumbles call calls world)
      (result : run.result = .exhausted fault) (after : run.world = worldAfter call calls world)
      (none : passed run.attempts = [])

theorem run_from_ends (policy : RetryPolicy) (call : σ → Reply σ α) (attempt left : Nat)
    (lastFault : String) (now : Nat) (world : σ)
    (lasting : ∀ earlier < attempt + left - 1, (policy.delayAfter? earlier).isSome = true) :
    Ends call left world (policy.runFrom call attempt left lastFault now world) := by
  induction left generalizing attempt lastFault now world with
  | zero => exact .exhausts lastFault trivial rfl rfl rfl
  | succ left ih =>
    cases answer : (call world).answer with
    | ok value =>
      rw [runFrom, answer]
      exact .succeeds 0 (Nat.succ_pos left) value trivial answer rfl rfl rfl
    | error fault =>
      have fails : Fails call world := ⟨fault, answer⟩
      by_cases last : left = 0
      · subst last
        rw [runFrom, answer]
        exact .exhausts fault ⟨fails, trivial⟩ rfl rfl rfl
      · have within : attempt < attempt + (left + 1) - 1 := by omega
        obtain ⟨delay, some⟩ := Option.isSome_iff_exists.mp (lasting attempt within)
        have later : ∀ earlier < attempt + 1 + left - 1,
            (policy.delayAfter? earlier).isSome = true := by
          intro earlier before
          exact lasting earlier (by omega)
        have rest := ih (attempt + 1) fault (now + (call world).takes + delay.ticks)
          (call world).world later
        simp only [runFrom, answer, last, ↓reduceIte, some]
        cases rest with
        | succeeds failed fewer value stumbles ok result after one =>
          exact .succeeds (failed + 1) (Nat.succ_lt_succ fewer) value ⟨fails, stumbles⟩ ok result
            after one
        | exhausts latest stumbles result after none =>
          exact .exhausts latest ⟨fails, stumbles⟩ result after none

theorem run_ends (policy : RetryPolicy) (call : σ → Reply σ α) (now : Nat) (world : σ)
    (lasting : policy.Lasting) :
    Ends call policy.maxAttempts world (policy.run call now world) := by
  apply run_from_ends
  intro earlier before
  exact lasting earlier (by simpa using before)

/-- What a failing call keeps is kept by any number of them. -/
theorem stumbles_keeps {call : σ → Reply σ α} (holds : σ → Prop)
    (kept : ∀ world, holds world → Fails call world → holds (call world).world)
    (calls : Nat) (world : σ) (stumbles : Stumbles call calls world) (before : holds world) :
    holds (worldAfter call calls world) := by
  induction calls generalizing world with
  | zero => exact before
  | succ calls ih =>
    obtain ⟨fails, later⟩ := stumbles
    exact ih _ later (kept world before fails)

/-! Failures by a script, an entry for each coming call. -/

-- Within that many calls the script lets one go through, as it does once it has come to its end.
def LetsThrough (script : List (Option ε)) (calls : Nat) : Prop :=
  ∃ index < calls, script[index]?.join = none

/-- In fitting worlds, a call fails exactly when the next entry of the script is a fault. -/
structure Scripted (call : σ → Reply σ α) (script : σ → List (Option ε)) (fits : σ → Prop) :
    Prop where
  fails_iff : ∀ world, fits world → (Fails call world ↔ (script world).head?.join ≠ none)
  advances : ∀ world, script (call world).world = (script world).tail
  kept : ∀ world, fits world → Fails call world → fits (call world).world

theorem lets_through_succ (script : List (Option ε)) (calls : Nat) :
    LetsThrough script (calls + 1) ↔ script.head?.join = none ∨ LetsThrough script.tail calls := by
  constructor
  · rintro ⟨index, before, through⟩
    cases index with
    | zero => exact Or.inl (by rwa [List.head?_eq_getElem?])
    | succ index =>
      refine Or.inr ⟨index, Nat.lt_of_succ_lt_succ before, ?_⟩
      rwa [List.getElem?_tail]
  · rintro (first | ⟨index, before, through⟩)
    · exact ⟨0, Nat.succ_pos calls, by rwa [← List.head?_eq_getElem?]⟩
    · exact ⟨index + 1, Nat.succ_lt_succ before, by rwa [← List.getElem?_tail]⟩

theorem stumbles_iff {call : σ → Reply σ α} {script : σ → List (Option ε)} {fits : σ → Prop}
    (scripted : Scripted call script fits) (calls : Nat) (world : σ) (fit : fits world) :
    Stumbles call calls world ↔ ¬ LetsThrough (script world) calls := by
  induction calls generalizing world with
  | zero =>
    constructor
    · rintro _ ⟨index, before, _⟩
      exact Nat.not_lt_zero index before
    · intro _
      trivial
  | succ calls ih =>
    rw [lets_through_succ, not_or, ← ne_eq, ← scripted.fails_iff world fit, Stumbles]
    refine and_congr_right fun fails => ?_
    rw [ih _ (scripted.kept world fit fails), scripted.advances world]

/-- A loop that succeeds somewhere is let through, one that spends all its attempts is not. -/
theorem not_stumbles_of_success {call : σ → Reply σ α} {failed calls : Nat} {value : α} {world : σ}
    (fewer : failed < calls) (ok : (call (worldAfter call failed world)).answer = .ok value) :
    ¬ Stumbles call calls world := by
  induction calls generalizing failed world with
  | zero => omega
  | succ calls ih =>
    rintro ⟨⟨fault, fails⟩, later⟩
    cases failed with
    | zero =>
      rw [worldAfter, fails] at ok
      cases ok
    | succ failed => exact ih (Nat.lt_of_succ_lt_succ fewer) ok later

theorem run_succeeds_iff {call : σ → Reply σ α} {script : σ → List (Option ε)} {fits : σ → Prop}
    (scripted : Scripted call script fits) (policy : RetryPolicy) (now : Nat) (world : σ)
    (lasting : policy.Lasting) (fit : fits world) :
    (∃ value, (policy.run call now world).result = .succeeded value) ↔
      LetsThrough (script world) policy.maxAttempts := by
  have through := not_congr (stumbles_iff scripted policy.maxAttempts world fit)
  rw [Classical.not_not] at through
  rw [← through]
  cases run_ends policy call now world lasting with
  | succeeds failed fewer value _ ok result =>
    exact iff_of_true ⟨value, result⟩ (not_stumbles_of_success fewer ok)
  | exhausts fault stumbles result =>
    apply iff_of_false
    · rintro ⟨value, succeeded⟩
      cases result.symm.trans succeeded
    · exact fun unstumbled => unstumbled stumbles

/-- What every call keeps is kept by a run, however it ends. -/
theorem run_from_keeps {call : σ → Reply σ α} (holds : σ → Prop)
    (kept : ∀ world, holds world → holds (call world).world) (policy : RetryPolicy)
    (attempt left : Nat) (lastFault : String) (now : Nat) (world : σ) (before : holds world) :
    holds (policy.runFrom call attempt left lastFault now world).world := by
  induction left generalizing attempt lastFault now world with
  | zero => exact before
  | succ left ih =>
    have after := kept world before
    rw [runFrom]
    split
    · exact after
    · split
      · exact after
      · split
        · exact after
        · exact ih _ _ _ _ after

theorem run_keeps {call : σ → Reply σ α} (holds : σ → Prop)
    (kept : ∀ world, holds world → holds (call world).world) (policy : RetryPolicy) (now : Nat)
    (world : σ) (before : holds world) : holds (policy.run call now world).world :=
  run_from_keeps holds kept policy 0 policy.maxAttempts "" now world before

end RetryPolicy
end StartupLatency
