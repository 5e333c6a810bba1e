import Mathlib.Logic.Function.Basic
import StartupLatency.Proofs.TimedRuns

/-!
Stores that make the passes of every key come to the verdicts of a script, key by key. Whatever
order the actions of a run are taken in, a pass finds the verdict of its own key, since no other pass
of that key is in progress with it.
-/

namespace StartupLatency

namespace Verdict

def podAnswer : Verdict → Except StoreError Pod
  | .done => .error (.notFound "")
  | .requeue => .ok default
  | .error => .error (.backend "")

-- Stores by a script for each key; passes beyond its end come through.
def scripted : StoreAccess (ObjectName → List Verdict) where
  getPod key scripts :=
    (((scripts key).head?.getD .done).podAnswer, Function.update scripts key (scripts key).tail)
  getRecord _ scripts := (.error (.notFound ""), scripts)
  createRecord _ scripts := (.error (.alreadyExists ""), scripts)
  updateRecord _ scripts := (.error (.conflict ""), scripts)

/-- The verdicts, the one to come and those that are left make up the script, whose end is the
verdict of a pass that came through. -/
def Owes (script verdicts left : List Verdict) (verdict : Verdict) : Prop :=
  verdicts ++ verdict :: left = script ∨ verdict = .done ∧ left = [] ∧ verdicts = script

theorem owes_next (script verdicts left : List Verdict) (parts : verdicts ++ left = script) :
    Owes script verdicts left.tail (left.head?.getD .done) := by
  cases left with
  | nil => exact Or.inr ⟨rfl, rfl, by simpa using parts⟩
  | cons verdict rest => exact Or.inl parts

theorem owes_told {script verdicts left : List Verdict} {verdict : Verdict}
    (owes : Owes script verdicts left verdict) : verdicts ++ [verdict] <+: script ++ [.done] := by
  rcases owes with rfl | ⟨rfl, _, rfl⟩
  · exact ⟨left ++ [.done], by simp⟩
  · exact List.prefix_refl _

end Verdict

open Verdict

namespace Pass

def Awaits (script verdicts left : List Verdict) : Pass → Prop
  | .readingPod => verdicts ++ left = script
  | .ended outcome => Owes script verdicts left outcome.verdict
  | .updating _ => False
  | _ => Owes script verdicts left .requeue

theorem step_awaits (policy : Policy) (key : ObjectName) (pass : Pass)
    (world : ObjectName → List Verdict) {script verdicts : List Verdict}
    (awaits : pass.Awaits script verdicts (world key)) :
    (pass.step scripted policy key world).1.Awaits script verdicts
        ((pass.step scripted policy key world).2 key) ∧
      ∀ other, other ≠ key → (pass.step scripted policy key world).2 other = world other := by
  cases pass with
  | readingPod =>
    have owes := owes_next script verdicts (world key) awaits
    constructor
    · simp only [step, scripted, Function.update_self]
      cases verdict : (world key).head?.getD .done <;> rw [verdict] at owes <;> exact owes
    · intro other different
      exact Function.update_of_ne different _ _
  | readingRecord pod => exact ⟨awaits, fun _ _ => rfl⟩
  | creating record => exact ⟨awaits, fun _ _ => rfl⟩
  | updating record => exact absurd awaits id
  | ended outcome => exact ⟨awaits, fun _ _ => rfl⟩

end Pass

structure Scripted (script : ObjectName → List Verdict) (running : List RunningPass)
    (world : ObjectName → List Verdict) (log : List (ObjectName × PassOutcome)) : Prop where
  told : ∀ key, verdictsOf key log <+: script key ++ [.done]
  apart : ∀ key, (∀ pass ∈ running, pass.key ≠ key) → .done ∉ verdictsOf key log →
    verdictsOf key log ++ world key = script key
  passes : ∀ pass ∈ running,
    pass.pass.Awaits (script pass.key) (verdictsOf pass.key log) (world pass.key)

namespace Scripted

variable {script world : ObjectName → List Verdict} {running : List RunningPass}
  {log : List (ObjectName × PassOutcome)}

theorem begun (scripted : Scripted script running world log) (order : Nat) (key : ObjectName)
    (since wakes : Nat) (alone : ∀ pass ∈ running, pass.key ≠ key)
    (undone : .done ∉ verdictsOf key log) :
    Scripted script (running ++ [⟨order, key, .readingPod, since, wakes⟩]) world log := by
  constructor
  · exact scripted.told
  · intro other absent
    exact scripted.apart other fun pass member => absent pass (List.mem_append_left _ member)
  · intro pass member
    rcases List.mem_append.mp member with old | new
    · exact scripted.passes pass old
    · rw [List.mem_singleton.mp new]
      exact scripted.apart key alone undone

theorem advanced (scripted : Scripted script running world log) (policy : Policy)
    {run : RunningPass} (member : run ∈ running) (keys : (running.map RunningPass.key).Nodup)
    (orders : (running.map RunningPass.order).Nodup) :
    Scripted script
      (running.map fun other =>
        if other.order = run.order then
          { other with pass := (run.pass.step Verdict.scripted policy run.key world).1 }
        else other)
      (run.pass.step Verdict.scripted policy run.key world).2 log := by
  obtain ⟨awaits, others⟩ := run.pass.step_awaits policy run.key world (scripted.passes run member)
  constructor
  · exact scripted.told
  · intro key absent undone
    have absent' (pass : RunningPass) (present : pass ∈ running) : pass.key ≠ key := by
      have kept := absent _ (List.mem_map_of_mem present)
      split at kept <;> exact kept
    rw [others key (absent' run member).symm]
    exact scripted.apart key absent' undone
  · intro pass moved
    obtain ⟨former, present, rfl⟩ := List.mem_map.mp moved
    split
    · rename_i same
      cases List.inj_on_of_nodup_map orders present member same
      exact awaits
    · rename_i differs
      have apart : former.key ≠ run.key := by
        intro same
        exact differs (congrArg _ (List.inj_on_of_nodup_map keys present member same))
      rw [others former.key apart]
      exact scripted.passes former present

theorem settled (scripted : Scripted script running world log) {run : RunningPass}
    {outcome : PassOutcome} (member : run ∈ running) (ended : run.pass = .ended outcome)
    (keys : (running.map RunningPass.key).Nodup) (orders : (running.map RunningPass.order).Nodup) :
    Scripted script (running.filter fun other => other.order ≠ run.order) world
      (log ++ [(run.key, outcome)]) := by
  have owes : Verdict.Owes (script run.key) (verdictsOf run.key log) (world run.key)
      outcome.verdict := by
    have awaits := scripted.passes run member
    rwa [ended] at awaits
  have one (key : ObjectName) : verdictsOf key (log ++ [(run.key, outcome)]) =
      verdictsOf key log ++ if run.key = key then [outcome.verdict] else [] := by
    rw [verdicts_append]
    exact congrArg _ (verdicts_of_one run.key key [outcome])
  have itself : verdictsOf run.key (log ++ [(run.key, outcome)]) =
      verdictsOf run.key log ++ [outcome.verdict] := by rw [one, if_pos rfl]
  have others (key : ObjectName) (different : key ≠ run.key) :
      verdictsOf key (log ++ [(run.key, outcome)]) = verdictsOf key log := by
    rw [one, if_neg different.symm, List.append_nil]
  constructor
  · intro key
    by_cases same : key = run.key
    · rw [same, itself]
      exact Verdict.owes_told owes
    · rw [others key same]
      exact scripted.told key
  · intro key absent undone
    by_cases same : key = run.key
    · rw [same, itself] at undone ⊢
      rcases owes with parts | ⟨done, _⟩
      · rw [List.append_assoc]
        exact parts
      · exact absurd (by simp [done]) undone
    · rw [others key same] at undone ⊢
      refine scripted.apart key (fun pass present taken => ?_) undone
      by_cases twin : pass.order = run.order
      · cases List.inj_on_of_nodup_map orders present member twin
        exact same taken.symm
      · exact absent pass (List.mem_filter.mpr ⟨present, decide_eq_true twin⟩) taken
  · intro pass present
    obtain ⟨present, differs⟩ := List.mem_filter.mp present
    have apart : pass.key ≠ run.key := by
      intro same
      exact of_decide_eq_true differs
        (congrArg _ (List.inj_on_of_nodup_map keys present member same))
    rw [others pass.key apart]
    exact scripted.passes pass present

end Scripted

namespace Controller

variable {c : Controller}

theorem keys_apart (tidy : c.Tidy) :
    (c.running.map RunningPass.key).Nodup ∧
      ∀ key, c.held = some key → key ∉ c.running.map RunningPass.key := by
  have distinct := tidy.distinct
  have keys : c.hands.board.map Prod.fst = c.inbox.map (fun event => event.pod.key) ++
      c.queue.waiting ++ c.held.toList ++ c.running.map RunningPass.key ++
      c.retries.map ScheduledRetry.key := by
    simp [Hands.board, hands, Function.comp_def]
  rw [keys] at distinct
  have ahead := (List.nodup_append.mp distinct).1
  obtain ⟨_, running, apart⟩ := List.nodup_append.mp ahead
  refine ⟨running, fun key held runs => apart key ?_ key runs rfl⟩
  rw [held]
  exact List.mem_append_right _ List.mem_cons_self

theorem unsettled_outcomes (c after : Controller) (action : ControllerAction)
    (unsettled : ¬ ∃ order, action = .settle order) :
    DispatchEvent.outcomes (c.dispatched action after) = [] := by
  cases action with
  | settle order => exact absurd ⟨order, rfl⟩ unsettled
  | receive => cases held : after.held <;> simp [dispatched, held, DispatchEvent.outcomes]
  | start => cases held : c.held <;> simp [dispatched, held, DispatchEvent.outcomes]
  | _ => rfl

end Controller

namespace TimedRun

variable {run : TimedRun (ObjectName → List Verdict)} {script : ObjectName → List Verdict}
  {first : Controller} {keys : List ObjectName}

theorem act_scripted (onTime : run.OnTime first keys)
    (scripted : Scripted script run.controller.running run.world run.log)
    {action : ControllerAction} {controller : Controller} {world : ObjectName → List Verdict}
    (performed : run.controller.perform Verdict.scripted 0 action run.world =
      some (controller, world)) :
    Scripted script controller.running world
      (run.log ++ DispatchEvent.outcomes (run.controller.dispatched action controller)) := by
  obtain ⟨keys, alone⟩ := Controller.keys_apart onTime.tidy
  have orders := onTime.tidy.passes.distinct
  have quiet := Controller.unsettled_outcomes run.controller controller action
  cases Controller.perform_acts action performed with
  | started key goesOn held room =>
    have waits : (key, .held) ∈ run.controller.hands.board := by
      simp [Hands.board, Controller.hands, held]
    rw [quiet (by simp), List.append_nil]
    refine scripted.begun _ key _ _ (fun pass member same => alone key held ?_)
      (onTime.atHand key _ waits).2.1
    exact same ▸ List.mem_map_of_mem member
  | advanced pass found unfinished =>
    rw [quiet (by simp), List.append_nil]
    exact scripted.advanced _ (List.mem_of_find?_eq_some found) keys orders
  | settled pass outcome found ended =>
    obtain ⟨_, _, _, _, _, same, _⟩ := Controller.handle_cases
      ((run.controller.dropRun pass.order).observeDuration (run.controller.now - pass.started))
      pass.key outcome
    rw [Controller.dispatched_settle _ _ pass outcome found ended, same]
    exact scripted.settled (List.mem_of_find?_eq_some found) ended keys orders
  | refused | admitted | received | retried =>
    rw [quiet (by simp), List.append_nil]
    exact scripted

theorem reaches_scripted {start : TimedRun (ObjectName → List Verdict)} {count : Nat}
    (blank : first.failures = ∅) (onTime : start.OnTime first keys)
    (scripted : Scripted script start.controller.running start.world start.log)
    (reached : Reaches Verdict.scripted start count run) :
    Scripted script run.controller.running run.world run.log := by
  induction reached with
  | start => exact scripted
  | act reached action comes performed ih =>
    exact act_scripted (reaches_on_time blank onTime reached) ih performed
  | wait reached idle time later passes retries ih => exact ih

end TimedRun

end StartupLatency
