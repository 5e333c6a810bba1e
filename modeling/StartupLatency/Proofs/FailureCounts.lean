import Mathlib.Data.List.DropRight
import StartupLatency.Proofs.DispatchRuns

/-!
Failures in a row over whole runs, and what is reported of the reconciler. Passes may overlap, those
of one key too; what counts is the order in which their outcomes are handled. Between two outcomes
the controller may do anything that leaves the counts and the reconciler's report alone.

Failures in a row are counted in a word of 32 bits, which begins anew behind its greatest number.
Whether a key is counted at all, and with it the reconciler's health, does not depend on that.
-/

namespace StartupLatency

def PassOutcome.isFailed : PassOutcome → Bool
  | .failed _ => true
  | _ => false

def outcomesOf (key : ObjectName) (log : List (ObjectName × PassOutcome)) : List PassOutcome :=
  log.filterMap fun entry => if entry.1 = key then some entry.2 else none

/-- How often the key has failed since it last came through. -/
def failuresInRow (key : ObjectName) (log : List (ObjectName × PassOutcome)) : Nat :=
  ((outcomesOf key log).rtakeWhile PassOutcome.isFailed).length

section Counting

variable (key : ObjectName) (log : List (ObjectName × PassOutcome))

theorem outcomes_itself (outcome : PassOutcome) :
    outcomesOf key (log ++ [(key, outcome)]) = outcomesOf key log ++ [outcome] := by
  simp [outcomesOf]

theorem outcomes_other (other : ObjectName) (outcome : PassOutcome) (different : other ≠ key) :
    outcomesOf key (log ++ [(other, outcome)]) = outcomesOf key log := by
  simp [outcomesOf, different]

theorem in_row_failed (error : StoreError) :
    failuresInRow key (log ++ [(key, .failed error)]) = failuresInRow key log + 1 := by
  rw [failuresInRow, outcomes_itself, List.rtakeWhile_concat_pos _ _ _ rfl, List.length_append]
  rfl

theorem in_row_through (outcome : PassOutcome) (through : outcome.isFailed = false) :
    failuresInRow key (log ++ [(key, outcome)]) = 0 := by
  rw [failuresInRow, outcomes_itself, List.rtakeWhile_concat_neg _ _ _ (by simp [through])]
  rfl

theorem in_row_other (other : ObjectName) (outcome : PassOutcome) (different : other ≠ key) :
    failuresInRow key (log ++ [(other, outcome)]) = failuresInRow key log := by
  rw [failuresInRow, outcomes_other key log other outcome different, failuresInRow]

theorem in_row_pos :
    0 < failuresInRow key log ↔
      ∃ error, (outcomesOf key log).getLast? = some (.failed error) := by
  rw [failuresInRow]
  induction outcomesOf key log using List.reverseRecOn with
  | nil => simp
  | append_singleton earlier outcome =>
    cases outcome with
    | failed error => simp [List.rtakeWhile_concat, PassOutcome.isFailed]
    | _ => simp [PassOutcome.isFailed]

theorem in_row_unfailing (unfailing : ∀ entry ∈ log, entry.2.isFailed = false) :
    failuresInRow key log = 0 := by
  refine Nat.eq_zero_of_not_pos fun some => ?_
  obtain ⟨error, latest⟩ := (in_row_pos key log).mp some
  obtain ⟨entry, member, shown⟩ := List.mem_filterMap.mp (List.mem_of_getLast? latest)
  have through := unfailing entry member
  split at shown
  · cases entry
    cases shown
    cases through
  · cases shown

end Counting

/-- The map has the keys that have failures in a row, with the words for their numbers. -/
def Counts (failures : SortedMap ObjectName Nat) (log : List (ObjectName × PassOutcome)) : Prop :=
  ∀ key, failures.find? key =
    if failuresInRow key log = 0 then none else some (failuresInRow key log % Word.limit32)

section Counts

variable {failures : SortedMap ObjectName Nat} {log : List (ObjectName × PassOutcome)}

theorem counts_some_iff (counts : Counts failures log) (key : ObjectName) (count : Nat) :
    failures.find? key = some count ↔
      0 < failuresInRow key log ∧ count = failuresInRow key log % Word.limit32 := by
  rw [counts key]
  split
  · rename_i none
    simp [none]
  · rename_i some
    constructor
    · intro same
      cases same
      exact ⟨Nat.pos_of_ne_zero some, rfl⟩
    · rintro ⟨_, rfl⟩
      rfl

theorem counts_none_iff (counts : Counts failures log) (key : ObjectName) :
    failures.find? key = none ↔ failuresInRow key log = 0 := by
  rw [counts key]
  split
  · rename_i none
    simp [none]
  · rename_i some
    simp [some]

theorem counts_blank (counts : Counts failures log) :
    failures.isEmpty = true ↔ ∀ key, failuresInRow key log = 0 := by
  rw [SortedMap.isEmpty_iff]
  exact forall_congr' (counts_none_iff counts)

theorem counts_failed (counts : Counts failures log) (key : ObjectName) (error : StoreError) :
    Counts (failures.insert key ((failuresInRow key log + 1) % Word.limit32))
      (log ++ [(key, .failed error)]) := by
  intro wanted
  rw [SortedMap.find?_insert]
  split
  · rename_i same
    rw [same, in_row_failed, if_neg (Nat.succ_ne_zero _)]
  · rename_i different
    rw [in_row_other wanted log key _ (Ne.symm different)]
    exact counts wanted

theorem counts_through (counts : Counts failures log) (key : ObjectName) (outcome : PassOutcome)
    (through : outcome.isFailed = false) :
    Counts (failures.erase key) (log ++ [(key, outcome)]) := by
  intro wanted
  rw [SortedMap.find?_erase]
  split
  · rename_i same
    rw [same, in_row_through key log outcome through, if_pos rfl]
  · rename_i different
    rw [in_row_other wanted log key _ (Ne.symm different)]
    exact counts wanted

end Counts

namespace Controller

def reconcilerHealth (c : Controller) : Option ComponentHealth :=
  c.health.components.find? HealthRegistry.reconciler

structure Ledger where
  failures : SortedMap ObjectName Nat
  backoff : Backoff
  health : Option ComponentHealth

def ledger (c : Controller) : Ledger := ⟨c.failures, c.settings.backoff, c.reconcilerHealth⟩

/-- The second controller is the first one after the outcomes in the log, in their order. -/
inductive Handles (first : Controller) : List (ObjectName × PassOutcome) → Controller → Prop where
  | start : Handles first [] first
  | meanwhile {log : List (ObjectName × PassOutcome)} {c after : Controller}
      (handles : Handles first log c) (same : after.ledger = c.ledger) : Handles first log after
  | handled {log : List (ObjectName × PassOutcome)} {c : Controller} (handles : Handles first log c)
      (key : ObjectName) (outcome : PassOutcome) :
      Handles first (log ++ [(key, outcome)]) (c.handle key outcome)

theorem handles_trans {first c after : Controller} {log more : List (ObjectName × PassOutcome)}
    (handles : first.Handles log c) (further : c.Handles more after) :
    first.Handles (log ++ more) after := by
  induction further with
  | start => simpa using handles
  | meanwhile further same ih => exact ih.meanwhile same
  | handled further key outcome ih =>
    rw [← List.append_assoc]
    exact ih.handled key outcome

structure Follows (first : Ledger) (log : List (ObjectName × PassOutcome)) (ledger : Ledger) :
    Prop where
  backoff : ledger.backoff = first.backoff
  counts : Counts ledger.failures log
  failing : ∀ key, 0 < failuresInRow key log → ∃ message, ledger.health = some (.degraded message)
  recovered : (∀ key, failuresInRow key log = 0) → (∃ entry ∈ log, entry.2.isFailed = true) →
    ledger.health = some .healthy
  unfailing : (∀ entry ∈ log, entry.2.isFailed = false) → ledger.health = first.health

section Steps

variable {first : Ledger} {c : Controller} {log : List (ObjectName × PassOutcome)}

theorem failures_after (counts : Counts c.failures log) (key : ObjectName) :
    c.failuresAfter key = (failuresInRow key log + 1) % Word.limit32 := by
  rw [failuresAfter, counts key]
  split
  · rename_i none
    rw [none]
    rfl
  · rw [Option.getD_some, Nat.mod_add_mod]

theorem failed_ledger (key : ObjectName) (error : StoreError) :
    (c.handle key (.failed error)).ledger =
      ⟨c.failures.insert key (c.failuresAfter key), c.settings.backoff,
        some (.degraded (Pass.failureText key error))⟩ := by
  simp [handle, fail, scheduleRetry, countOutcome, failuresAfter, ledger, reconcilerHealth,
    HealthRegistry.report]

theorem recover_ledger (key : ObjectName) :
    (c.recover key).ledger =
      ⟨c.failures.erase key, c.settings.backoff,
        if c.failures.contains key && (c.failures.erase key).isEmpty then some .healthy
        else c.reconcilerHealth⟩ := by
  simp only [recover, ledger, reconcilerHealth]
  split <;> simp [HealthRegistry.report]

theorem failed_follows (follows : Follows first log c.ledger) (key : ObjectName)
    (error : StoreError) :
    Follows first (log ++ [(key, .failed error)]) (c.handle key (.failed error)).ledger := by
  have counts : Counts c.failures log := follows.counts
  rw [failed_ledger, failures_after counts key]
  constructor
  · exact follows.backoff
  · exact counts_failed counts key error
  · intro wanted failing
    exact ⟨_, rfl⟩
  · intro recovered
    cases (in_row_failed key log error).symm.trans (recovered key)
  · intro unfailing
    cases unfailing _ (List.mem_append_right _ List.mem_cons_self)

theorem through_follows (follows : Follows first log c.ledger) (key : ObjectName)
    (outcome : PassOutcome) (through : outcome.isFailed = false) :
    Follows first (log ++ [(key, outcome)]) (c.recover key).ledger := by
  obtain ⟨backoff, counts, failing, recovered, unfailing⟩ := follows
  replace counts : Counts c.failures log := counts
  have after := counts_through counts key outcome through
  have others (wanted : ObjectName) (different : wanted ≠ key) :=
    in_row_other wanted log key outcome (Ne.symm different)
  rw [recover_ledger]
  constructor
  · exact backoff
  · exact after
  · intro wanted some
    -- Another key has failures still, so the report is left alone.
    have different : wanted ≠ key := by
      rintro rfl
      rw [in_row_through wanted log outcome through] at some
      exact Nat.lt_irrefl 0 some
    have left : (c.failures.erase key).isEmpty = false := by
      refine Bool.eq_false_iff.mpr fun blank => ?_
      rw [(counts_blank after).mp blank wanted] at some
      exact Nat.lt_irrefl 0 some
    rw [others wanted different] at some
    dsimp only
    rw [left, Bool.and_false]
    exact failing wanted some
  · rintro none ⟨entry, member, failed⟩
    have blank : (c.failures.erase key).isEmpty = true := (counts_blank after).mpr none
    dsimp only
    rw [blank, Bool.and_true]
    split
    · rfl
    · -- The key had no failures in a row: it was healthy before.
      rename_i absent
      have unfailed : failuresInRow key log = 0 :=
        (counts_none_iff counts key).mp (by simpa [SortedMap.contains] using absent)
      have before (wanted : ObjectName) : failuresInRow wanted log = 0 := by
        by_cases same : wanted = key
        · rw [same, unfailed]
        · rw [← others wanted same, none]
      refine recovered before ⟨entry, ?_, failed⟩
      rcases List.mem_append.mp member with earlier | now
      · exact earlier
      · cases List.mem_singleton.mp now
        cases through.symm.trans failed
  · intro never
    have before : ∀ entry ∈ log, entry.2.isFailed = false := by
      intro entry member
      exact never entry (List.mem_append_left _ member)
    have absent : c.failures.contains key = false := by
      rw [SortedMap.contains, (counts_none_iff counts key).mpr (in_row_unfailing key log before)]
      rfl
    dsimp only
    rw [absent, Bool.false_and]
    exact unfailing before

theorem handle_follows (follows : Follows first log c.ledger) (key : ObjectName)
    (outcome : PassOutcome) :
    Follows first (log ++ [(key, outcome)]) (c.handle key outcome).ledger := by
  cases outcome with
  | done work => exact through_follows follows key (.done work) rfl
  | requeue => exact through_follows follows key .requeue rfl
  | failed error => exact failed_follows follows key error

end Steps

theorem start_follows (first : Controller) (blank : first.failures = ∅) :
    Follows first.ledger [] first.ledger := by
  constructor
  · rfl
  · intro key
    simp only [ledger, blank]
    rfl
  · intro key some
    cases some
  · rintro _ ⟨entry, member, _⟩
    cases member
  · intro _
    rfl

theorem handles_follows (first c : Controller) (log : List (ObjectName × PassOutcome))
    (blank : first.failures = ∅) (handles : first.Handles log c) :
    Follows first.ledger log c.ledger := by
  induction handles with
  | start => exact start_follows first blank
  | meanwhile handles same follows => exact same ▸ follows
  | handled handles key outcome follows => exact handle_follows follows key outcome

end Controller

namespace DispatchEvent

def outcomes (log : List DispatchEvent) : List (ObjectName × PassOutcome) :=
  log.filterMap fun
    | .settled _ key outcome => some (key, outcome)
    | _ => none

@[simp] theorem outcomes_append (log more : List DispatchEvent) :
    outcomes (log ++ more) = outcomes log ++ outcomes more := List.filterMap_append

end DispatchEvent

open DispatchEvent

/-- An action leaves the ledger alone, or handles the outcome that it shows. -/
theorem Controller.perform_handles {σ : Type} (access : StoreAccess σ) (readTakes : Nat)
    (action : ControllerAction) (c after : Controller) (world next : σ)
    (performed : c.perform access readTakes action world = some (after, next)) :
    c.Handles (outcomes (c.dispatched action after)) after := by
  cases perform_acts action performed with
  | refused => exact Handles.start.meanwhile rfl
  | admitted => exact Handles.start.meanwhile rfl
  | received => exact Handles.start.meanwhile rfl
  | started key goesOn held room =>
    simp only [dispatched, held]
    exact Handles.start.meanwhile rfl
  | advanced => exact Handles.start.meanwhile rfl
  | settled run outcome found ended =>
    have begun : c.Handles [] ((c.dropRun run.order).observeDuration (c.now - run.started)) :=
      Handles.start.meanwhile rfl
    rw [dispatched_settle c _ run outcome found ended]
    exact begun.handled run.key outcome
  | retried => exact Handles.start.meanwhile rfl

namespace DispatchRun

variable {σ : Type}

theorem after_handles (first : Controller) (run : DispatchRun σ) (move : DispatchMove σ)
    (handles : first.Handles (outcomes run.log) run.controller) :
    first.Handles (outcomes (run.after move).log) (run.after move).controller := by
  cases move with
  | elsewhere world => exact handles
  | send event =>
    refine handles.meanwhile ?_
    simp only [after, Controller.send]
    split <;> rfl
  | closeInbox => exact handles.meanwhile rfl
  | wait millis => exact handles.meanwhile rfl
  | shutdown =>
    refine handles.meanwhile ?_
    simp only [after, Controller.shutdown]
    split <;> rfl
  | act access readTakes action =>
    simp only [after]
    split
    · rename_i controller world performed
      rw [outcomes_append]
      exact Controller.handles_trans handles
        (Controller.perform_handles access readTakes action _ _ _ _ performed)
    · exact handles

/-- Of a whole run, too, the controller is what the outcomes in its log make of it. -/
theorem replay_handles (first : Controller) (moves : List (DispatchMove σ)) (run : DispatchRun σ)
    (handles : first.Handles (outcomes run.log) run.controller) :
    first.Handles (outcomes (replay moves run).log) (replay moves run).controller := by
  induction moves generalizing run with
  | nil => exact handles
  | cons move rest ih => exact ih (run.after move) (after_handles first run move handles)

end DispatchRun

namespace Controller

end Controller

namespace DispatchRun

def overlappingStart : DispatchRun Unit :=
  start ⟨.firstWriteWins, .everything, 3, 8, .default⟩ .empty ()

-- Two passes of one key and one of another overlap. Both keys fail, and then the first key's other
-- pass comes through.
def overlapping : DispatchRun Unit :=
  replay
    (arrival earlyPod ++ [begin .start] ++ arrival { earlyPod with name := "b" } ++
      [begin .start] ++ arrival earlyPod ++
      [begin .start, begin (.advance 0), begin (.settle 0), begin (.advance 1), begin (.settle 1),
        .act (.failing (.notFound "pod")) 0 (.advance 2), begin (.settle 2)])
    overlappingStart

end DispatchRun
end StartupLatency
