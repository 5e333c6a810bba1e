import Mathlib.Data.List.Nodup
import StartupLatency.Proofs.ControllerRuns

/-!
What stays in order over a run of the controller: marks stand for waiting keys, passes and retries
go by numbers of their own, and the passes in progress are grounded in the records. From there,
the records retain what they have got, however many passes for one key overlap.
-/

namespace StartupLatency

structure Numbered (next : Nat) (numbers : List Nat) : Prop where
  distinct : numbers.Nodup
  early : ∀ number ∈ numbers, number < next

theorem numbered_none (next : Nat) : Numbered next [] :=
  ⟨List.nodup_nil, fun _ member => absurd member List.not_mem_nil⟩

theorem numbered_mono {next later : Nat} {numbers : List Nat} (grows : next ≤ later)
    (numbered : Numbered next numbers) : Numbered later numbers :=
  ⟨numbered.distinct, fun number member => Nat.lt_of_lt_of_le (numbered.early number member) grows⟩

theorem numbered_later (next : Nat) (numbers : List Nat) (numbered : Numbered next numbers) :
    Numbered (next + 1) numbers := numbered_mono (Nat.le_succ next) numbered

theorem numbered_next (next : Nat) (numbers : List Nat) (numbered : Numbered next numbers) :
    Numbered (next + 1) (numbers ++ [next]) := by
  have unused : next ∉ numbers := fun member => Nat.lt_irrefl _ (numbered.early next member)
  refine ⟨List.nodup_append.mpr ⟨numbered.distinct, List.nodup_singleton _, ?_⟩, ?_⟩
  · intro number member other single same
    rw [same, List.mem_singleton.mp single] at member
    exact unused member
  · intro number member
    rcases List.mem_append.mp member with old | new
    · exact Nat.lt_succ_of_lt (numbered.early number old)
    · rw [List.mem_singleton.mp new]
      exact Nat.lt_succ_self next

theorem numbered_sublist (next : Nat) (some all : List Nat) (sublist : some.Sublist all)
    (numbered : Numbered next all) : Numbered next some :=
  ⟨numbered.distinct.sublist sublist,
    fun number member => numbered.early number (sublist.subset member)⟩

-- A number that moves from the second list to the first.
theorem numbered_moved {next later number : Nat} {ended rest : List Nat} (grows : next ≤ later)
    (member : number ∈ rest) (numbered : Numbered next (ended ++ rest)) :
    Numbered later (ended ++ number :: rest.filter fun other => other ≠ number) := by
  have rests : (rest.filter fun other => other ≠ number) = rest.erase number := by
    rw [(List.nodup_append.mp numbered.distinct).2.1.erase_eq_filter]
    exact List.filter_congr fun other _ => Bool.eq_iff_iff.mpr (by simp)
  have same : (ended ++ number :: rest.filter fun other => other ≠ number).Perm (ended ++ rest) :=
    List.Perm.append_left ended (rests ▸ (List.perm_cons_erase member).symm)
  exact ⟨same.nodup_iff.mpr numbered.distinct, fun other present =>
    Nat.lt_of_lt_of_le (numbered.early other (same.mem_iff.mp present)) grows⟩

namespace Workload

structure Orderly (load : Workload) (stores : Stores) : Prop where
  marked : load.queue.Marked
  passes : Numbered load.order (load.running.map RunningPass.order)
  retries : Numbered load.order (load.retries.map ScheduledRetry.order)
  sound : stores.records.Sound
  grounded : ∀ run ∈ load.running, run.pass.Grounded load.policy stores

variable {load after : Workload} {stores world : Stores} {shown : List Happening}

theorem turns_policy (turns : Turns load stores after world shown) :
    after.policy = load.policy := by
  cases turns <;> rfl

theorem turns_pods (turns : Turns load stores after world shown) : world.pods = stores.pods := by
  cases turns with
  | advanced run next after trouble found unfinished moves => exact Pass.moves_pods moves
  | _ => rfl

-- A number says which pass is meant.
theorem run_unique (orderly : Orderly load stores) (a b : RunningPass) (inA : a ∈ load.running)
    (inB : b ∈ load.running) (same : a.order = b.order) : a = b :=
  List.inj_on_of_nodup_map orderly.passes.distinct inA inB same

theorem retry_unique (orderly : Orderly load stores) (a b : ScheduledRetry)
    (inA : a ∈ load.retries) (inB : b ∈ load.retries) (same : a.order = b.order) : a = b :=
  List.inj_on_of_nodup_map orderly.retries.distinct inA inB same

theorem replaced_numbers (running : List RunningPass) (order : Nat) (next : Pass) :
    (running.map fun other =>
      if other.order = order then { other with pass := next } else other).map RunningPass.order =
        running.map RunningPass.order := by
  rw [List.map_map]
  apply List.map_congr_left
  intro other _
  simp only [Function.comp_apply]
  split <;> rfl

theorem turns_orderly (turns : Turns load stores after world shown)
    (orderly : Orderly load stores) : Orderly after world := by
  obtain ⟨marked, passes, retries, sound, grounded⟩ := orderly
  cases turns with
  | dropped => exact ⟨marked, passes, retries, sound, grounded⟩
  | admitted key =>
    exact ⟨WorkQueue.enqueue_marked _ _ key marked, passes, retries, sound, grounded⟩
  | received key sender queue free next =>
    exact ⟨WorkQueue.next_marked _ _ key sender next marked, passes, retries, sound, grounded⟩
  | started key begun wakes held =>
    refine ⟨marked, ?_, numbered_later _ _ retries, sound, fun run member => ?_⟩
    · simpa only [List.map_append, List.map_cons, List.map_nil] using numbered_next _ _ passes
    · rcases List.mem_append.mp member with old | new
      · exact grounded run old
      · rw [List.mem_singleton.mp new]
        trivial
  | advanced run next world trouble found unfinished moves =>
    refine ⟨marked, ?_, retries, Pass.moves_sound moves sound, fun other member => ?_⟩
    · simpa only [replaced_numbers] using passes
    · obtain ⟨former, present, same⟩ := List.mem_map.mp member
      -- The pass that moved, or one beside it.
      split at same
      · rw [← same]
        exact Pass.grounded_self moves sound
      · rw [← same]
        exact Pass.grounded_other moves (grounded former present)
  | finished run work found ended =>
    refine ⟨marked, ?_, retries, sound, fun other member => ?_⟩
    · exact numbered_sublist _ _ _ (List.filter_sublist.map _) passes
    · exact grounded other (List.mem_filter.mp member).1
  | givenBack run due found =>
    refine ⟨marked, ?_, ?_, sound, fun other member => ?_⟩
    · exact numbered_later _ _ (numbered_sublist _ _ _ (List.filter_sublist.map _) passes)
    · simpa only [List.map_append, List.map_cons, List.map_nil] using numbered_next _ _ retries
    · exact grounded other (List.mem_filter.mp member).1
  | retried entry found =>
    refine ⟨WorkQueue.enqueue_marked _ _ entry.key marked, passes, ?_, sound, grounded⟩
    exact numbered_sublist _ _ _ (List.filter_sublist.map _) retries

theorem turns_retain (turns : Turns load stores after world shown) (orderly : Orderly load stores) :
    stores.records.Retains load.policy world.records := by
  cases turns with
  | advanced run next world trouble found unfinished moves =>
    have present := List.mem_of_find?_eq_some found
    exact Pass.moves_retain moves orderly.sound (orderly.grounded run present)
  | _ => exact RecordStore.retains_refl load.policy stores.records

end Workload

namespace ControllerRun

theorem replay_append (first second : List RunMove) (run : ControllerRun) :
    replay (first ++ second) run = replay second (replay first run) := List.foldl_append

def Orderly (run : ControllerRun) : Prop := run.load.Orderly run.stores

theorem start_orderly (settings : ControllerSettings) (health : HealthRegistry) (stores : Stores)
    (built : stores.Built) : (start settings health stores).Orderly :=
  ⟨WorkQueue.marked_empty _, numbered_none 0, numbered_none 0, stores.built_sound built,
    fun _ member => absurd member List.not_mem_nil⟩

theorem after_orderly (run : ControllerRun) (move : RunMove) (orderly : run.Orderly) :
    (run.after move).Orderly ∧ (run.after move).load.policy = run.load.policy ∧
      run.stores.records.Retains run.load.policy (run.after move).stores.records := by
  rcases after_turns run move with ⟨pod, rfl⟩ | ⟨shown, turns, _⟩
  · obtain ⟨marked, passes, retries, sound, grounded⟩ := orderly
    refine ⟨⟨marked, passes, retries, sound, fun run member => ?_⟩, rfl,
      RecordStore.retains_refl _ _⟩
    exact grounded run member
  · exact ⟨Workload.turns_orderly turns orderly, Workload.turns_policy turns,
      Workload.turns_retain turns orderly⟩

theorem replay_orderly (moves : List RunMove) (run : ControllerRun) (orderly : run.Orderly) :
    (replay moves run).Orderly ∧ (replay moves run).load.policy = run.load.policy ∧
      run.stores.records.Retains run.load.policy (replay moves run).stores.records := by
  induction moves generalizing run with
  | nil => exact ⟨orderly, rfl, RecordStore.retains_refl _ _⟩
  | cons move rest ih =>
    obtain ⟨next, policy, step⟩ := after_orderly run move orderly
    obtain ⟨last, policy', others⟩ := ih (run.after move) next
    rw [policy] at others
    exact ⟨last, policy'.trans policy, RecordStore.retains_trans _ _ _ _ step others⟩

end ControllerRun
end StartupLatency
