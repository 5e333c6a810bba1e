import StartupLatency.Watch.Event

/-!
Histories of a watch. A report is taken in by elementary steps: a pod is put into the view, a pod is
taken out, or all pods that a listing lacks are, in any order. What these steps keep holds after any
reports, of the events so far and the view beside them.
-/

namespace StartupLatency

def WatchUpdate.pods : WatchUpdate → List Pod
  | .applied pod => [pod]
  | .deleted pod => [pod]
  | .restarted pods _ => pods

namespace PodView

theorem swept_perm (sweep : List ObjectName) (pods : List Pod) : (swept sweep pods).Perm pods := by
  induction sweep generalizing pods with
  | nil => exact .refl pods
  | cons key rest ih =>
    have parts := List.filter_append_perm (fun pod : Pod => decide (pod.key = key)) pods
    simp only [← decide_not] at parts
    exact ((ih _).append_left _).trans parts

/-- Sweeps leave no order out: pods of distinct keys come in any order for some sweep. -/
theorem swept_onto (order pods : List Pod) (same : order.Perm pods)
    (distinct : (pods.map Pod.key).Nodup) : swept (order.map Pod.key) pods = order := by
  induction order generalizing pods with
  | nil => rw [List.nil_perm.mp same]; rfl
  | cons first rest ih =>
    have keys : ((first :: rest).map Pod.key).Nodup := (same.map Pod.key).nodup_iff.mpr distinct
    obtain ⟨alone, others⟩ := List.nodup_cons.mp keys
    have later : ∀ pod ∈ rest, pod.key ≠ first.key := fun pod member named =>
      alone (named ▸ List.mem_map_of_mem member)
    have here : (pods.filter fun pod => pod.key = first.key) = [first] := by
      have none : (rest.filter fun pod => pod.key = first.key) = [] :=
        List.filter_eq_nil_iff.mpr fun pod member => by simpa using later pod member
      have picked := same.filter fun pod => decide (pod.key = first.key)
      rw [List.filter_cons_of_pos (by simp), none] at picked
      exact (List.singleton_perm.mp picked).symm
    have left : rest.Perm (pods.filter fun pod => ¬ pod.key = first.key) := by
      have all : (rest.filter fun pod => ¬ pod.key = first.key) = rest :=
        List.filter_eq_self.mpr fun pod member => by simpa using later pod member
      have kept := same.filter fun pod => decide (¬ pod.key = first.key)
      rwa [List.filter_cons_of_neg (by simp), all] at kept
    rw [List.map_cons, swept, here, ih _ left ((left.map Pod.key).nodup_iff.mp others)]
    rfl

/-- What the elementary steps keep of the events so far and the view, where every pod that is put
into the view is admissible. -/
structure Kept (admissible : Pod → Prop) (holds : List PodEvent → PodView → Prop) : Prop where
  applied : ∀ seen view pod, admissible pod → holds seen view →
    holds (seen ++ [(view.apply pod).1]) (view.apply pod).2
  deleted : ∀ seen view pod, holds seen view → holds (seen ++ [.deleted pod]) (view.erase pod.key)
  vanished : ∀ seen view listed (gone : List Pod), gone.Perm (view.vanished listed).values →
    holds seen view → holds (seen ++ gone.map .deleted) (view.remaining listed)

variable {admissible : Pod → Prop} {holds : List PodEvent → PodView → Prop}

theorem apply_all_keeps (kept : Kept admissible holds) (pods : List Pod) (seen : List PodEvent)
    (view : PodView) (delivered : ∀ pod ∈ pods, admissible pod) (before : holds seen view) :
    holds (seen ++ (view.applyAll pods).1) (view.applyAll pods).2 := by
  induction pods generalizing seen view with
  | nil => simpa [applyAll] using before
  | cons pod rest ih =>
    obtain ⟨here, later⟩ := List.forall_mem_cons.mp delivered
    have after := ih _ _ later (kept.applied seen view pod here before)
    rwa [List.append_assoc] at after

theorem translate_keeps (kept : Kept admissible holds) (update : WatchUpdate)
    (seen : List PodEvent) (view : PodView) (delivered : ∀ pod ∈ update.pods, admissible pod)
    (before : holds seen view) :
    holds (seen ++ (view.translate update).1) (view.translate update).2 := by
  cases update with
  | applied pod => exact kept.applied seen view pod (delivered pod List.mem_cons_self) before
  | deleted pod => exact kept.deleted seen view pod before
  | restarted pods sweep =>
    have after := apply_all_keeps kept pods _ _ delivered
      (kept.vanished seen view pods _ (swept_perm sweep _) before)
    rwa [List.append_assoc] at after

theorem translate_all_keeps (kept : Kept admissible holds) (updates : List WatchUpdate)
    (seen : List PodEvent) (view : PodView)
    (delivered : ∀ update ∈ updates, ∀ pod ∈ update.pods, admissible pod)
    (before : holds seen view) :
    holds (seen ++ (view.translateAll updates).1) (view.translateAll updates).2 := by
  induction updates generalizing seen view with
  | nil => simpa [translateAll] using before
  | cons update rest ih =>
    obtain ⟨here, later⟩ := List.forall_mem_cons.mp delivered
    have after := ih _ _ later (translate_keeps kept update seen view here before)
    rwa [List.append_assoc] at after

theorem translate_all_append (view : PodView) (updates : List WatchUpdate) (update : WatchUpdate) :
    view.translateAll (updates ++ [update]) =
      ((view.translateAll updates).1 ++ ((view.translateAll updates).2.translate update).1,
        ((view.translateAll updates).2.translate update).2) := by
  induction updates generalizing view with
  | nil => simp [translateAll]
  | cons first rest ih => simp [translateAll, ih]

def watched (updates : List WatchUpdate) : List PodEvent × PodView :=
  translateAll ∅ updates

theorem watched_keeps (kept : Kept admissible holds) (updates : List WatchUpdate)
    (delivered : ∀ update ∈ updates, ∀ pod ∈ update.pods, admissible pod) (fresh : holds [] ∅) :
    holds (watched updates).1 (watched updates).2 := by
  simpa [watched] using translate_all_keeps kept updates [] ∅ delivered fresh

theorem find_apply (view : PodView) (pod : Pod) (key : ObjectName) :
    (view.apply pod).2.find? key = if key = pod.key then some pod else view.find? key := by
  simp [apply]

theorem find_remaining (view : PodView) (listed : List Pod) (key : ObjectName) (pod : Pod)
    (found : (view.remaining listed).find? key = some pod) : view.find? key = some pod := by
  rw [remaining, SortedMap.find?_filter view (isListed listed)] at found
  split at found
  · exact found
  · cases found

end PodView
end StartupLatency
