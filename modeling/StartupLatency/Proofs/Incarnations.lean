import StartupLatency.Proofs.Intake
import StartupLatency.Proofs.WatchedPods

/-!
Whether the incarnations of pods reach the queue. A pod that is new under its name does, and so does
one that shows another start, readiness or node than the pod that the view had there. A pod that is
delivered in the place of another one, whose deletion nobody reported, and shows the same, does not.
-/

namespace StartupLatency

namespace Pod

def shown (pod : Pod) : String × String × String := (pod.startTs, pod.readyTs, pod.node)

theorem relevant_change_iff (old new : Pod) :
    old.relevantChange new = false ↔ old.shown = new.shown := by
  simp [relevantChange, shown, and_assoc]

end Pod

namespace PodView

def Announced (scope : Scope) (events : List PodEvent) (uid : String) : Prop :=
  ∃ event ∈ events, scope.admits event = true ∧ event.pod.uid = uid

/-- The incarnation came in the place of another one that showed what it shows now. -/
def SlippedIn (events : List PodEvent) (pod : Pod) : Prop :=
  ∃ old new, .updated old new ∈ events ∧ new.key = pod.key ∧ new.uid = pod.uid ∧
    old.uid ≠ pod.uid ∧ old.shown = pod.shown

/-- Since it slipped in, nothing that it shows has changed, nor was it ever created. -/
def Hidden (events : List PodEvent) (pod : Pod) : Prop :=
  SlippedIn events pod ∧
    (∀ new, .created new ∈ events → new.uid ≠ pod.uid) ∧
    ∀ old new, .updated old new ∈ events → new.uid = pod.uid → old.shown = new.shown

theorem announced_mono {scope : Scope} {events : List PodEvent} {uid : String}
    (more : List PodEvent) (announced : Announced scope events uid) :
    Announced scope (events ++ more) uid := by
  obtain ⟨event, member, rest⟩ := announced
  exact ⟨event, List.mem_append_left more member, rest⟩

theorem slipped_in_mono {events : List PodEvent} {pod : Pod} (more : List PodEvent)
    (slipped : SlippedIn events pod) : SlippedIn (events ++ more) pod := by
  obtain ⟨old, new, member, rest⟩ := slipped
  exact ⟨old, new, List.mem_append_left more member, rest⟩

/-- The pods of the view are in place, each of them announced or slipped in, and what was put into
the view was in scope. -/
structure Accounted (scope : Scope) (events : List PodEvent) (view : PodView) : Prop where
  placed : ∀ key pod, view.find? key = some pod → pod.key = key
  known : ∀ key pod, view.find? key = some pod →
    Announced scope events pod.uid ∨ SlippedIn events pod
  covered : ∀ event ∈ events, (∀ pod, event ≠ .deleted pod) →
    scope.covers event.pod.ns event.pod.labels = true

theorem accounted_fresh (scope : Scope) : Accounted scope [] ∅ := by
  refine ⟨fun _ _ found => ?_, fun _ _ found => ?_, fun _ member => ?_⟩
  · cases found
  · cases found
  · cases member

theorem apply_accounted (scope : Scope) (seen : List PodEvent) (view : PodView) (pod : Pod)
    (inScope : scope.covers pod.ns pod.labels = true) (accounted : Accounted scope seen view) :
    Accounted scope (seen ++ [(view.apply pod).1]) (view.apply pod).2 := by
  refine ⟨fun key other found => ?_, fun key other found => ?_, fun event member alive => ?_⟩
  · rw [find_apply] at found
    split at found
    · rename_i same
      cases found
      exact same.symm
    · exact accounted.placed key other found
  · rw [find_apply] at found
    split at found
    · cases found
      have last : (view.apply pod).1 ∈ seen ++ [(view.apply pod).1] := by simp
      cases before : view.find? pod.key with
      | none => exact Or.inl ⟨_, last, by simp [apply, before, Scope.admits, inScope, PodEvent.pod]⟩
      | some old =>
        have event : (view.apply pod).1 = .updated old pod := by simp [apply, before]
        rw [event] at last ⊢
        cases relevant : old.relevantChange pod with
        | true => exact Or.inl ⟨_, last, by simp [Scope.admits, inScope, relevant], rfl⟩
        | false =>
          -- The pod shows what its predecessor showed, and inherits how that one came in.
          have same := (Pod.relevant_change_iff old pod).mp relevant
          by_cases uid : old.uid = pod.uid
          · rcases accounted.known _ old before with announced | slipped
            · exact Or.inl (uid ▸ announced_mono _ announced)
            · obtain ⟨first, next, member, key, nextUid, differs, shown⟩ := slipped
              have placed := accounted.placed _ old before
              exact Or.inr ⟨first, next, List.mem_append_left _ member, key.trans placed,
                nextUid.trans uid, uid ▸ differs, shown.trans same⟩
          · exact Or.inr ⟨old, pod, last, rfl, rfl, uid, same⟩
    · exact (accounted.known key other found).imp (announced_mono _) (slipped_in_mono _)
  · rcases List.mem_append.mp member with old | new
    · exact accounted.covered event old alive
    · rw [List.mem_singleton.mp new, apply]
      dsimp only
      split <;> exact inScope

theorem removal_accounted (scope : Scope) (seen removed : List PodEvent) (view left : PodView)
    (deletions : ∀ event ∈ removed, ∃ pod, event = .deleted pod)
    (within : ∀ key pod, left.find? key = some pod → view.find? key = some pod)
    (accounted : Accounted scope seen view) : Accounted scope (seen ++ removed) left := by
  refine ⟨fun key pod found => accounted.placed key pod (within key pod found),
    fun key pod found => ?_, fun event member alive => ?_⟩
  · exact (accounted.known key pod (within key pod found)).imp (announced_mono _)
      (slipped_in_mono _)
  · rcases List.mem_append.mp member with old | new
    · exact accounted.covered event old alive
    · obtain ⟨pod, same⟩ := deletions event new
      exact absurd same (alive pod)

theorem accounted_kept (scope : Scope) :
    Kept (fun pod => scope.covers pod.ns pod.labels = true) (Accounted scope) where
  applied := apply_accounted scope
  deleted seen view pod := by
    refine removal_accounted scope seen _ view _ (fun event member => ?_) fun key other found => ?_
    · exact ⟨pod, List.mem_singleton.mp member⟩
    · rw [SortedMap.find?_erase] at found
      split at found
      · cases found
      · exact found
  vanished seen view listed gone _ := by
    refine removal_accounted scope seen _ view _ (fun event member => ?_)
      (find_remaining view listed)
    obtain ⟨pod, _, rfl⟩ := List.mem_map.mp member
    exact ⟨pod, rfl⟩

/-- An incarnation that is in the view has been announced, unless it slipped in behind the back of
the watch, in the place of another one that showed the same, and has shown nothing else since. -/
theorem announced_iff_not_hidden (scope : Scope) (updates : List WatchUpdate)
    (inScope : ∀ update ∈ updates, ∀ pod ∈ update.pods, scope.covers pod.ns pod.labels = true)
    (key : ObjectName) (pod : Pod) (held : (watched updates).2.find? key = some pod) :
    Announced scope (watched updates).1 pod.uid ↔ ¬ Hidden (watched updates).1 pod := by
  have accounted := watched_keeps (accounted_kept scope) updates inScope (accounted_fresh scope)
  constructor
  · rintro ⟨event, member, admitted, uid⟩ ⟨_, uncreated, unchanged⟩
    cases event with
    | created new => exact uncreated new member uid
    | updated old new =>
      have same := (Pod.relevant_change_iff old new).mpr (unchanged old new member uid)
      simp [Scope.admits, same] at admitted
    | deleted gone => cases admitted
  · intro visible
    refine (accounted.known key pod held).elim id fun slipped => ?_
    refine Classical.byContradiction fun unannounced => visible ⟨slipped, ?_, ?_⟩
    · intro new member uid
      have within : scope.covers new.ns new.labels = true :=
        accounted.covered _ member fun _ same => by cases same
      exact unannounced ⟨_, member, within, uid⟩
    · intro old new member uid
      have within : scope.covers new.ns new.labels = true :=
        accounted.covered _ member fun _ same => by cases same
      refine (Pod.relevant_change_iff old new).mp ?_
      cases relevant : old.relevantChange new with
      | false => rfl
      | true => exact absurd ⟨_, member, by simp [Scope.admits, within, relevant], uid⟩ unannounced

def AllAnnounced (scope : Scope) (updates : List WatchUpdate) : Prop :=
  (∀ update ∈ updates, ∀ pod ∈ update.pods, scope.covers pod.ns pod.labels = true) →
    ∀ key pod, (watched updates).2.find? key = some pod →
      Announced scope (watched updates).1 pod.uid

def firstIncarnation : Pod := .annotated []

def secondIncarnation : Pod := { firstIncarnation with uid := "v" }

-- The pod was deleted and created anew while the watch was away, so that a listing shows it first.
def listedAnew : List WatchUpdate :=
  [.restarted [firstIncarnation] [], .restarted [secondIncarnation] []]

theorem second_incarnation_hidden :
    (∀ update ∈ listedAnew, ∀ pod ∈ update.pods,
      Scope.everything.covers pod.ns pod.labels = true) ∧
    (watched listedAnew).2.find? secondIncarnation.key = some secondIncarnation ∧
    (Announced .everything (watched listedAnew).1 secondIncarnation.uid ↔
      ¬ Hidden (watched listedAnew).1 secondIncarnation) := by
  have inScope : ∀ update ∈ listedAnew, ∀ pod ∈ update.pods,
      Scope.everything.covers pod.ns pod.labels = true := by decide +kernel
  have held : (watched listedAnew).2.find? secondIncarnation.key = some secondIncarnation := by
    decide +kernel
  exact ⟨inScope, held, announced_iff_not_hidden .everything listedAnew inScope _ _ held⟩

/-- An incarnation that a listing shows in the place of its predecessor is not announced. -/
theorem second_incarnation_unannounced : ¬ AllAnnounced .everything listedAnew := by
  intro all
  obtain ⟨event, member, admitted, uid⟩ :=
    all (by decide +kernel) secondIncarnation.key secondIncarnation (by decide +kernel)
  have others : ∀ event ∈ (watched listedAnew).1,
      Scope.everything.admits event = true → event.pod.uid ≠ secondIncarnation.uid := by
    decide +kernel
  exact others event member admitted uid

end PodView
end StartupLatency
