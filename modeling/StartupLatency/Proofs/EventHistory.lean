import StartupLatency.Proofs.Incarnations

/-!
What the events of a watch tell. Whoever replays them holds the view, and every event speaks of what
is held when it comes. Of the events that are admitted, the last one of a pod shows what the view
shows of it, although the view goes on with changes that are not admitted.
-/

namespace StartupLatency.PodView

def mirrored (mirror : PodView) : PodEvent → PodView
  | .created pod => mirror.insert pod.key pod
  | .updated _ new => mirror.insert new.key new
  | .deleted pod => mirror.erase pod.key

def replay (mirror : PodView) (events : List PodEvent) : PodView := events.foldl mirrored mirror

/-- A creation is of a pod that is not there, and an update is of the version that is. -/
def Fits (mirror : PodView) : PodEvent → Prop
  | .created pod => mirror.find? pod.key = none
  | .updated old new => mirror.find? new.key = some old
  | .deleted _ => True

def Consistent (mirror : PodView) : List PodEvent → Prop
  | [] => True
  | event :: rest => Fits mirror event ∧ Consistent (mirror.mirrored event) rest

/-- What is there after a report, read off the reports alone: of a pod that a listing has more than
once, the last version counts. -/
def reported (held : ObjectName → Option Pod) : WatchUpdate → ObjectName → Option Pod
  | .applied pod, key => if key = pod.key then some pod else held key
  | .deleted pod, key => if key = pod.key then none else held key
  | .restarted pods _, key => (pods.filter fun pod => pod.key = key).getLast?

def reportedAll (updates : List WatchUpdate) : ObjectName → Option Pod :=
  updates.foldl reported fun _ => none

/-- The events of a listing: one deletion, of the version that is held, for every pod that the
listing lacks, and then one event for every pod that it has, in its order. -/
def Relisted (view : PodView) (listed : List Pod) (events : List PodEvent) : Prop :=
  ∃ (gone : List Pod) (shown : List PodEvent), events = gone.map .deleted ++ shown ∧
    (gone.map Pod.key).Nodup ∧
    (∀ key pod, (pod ∈ gone ∧ pod.key = key) ↔
      (view.find? key = some pod ∧ ∀ other ∈ listed, other.key ≠ key)) ∧
    shown.map PodEvent.pod = listed ∧
    ∀ event ∈ shown, ∀ pod, event ≠ .deleted pod

theorem replay_append (mirror : PodView) (events more : List PodEvent) :
    mirror.replay (events ++ more) = (mirror.replay events).replay more :=
  List.foldl_append

theorem consistent_append (mirror : PodView) (events more : List PodEvent) :
    Consistent mirror (events ++ more) ↔
      Consistent mirror events ∧ Consistent (mirror.replay events) more := by
  induction events generalizing mirror with
  | nil => simp [Consistent, replay]
  | cons event rest ih =>
    change Fits mirror event ∧ Consistent _ (rest ++ more) ↔ _
    rw [ih, ← and_assoc]
    rfl

theorem consistent_fits (mirror : PodView) (events before after : List PodEvent)
    (event : PodEvent) (consistent : Consistent mirror events)
    (parts : events = before ++ event :: after) : Fits (mirror.replay before) event := by
  rw [parts, consistent_append] at consistent
  exact consistent.2.1

/-! The elementary steps of the view, as they are replayed. -/

theorem mirrored_apply (view : PodView) (pod : Pod) :
    view.mirrored (view.apply pod).1 = (view.apply pod).2 := by
  cases found : view.find? pod.key <;> simp [apply, found, mirrored]

theorem event_pod (view : PodView) (pod : Pod) : (view.apply pod).1.pod = pod := by
  cases found : view.find? pod.key <;> simp [apply, found, PodEvent.pod]

theorem event_alive (view : PodView) (pod gone : Pod) : (view.apply pod).1 ≠ .deleted gone := by
  cases found : view.find? pod.key <;> simp [apply, found]

theorem apply_fits (view : PodView) (pod : Pod) : Fits view (view.apply pod).1 := by
  cases found : view.find? pod.key <;> simp [apply, found, Fits]

theorem consistent_deletions (mirror : PodView) (pods : List Pod) :
    Consistent mirror (pods.map .deleted) := by
  induction pods generalizing mirror with
  | nil => trivial
  | cons pod rest ih => exact ⟨trivial, ih _⟩

theorem find_deletions (mirror : PodView) (pods : List Pod) (key : ObjectName) :
    (mirror.replay (pods.map .deleted)).find? key =
      if key ∈ pods.map Pod.key then none else mirror.find? key := by
  induction pods generalizing mirror with
  | nil => rfl
  | cons pod rest ih =>
    change (replay (mirror.erase pod.key) (rest.map .deleted)).find? key = _
    rw [ih, SortedMap.find?_erase, List.map_cons]
    by_cases here : key = pod.key
    · simp [here]
    · simp [here]

def Placed (view : PodView) : Prop := ∀ key pod, view.find? key = some pod → pod.key = key

theorem is_listed_iff (listed : List Pod) (key : ObjectName) :
    isListed listed key = true ↔ ∃ pod ∈ listed, pod.key = key := by
  simp [isListed]

theorem find_vanished (view : PodView) (listed : List Pod) (key : ObjectName) :
    (view.vanished listed).find? key = if isListed listed key then none else view.find? key := by
  rw [vanished, SortedMap.find?_filter view fun key => !isListed listed key]
  cases isListed listed key <;> rfl

theorem mem_vanished (view : PodView) (listed : List Pod) (placed : view.Placed)
    (key : ObjectName) (pod : Pod) :
    (pod ∈ (view.vanished listed).values ∧ pod.key = key) ↔
      (view.find? key = some pod ∧ ∀ other ∈ listed, other.key ≠ key) := by
  have absent : isListed listed key = false ↔ ∀ other ∈ listed, other.key ≠ key := by
    rw [← Bool.not_eq_true, is_listed_iff]
    simp
  rw [SortedMap.mem_values, ← absent]
  constructor
  · rintro ⟨⟨wanted, found⟩, rfl⟩
    rw [find_vanished] at found
    cases listing : isListed listed wanted with
    | true => simp [listing] at found
    | false =>
      rw [listing] at found
      have same := placed wanted pod found
      exact ⟨same ▸ found, same ▸ listing⟩
  · rintro ⟨found, listing⟩
    refine ⟨⟨key, ?_⟩, placed key pod found⟩
    rw [find_vanished, listing]
    exact found

theorem vanished_keys (view : PodView) (listed : List Pod) (placed : view.Placed) :
    ((view.vanished listed).values.map Pod.key).Nodup := by
  suffices named : (view.vanished listed).values.map Pod.key = (view.vanished listed).keys by
    rw [named]
    exact SortedMap.nodup_keys _
  rw [SortedMap.values, List.map_map]
  refine List.map_congr_left fun entry inside => ?_
  have found := SortedMap.find?_of_mem inside
  rw [find_vanished] at found
  split at found
  · cases found
  · exact placed entry.1 entry.2 found

/-- Replaying the deletions of what has vanished, in any order, leaves what remains. -/
theorem replay_vanished (view : PodView) (listed gone : List Pod) (placed : view.Placed)
    (order : gone.Perm (view.vanished listed).values) :
    view.replay (gone.map .deleted) = view.remaining listed := by
  refine SortedMap.ext_find? fun key => ?_
  rw [find_deletions, remaining, SortedMap.find?_filter view (isListed listed)]
  by_cases deleted : key ∈ gone.map Pod.key
  · obtain ⟨pod, member, named⟩ := List.mem_map.mp deleted
    have absent := ((mem_vanished view listed placed key pod).mp ⟨order.mem_iff.mp member, named⟩).2
    have unlisted : ¬ isListed listed key = true := by
      rw [is_listed_iff]
      rintro ⟨other, inside, same⟩
      exact absent other inside same
    rw [if_pos deleted, if_neg unlisted]
  · rw [if_neg deleted]
    by_cases listing : isListed listed key = true
    · rw [if_pos listing]
    · rw [if_neg listing]
      cases found : view.find? key with
      | none => rfl
      | some pod =>
        have absent : ∀ other ∈ listed, other.key ≠ key := fun other inside same =>
          listing ((is_listed_iff listed key).mpr ⟨other, inside, same⟩)
        obtain ⟨member, named⟩ := (mem_vanished view listed placed key pod).mpr ⟨found, absent⟩
        exact absurd (List.mem_map.mpr ⟨pod, order.mem_iff.mpr member, named⟩) deleted

/-- The events so far, replayed, are the view, and each of them fitted when it came. -/
structure Faithful (events : List PodEvent) (view : PodView) : Prop where
  placed : view.Placed
  mirrors : replay ∅ events = view
  consistent : Consistent ∅ events

theorem faithful_kept : Kept (fun _ => True) Faithful where
  applied seen view pod _ faithful := by
    refine ⟨fun key other found => ?_, ?_, ?_⟩
    · rw [find_apply] at found
      split at found
      · rename_i here
        cases found
        exact here.symm
      · exact faithful.placed key other found
    · rw [replay_append, faithful.mirrors]
      exact mirrored_apply view pod
    · rw [consistent_append, faithful.mirrors]
      exact ⟨faithful.consistent, apply_fits view pod, trivial⟩
  deleted seen view pod faithful := by
    refine ⟨fun key other found => ?_, ?_, ?_⟩
    · rw [SortedMap.find?_erase] at found
      split at found
      · cases found
      · exact faithful.placed key other found
    · rw [replay_append, faithful.mirrors]
      rfl
    · rw [consistent_append]
      exact ⟨faithful.consistent, trivial, trivial⟩
  vanished seen view listed gone order faithful := by
    refine ⟨fun key other found => ?_, ?_, ?_⟩
    · exact faithful.placed key other (find_remaining view listed key other found)
    · rw [replay_append, faithful.mirrors]
      exact replay_vanished view listed gone faithful.placed order
    · rw [consistent_append]
      exact ⟨faithful.consistent, consistent_deletions _ _⟩

theorem faithful_fresh : Faithful [] ∅ :=
  ⟨fun _ _ found => (by cases found), rfl, trivial⟩

/-! What the view holds after a report. -/

theorem find_apply_all (view : PodView) (pods : List Pod) (key : ObjectName) :
    (view.applyAll pods).2.find? key =
      ((pods.filter fun pod => pod.key = key).getLast?).or (view.find? key) := by
  induction pods generalizing view with
  | nil => rfl
  | cons pod rest ih =>
    change ((view.apply pod).2.applyAll rest).2.find? key = _
    rw [ih, find_apply]
    by_cases here : pod.key = key
    · subst here
      cases later : (rest.filter fun other => other.key = pod.key).getLast? <;>
        simp [List.getLast?_cons, later]
    · simp [here, Ne.symm here]

theorem translate_reported (view : PodView) (update : WatchUpdate) (key : ObjectName) :
    (view.translate update).2.find? key = reported view.find? update key := by
  cases update with
  | applied pod => exact find_apply view pod key
  | deleted pod => exact SortedMap.find?_erase view key pod.key
  | restarted pods sweep =>
    change ((view.remaining pods).applyAll pods).2.find? key = _
    rw [find_apply_all, remaining, SortedMap.find?_filter view (isListed pods)]
    by_cases listing : isListed pods key = true
    · -- A pod that is listed has a last version, so what was held before does not count.
      obtain ⟨pod, member, named⟩ := (is_listed_iff pods key).mp listing
      cases last : (pods.filter fun pod => pod.key = key).getLast? with
      | none =>
        rw [List.getLast?_eq_none_iff, List.filter_eq_nil_iff] at last
        exact absurd (by simpa using named) (last pod member)
      | some version => simp [reported, last]
    · rw [if_neg listing, Option.or_none]
      rfl

theorem translate_all_reported (updates : List WatchUpdate) (view : PodView) :
    (view.translateAll updates).2.find? = updates.foldl reported view.find? := by
  induction updates generalizing view with
  | nil => rfl
  | cons update rest ih =>
    change ((view.translate update).2.translateAll rest).2.find? = _
    rw [ih, List.foldl_cons]
    exact congrArg (rest.foldl reported) (funext (translate_reported view update))

theorem apply_all_shows (view : PodView) (pods : List Pod) :
    (view.applyAll pods).1.map PodEvent.pod = pods ∧
      ∀ event ∈ (view.applyAll pods).1, ∀ pod, event ≠ .deleted pod := by
  induction pods generalizing view with
  | nil => exact ⟨rfl, fun _ member => by cases member⟩
  | cons pod rest ih =>
    obtain ⟨shown, alive⟩ := ih (view.apply pod).2
    constructor
    · change (view.apply pod).1.pod :: ((view.apply pod).2.applyAll rest).1.map PodEvent.pod = _
      rw [event_pod, shown]
    · exact List.forall_mem_cons.mpr ⟨event_alive view pod, alive⟩

theorem relisted_translate (view : PodView) (listed : List Pod) (sweep : List ObjectName)
    (placed : view.Placed) :
    Relisted view listed (view.translate (.restarted listed sweep)).1 := by
  obtain ⟨shown, alive⟩ := apply_all_shows (view.remaining listed) listed
  have order := swept_perm sweep (view.vanished listed).values
  refine ⟨_, _, rfl, ?_, fun key pod => ?_, shown, alive⟩
  · exact (order.map Pod.key).nodup_iff.mpr (vanished_keys view listed placed)
  · rw [order.mem_iff]
    exact mem_vanished view listed placed key pod

/-- The events are a faithful history of the view. After any reports, the replay of the events is
the view, and the view is what the reports alone say; every event fits what was held when it came;
and a listing that comes next deletes what it lacks, in any order, before it goes through what it
has. -/
theorem events_replay_view (updates : List WatchUpdate) :
    replay ∅ (watched updates).1 = (watched updates).2 ∧
    (∀ key, (watched updates).2.find? key = reportedAll updates key) ∧
    (∀ before event after, (watched updates).1 = before ++ event :: after →
      Fits (replay ∅ before) event) ∧
    ∀ listed sweep, ∃ events,
      (watched (updates ++ [.restarted listed sweep])).1 = (watched updates).1 ++ events ∧
      Relisted (watched updates).2 listed events := by
  have faithful := watched_keeps faithful_kept updates (fun _ _ _ _ => trivial) faithful_fresh
  refine ⟨faithful.mirrors, fun key => ?_, fun before event after parts => ?_,
    fun listed sweep => ?_⟩
  · exact congrFun (translate_all_reported updates ∅) key
  · exact consistent_fits ∅ _ before after event faithful.consistent parts
  · refine ⟨_, ?_, relisted_translate _ listed sweep faithful.placed⟩
    rw [watched, translate_all_append]
    rfl

/-! What is admitted of the events. -/

def admittedOf (scope : Scope) (key : ObjectName) (events : List PodEvent) : List PodEvent :=
  events.filter fun event => scope.admits event && event.pod.key == key

def ShowsHeld (scope : Scope) (events : List PodEvent) (view : PodView) : Prop :=
  ∀ key pod, view.find? key = some pod →
    ∃ event, (admittedOf scope key events).getLast? = some event ∧ event.pod.shown = pod.shown

theorem admitted_of_dropped (scope : Scope) (key : ObjectName) (events : List PodEvent)
    (event : PodEvent) (dropped : scope.admits event = false ∨ event.pod.key ≠ key) :
    admittedOf scope key (events ++ [event]) = admittedOf scope key events := by
  rcases dropped with closed | other
  · simp [admittedOf, closed]
  · simp [admittedOf, other]

theorem admitted_of_admitted (scope : Scope) (events : List PodEvent) (event : PodEvent)
    (admitted : scope.admits event = true) :
    admittedOf scope event.pod.key (events ++ [event]) =
      admittedOf scope event.pod.key events ++ [event] := by
  simp [admittedOf, admitted]

theorem admitted_of_deletions (scope : Scope) (key : ObjectName) (events : List PodEvent)
    (pods : List Pod) :
    admittedOf scope key (events ++ pods.map .deleted) = admittedOf scope key events := by
  simp [admittedOf, Scope.admits]

theorem apply_shows_held (scope : Scope) (seen : List PodEvent) (view : PodView) (pod : Pod)
    (inScope : scope.covers pod.ns pod.labels = true) (shows : ShowsHeld scope seen view) :
    ShowsHeld scope (seen ++ [(view.apply pod).1]) (view.apply pod).2 := by
  intro key other found
  rw [find_apply] at found
  by_cases here : key = pod.key
  · rw [if_pos here, Option.some.injEq] at found
    subst here found
    have named : (view.apply pod).1.pod.key = pod.key := by rw [event_pod]
    cases admitted : scope.admits (view.apply pod).1 with
    | true =>
      refine ⟨(view.apply pod).1, ?_, by rw [event_pod]⟩
      rw [← named, admitted_of_admitted scope seen _ admitted]
      exact List.getLast?_concat
    | false =>
      -- Only an update is not admitted, of a version that shows the same.
      cases before : view.find? pod.key with
      | none => simp [apply, before, Scope.admits, inScope] at admitted
      | some old =>
        have same : old.relevantChange pod = false := by
          simpa [apply, before, Scope.admits, inScope] using admitted
        obtain ⟨event, last, shown⟩ := shows _ old before
        refine ⟨event, ?_, shown.trans ((Pod.relevant_change_iff old pod).mp same)⟩
        rw [admitted_of_dropped scope _ seen _ (Or.inl admitted)]
        exact last
  · rw [if_neg here] at found
    obtain ⟨event, last, shown⟩ := shows key other found
    refine ⟨event, ?_, shown⟩
    rw [admitted_of_dropped scope key seen _ (Or.inr ?_)]
    · exact last
    · rw [event_pod]
      exact Ne.symm here

theorem shows_held_kept (scope : Scope) :
    Kept (fun pod => scope.covers pod.ns pod.labels = true) (ShowsHeld scope) where
  applied := apply_shows_held scope
  deleted seen view pod shows := by
    intro key other found
    rw [SortedMap.find?_erase] at found
    split at found
    · cases found
    · rw [admitted_of_dropped scope key seen (.deleted pod) (Or.inl rfl)]
      exact shows key other found
  vanished seen view listed gone _ shows := by
    intro key other found
    rw [admitted_of_deletions]
    exact shows key other (find_remaining view listed key other found)

/-- Nothing that a record may take up is hidden: whatever pod is held after any reports, an event of
its name was admitted, and the last one that was carries the start, the readiness and the node that
are held now. -/
theorem last_admitted_shows_held (scope : Scope) (updates : List WatchUpdate)
    (inScope : ∀ update ∈ updates, ∀ pod ∈ update.pods, scope.covers pod.ns pod.labels = true)
    (key : ObjectName) (pod : Pod) (held : (watched updates).2.find? key = some pod) :
    ∃ event, (admittedOf scope key (watched updates).1).getLast? = some event ∧
      event.pod.startTs = pod.startTs ∧ event.pod.readyTs = pod.readyTs ∧
      event.pod.node = pod.node := by
  have fresh : ShowsHeld scope [] ∅ := fun _ _ found => by cases found
  have shows := watched_keeps (shows_held_kept scope) updates inScope fresh
  obtain ⟨event, last, shown⟩ := shows key pod held
  simp only [Pod.shown, Prod.mk.injEq] at shown
  exact ⟨event, last, shown⟩

def busyPod : Pod := { latePod with message := "busy" }

-- The pod is deleted and created anew, listed twice, and at last changes without a relevant change.
def restless : List WatchUpdate :=
  [.applied earlyPod, .deleted earlyPod, .restarted [earlyPod, latePod] [], .applied busyPod]

theorem busy_pod_shown :
    (∀ update ∈ restless, ∀ pod ∈ update.pods,
      Scope.everything.covers pod.ns pod.labels = true) ∧
    (watched restless).2.find? busyPod.key = some busyPod ∧
    ∃ event, (admittedOf .everything busyPod.key (watched restless).1).getLast? = some event ∧
      event.pod.startTs = busyPod.startTs ∧ event.pod.readyTs = busyPod.readyTs ∧
      event.pod.node = busyPod.node := by
  have inScope : ∀ update ∈ restless, ∀ pod ∈ update.pods,
      Scope.everything.covers pod.ns pod.labels = true := by decide +kernel
  have held : (watched restless).2.find? busyPod.key = some busyPod := by decide +kernel
  exact ⟨inScope, held, last_admitted_shows_held .everything restless inScope _ _ held⟩

end StartupLatency.PodView
