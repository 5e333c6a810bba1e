import Mathlib.Data.List.Induction
import StartupLatency.Proofs.EventHistory
import StartupLatency.Watch.Forward

/-!
What a step of the forwarder can do. Between two items nothing is pending, and within one what was
accepted and what is pending make up its events. So the events that were accepted are told by the
items that have been handled, and by how far the one in hand has come.
-/

namespace StartupLatency

namespace WatchItem

def update? : WatchItem → Option WatchUpdate
  | .update given => some given
  | .fault _ => none

def isListing (item : WatchItem) : Bool := item.update?.any Forwarder.isListing

end WatchItem

def ForwardAction.taken : ForwardAction → List WatchItem
  | .take item => [item]
  | _ => []

def deliveredBy (items : List WatchItem) : List PodEvent × PodView :=
  PodView.watched (items.filterMap WatchItem.update?)

theorem delivered_fault (items : List WatchItem) (message : String) :
    deliveredBy (items ++ [.fault message]) = deliveredBy items := by
  rw [deliveredBy, List.filterMap_append]
  exact congrArg PodView.watched (List.append_nil (items.filterMap WatchItem.update?))

theorem delivered_update (items : List WatchItem) (update : WatchUpdate) :
    deliveredBy (items ++ [.update update]) =
      ((deliveredBy items).1 ++ ((deliveredBy items).2.translate update).1,
        ((deliveredBy items).2.translate update).2) := by
  simp [deliveredBy, List.filterMap_append, WatchItem.update?, PodView.watched,
    PodView.translate_all_append]

/-- The events of further items come behind those there are. -/
theorem delivered_mono {items more : List WatchItem} (shorter : items <+: more) :
    (deliveredBy items).1 <+: (deliveredBy more).1 := by
  obtain ⟨rest, rfl⟩ := shorter
  induction rest using List.reverseRecOn with
  | nil => simp
  | append_singleton rest item ih =>
    rw [← List.append_assoc]
    cases item with
    | fault message => rwa [delivered_fault]
    | update update =>
      rw [delivered_update]
      exact ih.trans (List.prefix_append _ _)

namespace Forwarder

def concluded (registry : HealthRegistry) (isListing : Bool) : HealthRegistry :=
  if isListing then (registry.setSynced true).report HealthRegistry.podWatcher .healthy
  else registry

theorem concluded_synced (registry : HealthRegistry) (isListing : Bool) :
    (concluded registry isListing).synced = (registry.synced || isListing) := by
  cases isListing
  · exact (Bool.or_false _).symm
  · exact (Bool.or_true _).symm

inductive Moves (f : Forwarder) : ForwardAction → Forwarder → Prop where
  | fault (message : String) (idle : f.hand? = none) :
      Moves f (.take (.fault message))
        { f with registry := f.registry.report HealthRegistry.podWatcher (.degraded message) }
  | silent (update : WatchUpdate) (idle : f.hand? = none)
      (blank : (f.view.translate update).1 = []) :
      Moves f (.take (.update update))
        { f with
          view := (f.view.translate update).2
          registry := concluded f.registry (isListing update) }
  | begun (update : WatchUpdate) (idle : f.hand? = none)
      (more : (f.view.translate update).1 ≠ []) :
      Moves f (.take (.update update))
        { f with
          view := (f.view.translate update).2
          hand? := some ⟨(f.view.translate update).1, isListing update⟩ }
  | accepted (event : PodEvent) (rest : List PodEvent) (listing : Bool) (more : rest ≠ [])
      (hand : f.hand? = some ⟨event :: rest, listing⟩) :
      Moves f .accept { f with hand? := some ⟨rest, listing⟩, sent := f.sent ++ [event] }
  | finished (event : PodEvent) (listing : Bool) (hand : f.hand? = some ⟨[event], listing⟩) :
      Moves f .accept
        { f with
          hand? := none
          sent := f.sent ++ [event]
          registry := concluded f.registry listing }
  | refused (event : PodEvent) (rest : List PodEvent) (listing : Bool)
      (hand : f.hand? = some ⟨event :: rest, listing⟩) :
      Moves f .refuse { f with running := false, hand? := none }
  | shutdown (idle : f.hand? = none) : Moves f .shutdown { f with running := false }
  | ended (idle : f.hand? = none) :
      Moves f .ended
        { f with
          running := false
          registry :=
            f.registry.report HealthRegistry.podWatcher (.unhealthy "watch stream ended") }

variable {f next : Forwarder} {action : ForwardAction}

theorem conclude_idle (idle : f.hand? = none) (registry : HealthRegistry) (view : PodView) :
    { f with view := view, registry := registry, hand? := none } =
      { f with view := view, registry := registry } := by
  rw [← idle]

theorem moves_take (item : WatchItem) (idle : f.hand? = none) :
    Moves f (.take item) (f.take item) := by
  cases item with
  | fault message => exact .fault message idle
  | update update =>
    cases events : (f.view.translate update).1 with
    | nil =>
      have silent := Moves.silent update idle events
      simp only [take, conclude, events]
      rwa [← conclude_idle idle] at silent
    | cons event rest =>
      have begun := Moves.begun update idle (by simp [events])
      simp only [take, conclude, events]
      rwa [events] at begun

theorem moves_of_step (does : f.step? action = some next) :
    f.running = true ∧ Moves f action next := by
  unfold step? at does
  split at does
  · cases does
  · rename_i running
    refine ⟨by simpa using running, ?_⟩
    split at does
    · rename_i item idle
      cases does
      exact moves_take item idle
    · rename_i idle
      cases does
      exact .shutdown idle
    · rename_i idle
      cases does
      exact .ended idle
    · rename_i event rest listing hand
      cases does
      cases rest with
      | nil => exact .finished event listing hand
      | cons second rest => exact .accepted event (second :: rest) listing (by simp) hand
    · rename_i event rest listing hand
      cases does
      exact .refused event rest listing hand
    · cases does

/-! ## How far the items have come -/

/-- How far a forwarder has come with the items it has taken: all of them are handled, or of the
last one some events are left. A forwarder that has stopped leaves them for good. -/
inductive Progress (handled : List WatchItem) (f : Forwarder) : List WatchItem → Prop where
  | between (sent : f.sent = (deliveredBy handled).1)
      (ready : f.running = true → f.hand? = none ∧ f.view = (deliveredBy handled).2) :
      Progress handled f handled
  | within (update : WatchUpdate) (part rest : List PodEvent) (more : rest ≠ [])
      (events : ((deliveredBy handled).2.translate update).1 = part ++ rest)
      (sent : f.sent = (deliveredBy handled).1 ++ part)
      (ready : f.running = true → f.hand? = some ⟨rest, isListing update⟩ ∧
        f.view = ((deliveredBy handled).2.translate update).2) :
      Progress handled f (handled ++ [.update update])

def Marked (handled : List WatchItem) (f : Forwarder) : Prop :=
  f.registry.synced = handled.any WatchItem.isListing

/-- From one number of handled items to the same, or to one more. Events of the items that are
handled now have then all been accepted. -/
inductive Advances (handled : List WatchItem) (next : Forwarder) : List WatchItem → Prop where
  | stays : Advances handled next handled
  | grows (item : WatchItem) (sent : next.sent = (deliveredBy (handled ++ [item])).1) :
      Advances handled next (handled ++ [item])

variable {handled taken : List WatchItem}

theorem progress_idle (progress : Progress handled f taken) (running : f.running = true)
    (idle : f.hand? = none) :
    taken = handled ∧ f.sent = (deliveredBy handled).1 ∧ f.view = (deliveredBy handled).2 := by
  cases progress with
  | between sent ready => exact ⟨rfl, sent, (ready running).2⟩
  | within update part rest more events sent ready =>
    rw [(ready running).1] at idle
    cases idle

theorem progress_hand {pending : List PodEvent} {listing : Bool}
    (progress : Progress handled f taken) (running : f.running = true)
    (hand : f.hand? = some ⟨pending, listing⟩) :
    ∃ update part, taken = handled ++ [.update update] ∧ listing = isListing update ∧
      ((deliveredBy handled).2.translate update).1 = part ++ pending ∧
      f.sent = (deliveredBy handled).1 ++ part ∧
      f.view = ((deliveredBy handled).2.translate update).2 := by
  cases progress with
  | between sent ready =>
    rw [(ready running).1] at hand
    cases hand
  | within update part rest more events sent ready =>
    obtain ⟨same, view⟩ := ready running
    rw [same] at hand
    cases hand
    exact ⟨update, part, rfl, rfl, events, sent, view⟩

theorem marked_one (f : Forwarder) (marked : Marked handled f) (item : WatchItem)
    (registry : HealthRegistry) (synced : registry.synced = (f.registry.synced || item.isListing)) :
    registry.synced = (handled ++ [item]).any WatchItem.isListing := by
  rw [synced, marked, List.any_append, List.any_cons, List.any_nil, Bool.or_false]

theorem moves_progress (moves : Moves f action next) (running : f.running = true)
    (progress : Progress handled f taken) (marked : Marked handled f) :
    ∃ later, Advances handled next later ∧ Progress later next (taken ++ action.taken) ∧
      Marked later next := by
  cases moves with
  | fault message idle =>
    obtain ⟨rfl, sent, view⟩ := progress_idle progress running idle
    have same := delivered_fault taken message
    rw [← same] at sent view
    exact ⟨_, .grows (.fault message) sent, .between sent fun _ => ⟨idle, view⟩,
      marked_one f marked (.fault message) _ (Bool.or_false _).symm⟩
  | silent update idle blank =>
    obtain ⟨rfl, sent, view⟩ := progress_idle progress running idle
    have told := delivered_update taken update
    rw [← view, blank, List.append_nil, ← sent] at told
    exact ⟨_, .grows (.update update) (congrArg Prod.fst told).symm,
      .between (congrArg Prod.fst told).symm fun _ => ⟨idle, (congrArg Prod.snd told).symm⟩,
      marked_one f marked (.update update) _ (concluded_synced _ _)⟩
  | begun update idle more =>
    obtain ⟨rfl, sent, view⟩ := progress_idle progress running idle
    refine ⟨_, .stays, .within update [] _ more ?_ ?_ fun _ => ⟨rfl, ?_⟩, marked⟩
    · rw [view, List.nil_append]
    · rw [List.append_nil, sent]
    · rw [view]
  | accepted event rest listing more hand =>
    obtain ⟨update, part, rfl, rfl, events, sent, view⟩ := progress_hand progress running hand
    refine ⟨_, .stays, ?_, marked⟩
    simp only [ForwardAction.taken, List.append_nil]
    refine .within update (part ++ [event]) rest more ?_ ?_ fun _ => ⟨rfl, view⟩
    · rw [events, List.append_assoc, List.singleton_append]
    · rw [sent, List.append_assoc]
  | finished event listing hand =>
    obtain ⟨update, part, rfl, rfl, events, sent, view⟩ := progress_hand progress running hand
    have told := delivered_update handled update
    rw [events, ← view, ← List.append_assoc, ← sent] at told
    simp only [ForwardAction.taken, List.append_nil]
    exact ⟨_, .grows (.update update) (congrArg Prod.fst told).symm,
      .between (congrArg Prod.fst told).symm fun _ => ⟨rfl, (congrArg Prod.snd told).symm⟩,
      marked_one f marked (.update update) _ (concluded_synced _ _)⟩
  | refused event rest listing hand =>
    obtain ⟨update, part, rfl, rfl, events, sent, view⟩ := progress_hand progress running hand
    refine ⟨_, .stays, ?_, marked⟩
    simp only [ForwardAction.taken, List.append_nil]
    exact .within update part _ (by simp) events sent nofun
  | shutdown idle =>
    obtain ⟨rfl, sent, view⟩ := progress_idle progress running idle
    simp only [ForwardAction.taken, List.append_nil]
    exact ⟨_, .stays, .between sent nofun, marked⟩
  | ended idle =>
    obtain ⟨rfl, sent, view⟩ := progress_idle progress running idle
    simp only [ForwardAction.taken, List.append_nil]
    exact ⟨_, .stays, .between sent nofun, marked⟩

/-- Nothing but an accepted event is ever added to the events that were sent. -/
theorem moves_sent (moves : Moves f action next) :
    (action ≠ .accept ∧ next.sent = f.sent) ∨
      ∃ event, action = .accept ∧ f.pending.head? = some event ∧ next.sent = f.sent ++ [event] := by
  cases moves with
  | accepted event rest listing more hand =>
    exact Or.inr ⟨event, rfl, by simp [pending, hand], rfl⟩
  | finished event listing hand => exact Or.inr ⟨event, rfl, by simp [pending, hand], rfl⟩
  | _ => exact Or.inl ⟨nofun, rfl⟩

end Forwarder
end StartupLatency
