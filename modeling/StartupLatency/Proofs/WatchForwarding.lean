import Mathlib.Logic.Relation
import StartupLatency.Proofs.ForwarderMoves

/-!
A watch that is forwarded to a channel of some capacity. When items come, when the receiver takes an
event, when it goes away and when the shutdown comes is left open; other parts of the process report
their health to the same registry meanwhile. An endless watch is covered, since a run up to any
point has taken finitely many items.
-/

namespace StartupLatency

/-- A forwarded watch: the items to come, the forwarder, the events that wait in the channel, those
that its receiver took, and whether there still is a receiver. -/
structure Forwarding where
  stream : List WatchItem
  forwarder : Forwarder
  waiting : List PodEvent
  received : List PodEvent
  isOpen : Bool

namespace Forwarding

def start (items : List WatchItem) (registry : HealthRegistry) : Forwarding :=
  ⟨items, .start registry, [], [], true⟩

def synced (w : Forwarding) : Bool := w.forwarder.registry.synced

def sent (w : Forwarding) : List PodEvent := w.forwarder.sent

inductive Step (capacity : Nat) (w : Forwarding) : Forwarding → Prop where
  | take (item : WatchItem) (rest : List WatchItem) (next : Forwarder)
      (stream : w.stream = item :: rest) (does : w.forwarder.step? (.take item) = some next) :
      Step capacity w { w with stream := rest, forwarder := next }
  | accept (event : PodEvent) (next : Forwarder) (receives : w.isOpen = true)
      (room : w.waiting.length < capacity) (offered : w.forwarder.pending.head? = some event)
      (does : w.forwarder.step? .accept = some next) :
      Step capacity w { w with forwarder := next, waiting := w.waiting ++ [event] }
  | refuse (next : Forwarder) (closed : w.isOpen = false)
      (does : w.forwarder.step? .refuse = some next) :
      Step capacity w { w with forwarder := next }
  | shutdown (next : Forwarder) (does : w.forwarder.step? .shutdown = some next) :
      Step capacity w { w with forwarder := next }
  | ended (next : Forwarder) (stream : w.stream = [])
      (does : w.forwarder.step? .ended = some next) : Step capacity w { w with forwarder := next }
  | receive (event : PodEvent) (rest : List PodEvent) (waiting : w.waiting = event :: rest) :
      Step capacity w { w with waiting := rest, received := w.received ++ [event] }
  | close : Step capacity w { w with isOpen := false }
  | report (component : String) (health : ComponentHealth) :
      Step capacity w
        { w with
          forwarder :=
            { w.forwarder with registry := w.forwarder.registry.report component health } }

abbrev Reaches (capacity : Nat) : Forwarding → Forwarding → Prop :=
  Relation.ReflTransGen (Step capacity)

/-- What holds in the course of a run over these items, so many of which are handled. -/
structure Follows (items handled : List WatchItem) (w : Forwarding) : Prop where
  progress : ∃ taken, items = taken ++ w.stream ∧ Forwarder.Progress handled w.forwarder taken
  marked : Forwarder.Marked handled w.forwarder
  channel : w.sent = w.received ++ w.waiting

variable {capacity : Nat} {items handled : List WatchItem} {w next : Forwarding}

theorem start_follows (items : List WatchItem) (registry : HealthRegistry)
    (fresh : registry.synced = false) : Follows items [] (start items registry) where
  progress := ⟨[], rfl, .between rfl fun _ => ⟨rfl, rfl⟩⟩
  marked := fresh
  channel := rfl

/-- What the forwarder's own actions come to. -/
theorem forward_follows (follows : Follows items handled w) {action : ForwardAction}
    {forwarder : Forwarder} {rest : List WatchItem}
    (does : w.forwarder.step? action = some forwarder) (stream : w.stream = action.taken ++ rest) :
    ∃ later, Forwarder.Advances handled forwarder later ∧
      (∃ taken, items = taken ++ rest ∧ Forwarder.Progress later forwarder taken) ∧
      Forwarder.Marked later forwarder := by
  obtain ⟨running, moves⟩ := Forwarder.moves_of_step does
  obtain ⟨taken, order, progress⟩ := follows.progress
  obtain ⟨later, advances, further, marked⟩ :=
    Forwarder.moves_progress moves running progress follows.marked
  refine ⟨later, advances, ⟨_, ?_, further⟩, marked⟩
  rw [order, stream, List.append_assoc]

theorem forward_sent {action : ForwardAction} {forwarder : Forwarder}
    (does : w.forwarder.step? action = some forwarder) (other : action ≠ .accept) :
    forwarder.sent = w.sent := by
  rcases Forwarder.moves_sent (Forwarder.moves_of_step does).2 with ⟨_, same⟩ | ⟨_, accepts, _⟩
  · exact same
  · exact absurd accepts other

theorem accept_sent {event : PodEvent} {forwarder : Forwarder}
    (does : w.forwarder.step? .accept = some forwarder)
    (offered : w.forwarder.pending.head? = some event) : forwarder.sent = w.sent ++ [event] := by
  rcases Forwarder.moves_sent (Forwarder.moves_of_step does).2 with
    ⟨other, _⟩ | ⟨first, _, head, more⟩
  · exact absurd rfl other
  · rw [offered] at head
    cases head
    exact more

/-- An action that adds nothing to the channel. -/
theorem quiet_follows (follows : Follows items handled w) {action : ForwardAction}
    {forwarder : Forwarder} {rest : List WatchItem}
    (does : w.forwarder.step? action = some forwarder) (other : action ≠ .accept)
    (stream : w.stream = action.taken ++ rest) :
    ∃ later, Forwarder.Advances handled forwarder later ∧
      Follows items later { w with stream := rest, forwarder := forwarder } := by
  obtain ⟨later, advances, progress, marked⟩ := forward_follows follows does stream
  exact ⟨later, advances, progress, marked, (forward_sent does other).trans follows.channel⟩

theorem progress_reported {taken : List WatchItem} {f : Forwarder}
    (progress : Forwarder.Progress handled f taken) (registry : HealthRegistry) :
    Forwarder.Progress handled { f with registry := registry } taken := by
  cases progress with
  | between sent ready => exact .between sent ready
  | within update part rest more events sent ready =>
    exact .within update part rest more events sent ready

theorem step_follows (follows : Follows items handled w) (step : Step capacity w next) :
    ∃ later, Forwarder.Advances handled next.forwarder later ∧ Follows items later next := by
  cases step with
  | take item rest forwarder stream does => exact quiet_follows follows does nofun stream
  | accept event forwarder receives room offered does =>
    obtain ⟨later, advances, progress, marked⟩ := forward_follows follows does rfl
    refine ⟨later, advances, progress, marked, (accept_sent does offered).trans ?_⟩
    rw [follows.channel, List.append_assoc]
  | refuse forwarder closed does => exact quiet_follows follows does nofun rfl
  | shutdown forwarder does => exact quiet_follows follows does nofun rfl
  | ended forwarder stream does => exact quiet_follows follows does nofun rfl
  | receive event rest waiting =>
    refine ⟨handled, .stays, follows.progress, follows.marked, follows.channel.trans ?_⟩
    rw [waiting, List.append_assoc, List.singleton_append]
  | close => exact ⟨handled, .stays, follows.progress, follows.marked, follows.channel⟩
  | report component health =>
    obtain ⟨taken, order, progress⟩ := follows.progress
    exact ⟨handled, .stays, ⟨taken, order, progress_reported progress _⟩, follows.marked,
      follows.channel⟩

theorem advances_further {later : List WatchItem} {f : Forwarder}
    (advances : Forwarder.Advances handled f later) : handled <+: later := by
  cases advances with
  | stays => exact List.prefix_rfl
  | grows item => exact List.prefix_append _ _

theorem reaches_follows (follows : Follows items handled w) (reached : Reaches capacity w next) :
    ∃ later, handled <+: later ∧ Follows items later next := by
  induction reached with
  | refl => exact ⟨handled, List.prefix_rfl, follows⟩
  | tail _ step ih =>
    obtain ⟨between, before, former⟩ := ih
    obtain ⟨later, advances, after⟩ := step_follows former step
    exact ⟨later, before.trans (advances_further advances), after⟩

/-- Nothing is sent any more once the receiver is gone. -/
theorem closed_step (closed : w.isOpen = false) (step : Step capacity w next) :
    next.isOpen = false ∧ next.sent = w.sent := by
  cases step with
  | accept event forwarder receives => cases closed.symm.trans receives
  | take item rest forwarder stream does => exact ⟨closed, forward_sent does nofun⟩
  | refuse forwarder _ does => exact ⟨closed, forward_sent does nofun⟩
  | shutdown forwarder does => exact ⟨closed, forward_sent does nofun⟩
  | ended forwarder stream does => exact ⟨closed, forward_sent does nofun⟩
  | receive => exact ⟨closed, rfl⟩
  | close => exact ⟨rfl, rfl⟩
  | report => exact ⟨closed, rfl⟩

theorem closed_reaches (closed : w.isOpen = false) (reached : Reaches capacity w next) :
    next.isOpen = false ∧ next.sent = w.sent := by
  induction reached with
  | refl => exact ⟨closed, rfl⟩
  | tail _ step ih =>
    obtain ⟨still, same⟩ := closed_step ih.1 step
    exact ⟨still, same.trans ih.2⟩

/-! ## Events that were sent -/

theorem follows_cut (follows : Follows items handled w) :
    ∃ (cut? : Option WatchItem) (part : List PodEvent), items = handled ++ cut?.toList ++ w.stream ∧
      w.sent = (deliveredBy handled).1 ++ part ∧ (cut? = none → part = []) ∧
      ∀ item, cut? = some item →
        ∃ rest, rest ≠ [] ∧ (deliveredBy (handled ++ [item])).1 = w.sent ++ rest := by
  obtain ⟨taken, order, progress⟩ := follows.progress
  cases progress with
  | between sent ready =>
    refine ⟨none, [], ?_, sent.trans (List.append_nil _).symm, fun _ => rfl,
      fun _ same => by cases same⟩
    rw [Option.toList_none, List.append_nil, order]
  | within update part rest more events sent ready =>
    refine ⟨some (.update update), part, order, sent, nofun, fun item same => ?_⟩
    cases same
    refine ⟨rest, more, ?_⟩
    rw [delivered_update, events, ← List.append_assoc]
    exact congrArg (· ++ rest) sent.symm

theorem handled_sent (follows : Follows items handled w) : (deliveredBy handled).1 <+: w.sent := by
  obtain ⟨cut?, part, _, sent, _⟩ := follows_cut follows
  exact ⟨part, sent.symm⟩

theorem sent_of_items (follows : Follows items handled w) : w.sent <+: (deliveredBy items).1 := by
  obtain ⟨cut?, part, order, sent, whole, left⟩ := follows_cut follows
  rw [order]
  cases cut? with
  | none =>
    rw [sent, whole rfl, List.append_nil, Option.toList_none, List.append_nil]
    exact delivered_mono (List.prefix_append handled w.stream)
  | some item =>
    obtain ⟨rest, _, events⟩ := left item rfl
    have further := delivered_mono (List.prefix_append (handled ++ [item]) w.stream)
    rw [events] at further
    exact (List.prefix_append _ _).trans further

theorem handled_items (follows : Follows items handled w) : handled <+: items := by
  obtain ⟨cut?, _, order, _⟩ := follows_cut follows
  rw [order, List.append_assoc]
  exact List.prefix_append _ _

/-! ## Listings -/

theorem listing_restarted (item : WatchItem) (listing : item.isListing = true) :
    ∃ pods sweep, item = .update (.restarted pods sweep) := by
  cases item with
  | fault => cases listing
  | update update =>
    cases update with
    | restarted pods sweep => exact ⟨pods, sweep, rfl⟩
    | _ => cases listing

/-- The flag stands for the first listing, which has been handled. -/
theorem synced_iff (follows : Follows items handled w) :
    w.synced = true ↔ ∃ before pods sweep after,
      handled = before ++ .update (.restarted pods sweep) :: after ∧
      ∀ item ∈ before, item.isListing = false := by
  rw [synced, follows.marked]
  constructor
  · intro listed
    rw [← List.isSome_find?] at listed
    obtain ⟨item, found⟩ := Option.isSome_iff_exists.mp listed
    obtain ⟨listing, before, after, order, others⟩ := List.find?_eq_some_iff_append.mp found
    obtain ⟨pods, sweep, rfl⟩ := listing_restarted item listing
    exact ⟨before, pods, sweep, after, order, fun item member => by simpa using others item member⟩
  · rintro ⟨before, pods, sweep, after, rfl, _⟩
    rw [List.any_append, List.any_cons]
    exact Bool.or_eq_true_iff.mpr (Or.inr rfl)

theorem set_at_listing (follows : Follows items handled w) (step : Step capacity w next)
    (unset : w.synced = false) (set : next.synced = true) :
    ∃ before pods sweep, before ++ [.update (.restarted pods sweep)] <+: items ∧
      next.sent = (deliveredBy (before ++ [.update (.restarted pods sweep)])).1 := by
  obtain ⟨later, advances, after⟩ := step_follows follows step
  have marked := after.marked
  rw [Forwarder.Marked, show next.forwarder.registry.synced = true from set] at marked
  cases advances with
  | stays =>
    rw [← follows.marked, show w.forwarder.registry.synced = false from unset] at marked
    cases marked
  | grows item sent =>
    rw [List.any_append, ← follows.marked, show w.forwarder.registry.synced = false from unset,
      List.any_cons, List.any_nil, Bool.or_false, Bool.false_or] at marked
    obtain ⟨pods, sweep, rfl⟩ := listing_restarted item marked.symm
    exact ⟨handled, pods, sweep, handled_items after, sent⟩

theorem set_stays (follows : Follows items handled w) (reached : Reaches capacity w next)
    (set : w.synced = true) : next.synced = true := by
  obtain ⟨later, ⟨more, rfl⟩, after⟩ := reaches_follows follows reached
  obtain ⟨before, pods, sweep, rest, rfl, others⟩ := (synced_iff follows).mp set
  refine (synced_iff after).mpr ⟨before, pods, sweep, rest ++ more, ?_, others⟩
  rw [List.append_assoc, List.cons_append]

theorem silent_listing (view : PodView) (pods : List Pod) (sweep : List ObjectName)
    (silent : (view.translate (.restarted pods sweep)).1 = []) : pods = [] ∧ view = ∅ := by
  obtain ⟨gone, applied⟩ := List.append_eq_nil_iff.mp silent
  have shown := (PodView.apply_all_shows (view.remaining pods) pods).1
  rw [applied, List.map_nil] at shown
  subst shown
  refine ⟨rfl, SortedMap.ext_find? fun key => ?_⟩
  cases held : view.find? key with
  | none => rfl
  | some pod =>
    have vanished : pod ∈ (view.vanished []).values :=
      (SortedMap.mem_values _ pod).mpr ⟨key, (PodView.find_vanished view [] key).trans held⟩
    rw [← (PodView.swept_perm sweep _).mem_iff, List.map_eq_nil_iff.mp gone] at vanished
    cases vanished

/-- Where no listing is handled yet, what is handled comes before the first one. -/
theorem handled_before {handled before later : List WatchItem} {listing : WatchItem}
    (first : before ++ [listing] <+: later) (grown : handled <+: later)
    (is_listing : listing.isListing = true) (none : handled.any WatchItem.isListing = false) :
    handled <+: before := by
  have absent : listing ∉ handled := fun member =>
    Bool.false_ne_true (none.symm.trans (List.any_eq_true.mpr ⟨listing, member, is_listing⟩))
  rcases List.prefix_or_prefix_of_prefix grown first with early | beyond
  · rcases List.prefix_concat_iff.mp early with rfl | early
    · exact absurd (List.mem_append_right _ List.mem_cons_self) absent
    · exact early
  · exact absurd (beyond.subset (List.mem_append_right _ List.mem_cons_self)) absent

/-- A receiver that goes away before the first listing is handled leaves the flag unset, but for a
listing that has nothing to hand over. -/
theorem set_behind_closed (follows : Follows items handled w) (reached : Reaches capacity w next)
    (closed : w.isOpen = false) (unset : w.synced = false) (set : next.synced = true) :
    ∃ before sweep after, items = before ++ .update (.restarted [] sweep) :: after ∧
      (∀ item ∈ before, item.isListing = false) ∧ (deliveredBy before).2 = ∅ := by
  obtain ⟨later, grown, after⟩ := reaches_follows follows reached
  obtain ⟨before, pods, sweep, rest, order, others⟩ := (synced_iff after).mp set
  have first : before ++ [.update (.restarted pods sweep)] <+: later :=
    ⟨rest, by rw [order, List.append_assoc, List.singleton_append]⟩
  have early : handled <+: before :=
    handled_before first grown rfl (follows.marked.symm.trans unset)
  -- Whatever was sent when the receiver went away is all that is ever sent.
  have all_sent : (deliveredBy (before ++ [.update (.restarted pods sweep)])).1 <+: w.sent := by
    rw [← (closed_reaches closed reached).2]
    exact (delivered_mono first).trans (handled_sent after)
  obtain ⟨cut?, part, parts, sent, whole, left⟩ := follows_cut follows
  cases cut? with
  | none =>
    rw [sent, whole rfl, List.append_nil, delivered_update] at all_sent
    have silent : ((deliveredBy before).2.translate (.restarted pods sweep)).1 = [] := by
      have bound := all_sent.length_le
      have least := (delivered_mono early).length_le
      rw [List.length_append] at bound
      exact List.length_eq_zero_iff.mp (by omega)
    obtain ⟨rfl, blank⟩ := silent_listing _ pods sweep silent
    obtain ⟨more, total⟩ := first.trans (handled_items after)
    refine ⟨before, sweep, more, ?_, others, blank⟩
    rw [← total, List.append_assoc, List.singleton_append]
  | some item =>
    obtain ⟨unsent, more, events⟩ := left item rfl
    have cut : handled ++ [item] <+: before ++ [.update (.restarted pods sweep)] := by
      refine List.prefix_of_prefix_length_le ⟨w.stream, parts.symm⟩
        (first.trans (handled_items after)) ?_
      have shorter := early.length_le
      simpa using shorter
    have bound := ((delivered_mono cut).trans all_sent).length_le
    rw [events, List.length_append] at bound
    exact absurd (List.length_eq_zero_iff.mp (show unsent.length = 0 by omega)) more

theorem listing_shown (view : PodView) (pods : List Pod) (sweep : List ObjectName) (pod : Pod)
    (listed : pod ∈ pods) :
    ∃ event ∈ (view.translate (.restarted pods sweep)).1, event.pod = pod ∧
      ∀ gone, event ≠ .deleted gone := by
  obtain ⟨shown, alive⟩ := PodView.apply_all_shows (view.remaining pods) pods
  rw [← shown] at listed
  obtain ⟨event, member, rfl⟩ := List.mem_map.mp listed
  exact ⟨event, List.mem_append_right _ member, rfl, alive event member⟩

theorem ready_synced (registry : HealthRegistry) (ready : registry.readiness.ready = true) :
    registry.synced = true := by
  cases synced : registry.synced with
  | true => rfl
  | false => simp [HealthRegistry.readiness, synced] at ready

theorem ready_listed (follows : Follows items handled w)
    (ready : w.forwarder.registry.readiness.ready = true) :
    ∃ before pods sweep after, items = before ++ .update (.restarted pods sweep) :: after ∧
      (∀ item ∈ before, item.isListing = false) ∧
      (deliveredBy (before ++ [.update (.restarted pods sweep)])).1 <+: w.sent ∧
      ∀ pod ∈ pods, ∃ event ∈ w.sent, event.pod = pod ∧ ∀ gone, event ≠ .deleted gone := by
  obtain ⟨before, pods, sweep, rest, order, others⟩ :=
    (synced_iff follows).mp (ready_synced w.forwarder.registry ready)
  have first : before ++ [.update (.restarted pods sweep)] <+: handled :=
    ⟨rest, by rw [order, List.append_assoc, List.singleton_append]⟩
  have all_sent := (delivered_mono first).trans (handled_sent follows)
  obtain ⟨more, total⟩ := first.trans (handled_items follows)
  refine ⟨before, pods, sweep, more, ?_, others, all_sent, fun pod listed => ?_⟩
  · rw [← total, List.append_assoc, List.singleton_append]
  · obtain ⟨event, member, shows, alive⟩ := listing_shown (deliveredBy before).2 pods sweep pod listed
    rw [delivered_update] at all_sent
    exact ⟨event, all_sent.subset (List.mem_append_right _ member), shows, alive⟩

/-- At any point of a run, the events that were sent are those of the items handled so far and part
of the next item's, in order. The flag is set when all events of a listing have been sent, and for
good. Behind a receiver that has gone away it is set only if the first listing has no events. A
process that is ready has sent every pod of the first listing. -/
theorem forwards_in_order (capacity : Nat) (items : List WatchItem) (registry : HealthRegistry)
    (fresh : registry.synced = false) (w : Forwarding)
    (reached : Reaches capacity (start items registry) w) :
    (w.sent <+: (deliveredBy items).1 ∧ w.sent = w.received ++ w.waiting ∧
        ∃ (handled : List WatchItem) (cut? : Option WatchItem) (part : List PodEvent),
          items = handled ++ cut?.toList ++ w.stream ∧
          w.sent = (deliveredBy handled).1 ++ part ∧ (cut? = none → part = []) ∧
          ∀ item, cut? = some item →
            ∃ rest, rest ≠ [] ∧ (deliveredBy (handled ++ [item])).1 = w.sent ++ rest) ∧
      (∀ next, Step capacity w next → w.synced = false → next.synced = true →
        ∃ before pods sweep, before ++ [.update (.restarted pods sweep)] <+: items ∧
          next.sent = (deliveredBy (before ++ [.update (.restarted pods sweep)])).1) ∧
      (∀ next, Reaches capacity w next → w.synced = true → next.synced = true) ∧
      (∀ next, Reaches capacity w next → w.isOpen = false → w.synced = false →
        next.synced = true →
        ∃ before sweep after, items = before ++ .update (.restarted [] sweep) :: after ∧
          (∀ item ∈ before, item.isListing = false) ∧ (deliveredBy before).2 = ∅) ∧
      (w.forwarder.registry.readiness.ready = true →
        ∃ before pods sweep after, items = before ++ .update (.restarted pods sweep) :: after ∧
          (∀ item ∈ before, item.isListing = false) ∧
          (deliveredBy (before ++ [.update (.restarted pods sweep)])).1 <+: w.sent ∧
          ∀ pod ∈ pods, ∃ event ∈ w.sent, event.pod = pod ∧ ∀ gone, event ≠ .deleted gone) := by
  obtain ⟨handled, _, follows⟩ := reaches_follows (start_follows items registry fresh) reached
  exact ⟨⟨sent_of_items follows, follows.channel, handled, follows_cut follows⟩,
    fun next => set_at_listing follows, fun next => set_stays follows,
    fun next => set_behind_closed follows, ready_listed follows⟩

/-- One pod is listed, and the channel has room for its event. -/
theorem one_pod_forwarded :
    ∃ w next, Reaches 1 (start [.update (.restarted [default] [])] .empty) w ∧ Step 1 w next ∧
      w.synced = false ∧ next.forwarder.registry.readiness.ready = true ∧
      (∃ before pods sweep,
        before ++ [.update (.restarted pods sweep)] <+: [.update (.restarted [default] [])] ∧
        next.sent = (deliveredBy (before ++ [.update (.restarted pods sweep)])).1) ∧
      ∃ event ∈ next.sent, event.pod = default := by
  obtain ⟨w, taken, next, step, unset, ready⟩ :
      ∃ w, Reaches 1 (start [.update (.restarted [default] [])] .empty) w ∧ ∃ next, Step 1 w next ∧
        w.synced = false ∧ next.forwarder.registry.readiness.ready = true :=
    ⟨_, .tail .refl (.take _ [] _ rfl rfl), _,
      .accept (.created default) _ rfl (by decide) rfl rfl, rfl, by decide⟩
  obtain ⟨_, set, _⟩ := forwards_in_order 1 _ .empty rfl w taken
  obtain ⟨_, _, _, _, listed⟩ := forwards_in_order 1 _ .empty rfl next (taken.tail step)
  refine ⟨w, next, taken, step, unset, ready, set next step unset (ready_synced _ ready), ?_⟩
  obtain ⟨before, pods, sweep, after, order, _, _, shown⟩ := listed ready
  cases before with
  | nil =>
    cases order
    obtain ⟨event, member, shows, _⟩ := shown default List.mem_cons_self
    exact ⟨event, member, shows⟩
  | cons first before => simp at order

/-- The flag is not set where the receiver goes away while the first listing is still to come. -/
def StaysUnset : Prop :=
  ∀ capacity items w next, Reaches capacity (start items .empty) w → w.isOpen = false →
    w.synced = false → (∃ item ∈ w.stream, item.isListing = true) → Reaches capacity w next →
    next.synced = false

/-- A listing without pods needs no receiver. -/
theorem empty_listing_sets : ¬ StaysUnset := by
  intro stays
  have unset := stays 1 [.update (.restarted [] [])] _ _ (.tail .refl .close) rfl rfl
    ⟨_, List.mem_cons_self, rfl⟩ (.tail .refl (.take _ [] _ rfl rfl))
  cases unset

end Forwarding
end StartupLatency
