import StartupLatency.Controller
import StartupLatency.Proofs.PassMoves

/-!
What one action of the controller can do. `Acts` lists it in full, over any world and any access to
it; whatever runs of the controller keep of one part of it follows from this list alone.
-/

namespace StartupLatency.Controller

theorem found_itself (runs : List RunningPass) (order : Nat) (run : RunningPass)
    (found : runs.find? (fun other => other.order = order) = some run) : run.order = order := by
  simpa using List.find?_some found

variable {σ : Type}

inductive Acts (access : StoreAccess σ) (readTakes : Nat) (c : Controller) (world : σ) :
    ControllerAction → Controller → σ → Prop where
  | refused (event : PodEvent) (rest : List PodEvent) (metrics : Metrics)
      (inbox : c.inbox = event :: rest) (refuses : c.settings.filter.admits event = false) :
      Acts access readTakes c world .takeEvent { c with inbox := rest, metrics := metrics } world
  | admitted (event : PodEvent) (rest : List PodEvent) (metrics : Metrics) (admission : Admission)
      (inbox : c.inbox = event :: rest) (admits : c.settings.filter.admits event = true) :
      Acts access readTakes c world .takeEvent
        { c with
          inbox := rest
          metrics := metrics
          admission := admission
          queue := (c.queue.enqueue .admission event.pod.key).2 } world
  | received (key : ObjectName) (sender : Option (Suspended QueueSender))
      (queue : WorkQueue QueueSender) (metrics : Metrics) (admission : Admission)
      (goesOn : c.dispatching = true) (free : c.held = none)
      (next : c.queue.next? = some (key, sender, queue)) :
      Acts access readTakes c world .receive
        { c with queue := queue, held := some key, metrics := metrics, admission := admission }
        world
  | started (key : ObjectName) (goesOn : c.dispatching = true) (held : c.held = some key)
      (room : c.running.length < c.limit) :
      Acts access readTakes c world .start
        { c with
          held := none
          running := c.running ++ [⟨c.order, key, .readingPod, c.now, c.now + readTakes⟩]
          order := c.order + 1 } world
  | advanced (run : RunningPass) (found : c.find? run.order = some run)
      (unfinished : run.pass.outcome? = none) :
      Acts access readTakes c world (.advance run.order)
        (c.replace run.order (run.pass.step access c.settings.policy run.key world).1)
        (run.pass.step access c.settings.policy run.key world).2
  | settled (run : RunningPass) (outcome : PassOutcome) (found : c.find? run.order = some run)
      (ended : run.pass = .ended outcome) :
      Acts access readTakes c world (.settle run.order)
        (((c.dropRun run.order).observeDuration (c.now - run.started)).handle run.key outcome)
        world
  | retried (entry : ScheduledRetry)
      (found : c.retries.find? (fun other => other.order = entry.order) = some entry) :
      Acts access readTakes c world (.retry entry.order)
        { c with
          retries := c.retries.filter fun other => other.order ≠ entry.order
          queue := (c.queue.enqueue .retry entry.key).2 } world

section Inversion

variable {access : StoreAccess σ} {readTakes : Nat} {c after : Controller} {world next : σ}

theorem take_event_acts (taken : c.takeEvent? = some after) :
    Acts access readTakes c world .takeEvent after world := by
  unfold takeEvent? at taken
  split at taken
  · rename_i event rest _ inbox
    dsimp only at taken
    split at taken
    · rename_i admits
      split at taken
      · rename_i queue enqueued
        cases taken
        have same : queue = (c.queue.enqueue .admission event.pod.key).2 := by rw [enqueued]
        rw [same]
        exact .admitted event rest _ _ inbox admits
      · rename_i queue _ enqueued
        cases taken
        have same : queue = (c.queue.enqueue .admission event.pod.key).2 := by rw [enqueued]
        rw [same]
        exact .admitted event rest _ _ inbox admits
    · rename_i refuses
      cases taken
      exact .refused event rest _ inbox (Bool.eq_false_iff.mpr refuses)
  · cases taken

theorem receive_acts (received : c.receive? = some after) :
    Acts access readTakes c world .receive after world := by
  unfold receive? at received
  split at received
  · rename_i free
    obtain ⟨goesOn, free⟩ := Bool.and_eq_true_iff.mp free
    have unheld : c.held = none := by simpa using free
    split at received
    · rename_i key sender queue next
      split at received <;> cases received <;> exact .received key _ queue _ _ goesOn unheld next
    · cases received
  · cases received

theorem start_acts (begun : c.start? readTakes = some after) :
    Acts access readTakes c world .start after world := by
  unfold start? at begun
  split at begun
  · rename_i key held
    split at begun
    · rename_i free
      obtain ⟨goesOn, room⟩ := Bool.and_eq_true_iff.mp free
      cases begun
      exact .started key goesOn held (of_decide_eq_true room)
    · cases begun
  · cases begun

theorem advance_acts (order : Nat)
    (performed : c.perform access readTakes (.advance order) world = some (after, next)) :
    Acts access readTakes c world (.advance order) after next := by
  simp only [perform] at performed
  split at performed
  · rename_i run found
    split at performed
    · cases performed
    · rename_i unfinished
      cases performed
      have itself : run.order = order := found_itself c.running order run found
      subst itself
      rcases run.pass.unfinished_or_ended with still | ⟨outcome, ended⟩
      · exact .advanced run found still
      · exact absurd ended (unfinished outcome)
  · cases performed

theorem settle_acts (order : Nat) (settled : c.settle? order = some after) :
    Acts access readTakes c world (.settle order) after world := by
  unfold settle? at settled
  split at settled
  · rename_i number key outcome started wakes found
    cases settled
    have itself : number = order := found_itself c.running order _ found
    subst itself
    exact .settled ⟨number, key, _, started, wakes⟩ outcome found rfl
  · cases settled

theorem retry_acts (order : Nat) (retried : c.retry? order = some after) :
    Acts access readTakes c world (.retry order) after world := by
  unfold retry? at retried
  split at retried
  · rename_i entry found
    cases retried
    have itself : entry.order = order := by simpa using List.find?_some found
    subst itself
    exact .retried entry found
  · cases retried

theorem perform_acts (action : ControllerAction)
    (performed : c.perform access readTakes action world = some (after, next)) :
    Acts access readTakes c world action after next := by
  cases action with
  | advance order => exact advance_acts order performed
  | takeEvent =>
    obtain ⟨_, taken, same⟩ := Option.map_eq_some_iff.mp performed
    cases same
    exact take_event_acts taken
  | receive =>
    obtain ⟨_, received, same⟩ := Option.map_eq_some_iff.mp performed
    cases same
    exact receive_acts received
  | start =>
    obtain ⟨_, begun, same⟩ := Option.map_eq_some_iff.mp performed
    cases same
    exact start_acts begun
  | settle order =>
    obtain ⟨_, settled, same⟩ := Option.map_eq_some_iff.mp performed
    cases same
    exact settle_acts order settled
  | retry order =>
    obtain ⟨_, retried, same⟩ := Option.map_eq_some_iff.mp performed
    cases same
    exact retry_acts order retried

end Inversion

end StartupLatency.Controller
