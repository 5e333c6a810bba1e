import StartupLatency.Proofs.ControllerActions
import StartupLatency.Proofs.WaitingKeys

/-!
Runs of the controller over the stores in memory, up to its shutdown. A move is an action of the
controller, or something that happens to it: a pod changes, an event is sent, time passes. A call
of a store may fail with an error of the backend. The log of a run holds what bears on the records,
newest first; it is derived from what the moves show and decides nothing.
-/

namespace StartupLatency

/-- Stores that their own calls have built, with any pods and records in them. -/
inductive Stores.Built : Stores → Prop where
  | empty : Built .empty
  | upsert (stores : Stores) (pod : Pod) (built : Built stores) :
      Built { stores with pods := stores.pods.upsert pod }
  | create (stores : Stores) (record : Record) (built : Built stores) :
      Built { stores with records := (stores.records.create record).2 }
  | update (stores : Stores) (record : Record) (built : Built stores) :
      Built { stores with records := (stores.records.update record).2 }

theorem Stores.built_sound (stores : Stores) (built : stores.Built) : stores.records.Sound := by
  induction built with
  | empty => exact RecordStore.sound_empty
  | upsert stores pod built sound => exact sound
  | create stores record built sound => exact RecordStore.sound_create _ record sound
  | update stores record built sound => exact RecordStore.sound_update _ record sound

theorem PodStore.upsert_filed (store : PodStore) (pod : Pod)
    (filed : ∀ key pod, store.pods.find? key = some pod → pod.key = key) :
    ∀ key found, (store.upsert pod).pods.find? key = some found → found.key = key := by
  intro key found stored
  rw [upsert, SortedMap.find?_insert] at stored
  split at stored
  · rename_i same
    cases stored
    exact same.symm
  · exact filed key found stored

-- Every pod is stored under its own key.
theorem Stores.built_filed (stores : Stores) (built : stores.Built) :
    ∀ key pod, stores.pods.pods.find? key = some pod → pod.key = key := by
  induction built with
  | empty =>
    intro key pod found
    cases (show none = some pod from found)
  | upsert stores pod built filed => exact PodStore.upsert_filed stores.pods pod filed
  | create stores record built filed => exact filed
  | update stores record built filed => exact filed

inductive Happening where
  | changed (pod : Pod)
  | admitted (key : ObjectName)
  | read (order : Nat) (pod : Pod)
  | wrote (order : Nat) (key : ObjectName)

def Pass.shows (order : Nat) : Pass → List Happening
  | .readingRecord pod => [.read order pod]
  | .ended (.done (.created record)) => [.wrote order record.key]
  | .ended (.done (.updated record)) => [.wrote order record.key]
  | _ => []

-- A pass shows reads and writes alone, under its own number.
theorem Pass.mem_shows (pass : Pass) (order : Nat) (happening : Happening)
    (member : happening ∈ pass.shows order) :
    (∃ pod, happening = .read order pod ∧ pass = .readingRecord pod) ∨
      ∃ key, happening = .wrote order key := by
  unfold shows at member
  split at member
  · exact Or.inl ⟨_, List.mem_singleton.mp member, rfl⟩
  · exact Or.inr ⟨_, List.mem_singleton.mp member⟩
  · exact Or.inr ⟨_, List.mem_singleton.mp member⟩
  · cases member

namespace Controller

def shows (before : Controller) (action : ControllerAction) (after : Controller) : List Happening :=
  match action, before.inbox with
  | .takeEvent, event :: _ =>
    if before.settings.filter.admits event then [.admitted event.pod.key] else []
  | .advance order, _ => ((after.find? order).map fun run => run.pass.shows order).getD []
  | _, _ => []

/-- Nothing is left to do: no key waits in the queue, before it or for its pass, no pass is in
progress, and none is to be made again. -/
structure Quiet (c : Controller) : Prop where
  waiting : c.queue.waiting = []
  held : c.held = none
  running : c.running = []
  retries : c.retries = []

instance (c : Controller) : Decidable c.Quiet :=
  decidable_of_iff (c.queue.waiting = [] ∧ c.held = none ∧ c.running = [] ∧ c.retries = [])
    ⟨fun ⟨waiting, held, running, retries⟩ => ⟨waiting, held, running, retries⟩,
      fun quiet => ⟨quiet.waiting, quiet.held, quiet.running, quiet.retries⟩⟩

end Controller

inductive RunMove where
  | upsert (pod : Pod)
  | send (event : PodEvent)
  | closeInbox
  | wait (millis : Nat)
  -- An action of the controller. If it is a store call, the backend may be in trouble.
  | act (action : ControllerAction) (trouble : Option String) (readTakes : Nat)

structure ControllerRun where
  controller : Controller
  stores : Stores
  log : List Happening

namespace ControllerRun

def start (settings : ControllerSettings) (health : HealthRegistry) (stores : Stores) :
    ControllerRun :=
  ⟨.initial settings health, stores, []⟩

-- One move; an action that cannot be taken leaves the run as it is.
def after (run : ControllerRun) : RunMove → ControllerRun
  | .upsert pod =>
    { run with
      stores := { run.stores with pods := run.stores.pods.upsert pod }
      log := if run.stores.pods.pods.find? pod.key = some pod then run.log
        else .changed pod :: run.log }
  | .send event => { run with controller := run.controller.send event }
  | .closeInbox => { run with controller := run.controller.closeInbox }
  | .wait millis =>
    { run with controller := { run.controller with now := run.controller.now + millis } }
  | .act action trouble readTakes =>
    match run.controller.perform (Stores.answering (trouble.map .backend)) readTakes action
        run.stores with
    | some (controller, stores) =>
      ⟨controller, stores, run.controller.shows action controller ++ run.log⟩
    | none => run

def replay (moves : List RunMove) (run : ControllerRun) : ControllerRun := moves.foldl after run

end ControllerRun

/-- The work that a controller has at hand. Clocks, counts and reports are no part of it. -/
structure Workload where
  policy : Policy
  queue : WorkQueue QueueSender
  held : Option ObjectName
  running : List RunningPass
  retries : List ScheduledRetry
  order : Nat

def Controller.workload (c : Controller) : Workload :=
  ⟨c.settings.policy, c.queue, c.held, c.running, c.retries, c.order⟩

namespace Workload

/-- All that an action can do to the work at hand and to the stores, and what it shows. -/
inductive Turns : Workload → Stores → Workload → Stores → List Happening → Prop where
  | dropped {load : Workload} {stores : Stores} : Turns load stores load stores []
  | admitted {load : Workload} {stores : Stores} (key : ObjectName) :
      Turns load stores { load with queue := (load.queue.enqueue .admission key).2 } stores
        [.admitted key]
  | received {load : Workload} {stores : Stores} (key : ObjectName)
      (sender : Option (Suspended QueueSender)) (queue : WorkQueue QueueSender)
      (free : load.held = none) (next : load.queue.next? = some (key, sender, queue)) :
      Turns load stores { load with queue := queue, held := some key } stores []
  | started {load : Workload} {stores : Stores} (key : ObjectName) (begun wakes : Nat)
      (held : load.held = some key) :
      Turns load stores
        { load with
          held := none
          running := load.running ++ [⟨load.order, key, .readingPod, begun, wakes⟩]
          order := load.order + 1 } stores []
  | advanced {load : Workload} {stores : Stores} (run : RunningPass) (next : Pass) (after : Stores)
      (trouble : Option String)
      (found : load.running.find? (fun other => other.order = run.order) = some run)
      (unfinished : run.pass.outcome? = none)
      (moves : Pass.Moves load.policy run.key (trouble.map .backend) run.pass stores next after) :
      Turns load stores
        { load with
          running := load.running.map fun other =>
            if other.order = run.order then { other with pass := next } else other } after
        (next.shows run.order)
  | finished {load : Workload} {stores : Stores} (run : RunningPass) (work : PassWork)
      (found : load.running.find? (fun other => other.order = run.order) = some run)
      (ended : run.pass = .ended (.done work)) :
      Turns load stores
        { load with running := load.running.filter fun other => other.order ≠ run.order } stores []
  | givenBack {load : Workload} {stores : Stores} (run : RunningPass) (due : Nat)
      (found : load.running.find? (fun other => other.order = run.order) = some run) :
      Turns load stores
        { load with
          running := load.running.filter fun other => other.order ≠ run.order
          retries := load.retries ++ [⟨load.order, run.key, due⟩]
          order := load.order + 1 } stores []
  | retried {load : Workload} {stores : Stores} (entry : ScheduledRetry)
      (found : load.retries.find? (fun other => other.order = entry.order) = some entry) :
      Turns load stores
        { load with
          retries := load.retries.filter fun other => other.order ≠ entry.order
          queue := (load.queue.enqueue .retry entry.key).2 } stores []

end Workload

namespace Controller

variable {c after : Controller} {stores world : Stores}

-- Replacing a pass keeps the numbers, so it is found where the old one was.
theorem find_replace (order : Nat) (run : RunningPass) (next : Pass)
    (found : c.find? order = some run) :
    (c.replace order next).find? order = some { run with pass := next } := by
  have itself : run.order = order := found_itself c.running order run found
  have numbers : ((fun other : RunningPass => decide (other.order = order)) ∘ fun other =>
      if other.order = order then { other with pass := next } else other) =
      fun other => decide (other.order = order) := by
    funext other
    simp only [Function.comp_apply]
    split <;> rfl
  unfold find? at found
  simp only [find?, replace, List.find?_map, numbers, found, Option.map_some, itself, if_true]

/-- Whatever a controller does, it does to its work at hand and to the stores in one of the listed
ways. -/
theorem perform_turns (action : ControllerAction) (trouble : Option String) (readTakes : Nat)
    (performed : c.perform (Stores.answering (trouble.map .backend)) readTakes action stores =
      some (after, world)) :
    Workload.Turns c.workload stores after.workload world (c.shows action after) := by
  cases perform_acts action performed with
  | refused event rest metrics inbox refuses =>
    simp only [shows, inbox, refuses]
    exact .dropped
  | admitted event rest metrics admission inbox admits =>
    simp only [shows, inbox, admits]
    exact .admitted event.pod.key
  | received key sender queue metrics admission goesOn free next =>
    exact .received key sender queue free next
  | started key goesOn held room => exact .started key c.now (c.now + readTakes) held
  | advanced run found unfinished =>
    have moves := Pass.step_moves c.settings.policy run.key (trouble.map .backend) run.pass stores
    simp only [shows, find_replace run.order run _ found, Option.map_some, Option.getD_some]
    exact .advanced run _ _ trouble found unfinished moves
  | settled run outcome found ended =>
    cases outcome with
    | done work => exact .finished run work found ended
    | requeue => exact .givenBack run _ found
    | failed error => exact .givenBack run _ found
  | retried entry found => exact .retried entry found

end Controller

namespace ControllerRun

def load (run : ControllerRun) : Workload := run.controller.workload

/-- Every move but the change of a pod is a turn of the work at hand. -/
theorem after_turns (run : ControllerRun) (move : RunMove) :
    (∃ pod, move = .upsert pod) ∨
    ∃ shown,
      Workload.Turns run.load run.stores (run.after move).load (run.after move).stores shown ∧
      (run.after move).log = shown ++ run.log := by
  cases move with
  | upsert pod => exact Or.inl ⟨pod, rfl⟩
  | send event =>
    have same : (run.controller.send event).workload = run.load := by
      unfold Controller.send
      split <;> rfl
    exact Or.inr ⟨[], by simpa only [after, load, same] using .dropped, rfl⟩
  | closeInbox => exact Or.inr ⟨[], .dropped, rfl⟩
  | wait millis => exact Or.inr ⟨[], .dropped, rfl⟩
  | act action trouble readTakes =>
    simp only [after]
    split
    · rename_i controller world performed
      exact Or.inr ⟨_, Controller.perform_turns action trouble readTakes performed, rfl⟩
    · exact Or.inr ⟨[], .dropped, rfl⟩

end ControllerRun
end StartupLatency
