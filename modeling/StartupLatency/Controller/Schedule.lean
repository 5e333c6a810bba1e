import StartupLatency.Controller
/-!
The controller in virtual time. Whatever can go on does so before time passes; work that becomes
ready at one moment goes on in the order in which it was started, ahead of the admission of events
and the dispatch of keys.
-/

namespace StartupLatency

inductive Activity where
  | podRead (time : Nat) (key : ObjectName)
  | recordCall (time : Nat) (call : Pass.RecordCall)
deriving DecidableEq

structure Simulation (σ : Type) where
  controller : Controller
  world : σ
  readTakes : Nat
  trace : List Activity

structure Due where
  time : Nat
  order : Nat
  action : ControllerAction
deriving DecidableEq

namespace Due

-- The earlier of two pieces of work; at one time the one that was started first.
def first (a b : Due) : Due :=
  if a.time < b.time || (a.time == b.time && a.order ≤ b.order) then a else b

end Due

namespace Controller

def dueOfRun (run : RunningPass) : Due :=
  match run.pass with
  | .ended _ => ⟨run.wakes, run.order, .settle run.order⟩
  | _ => ⟨run.wakes, run.order, .advance run.order⟩

def dueOfRetry (entry : ScheduledRetry) : Due := ⟨entry.due, entry.order, .retry entry.order⟩

def firstDue? (c : Controller) : Option Due :=
  (c.running.map dueOfRun ++ c.retries.map dueOfRetry).foldl
    (fun best due => some (best.elim due fun best => best.first due)) none

def ready? (c : Controller) : Option ControllerAction :=
  match c.firstDue? with
  | some due => if due.time ≤ c.now then some due.action else parts
  | none => parts
where
  parts : Option ControllerAction :=
    if c.takeEvent?.isSome then some .takeEvent
    else if c.receive?.isSome then some .receive
    else if (c.start? 0).isSome then some .start
    else none

def activity (c : Controller) : ControllerAction → List Activity
  | .start => c.held.toList.map fun key => .podRead c.now key
  | .advance order =>
    ((c.find? order).bind fun run => run.pass.recordCall?).toList.map fun call =>
      .recordCall c.now call
  | _ => []

end Controller

namespace Simulation

def start (settings : ControllerSettings) (readTakes : Nat) (world : σ) : Simulation σ :=
  ⟨.initial settings .empty, world, readTakes, []⟩

def onController (f : Controller → Controller) (sim : Simulation σ) : Simulation σ :=
  { sim with controller := f sim.controller }

def settle (access : StoreAccess σ) (fuel : Nat) (sim : Simulation σ) : Simulation σ :=
  match fuel with
  | 0 => sim
  | fuel + 1 =>
    match sim.controller.ready? with
    | none => sim
    | some action =>
      match sim.controller.perform access sim.readTakes action sim.world with
      | none => sim
      | some (controller, world) =>
        settle access fuel
          { sim with
            controller := controller
            world := world
            trace := sim.trace ++ sim.controller.activity action }

def passTo (access : StoreAccess σ) (fuel : Nat) (time : Nat) (sim : Simulation σ) :
    Simulation σ :=
  match fuel with
  | 0 => sim
  | fuel + 1 =>
    match sim.controller.firstDue? with
    | some due =>
      if due.time ≤ time then
        passTo access fuel time
          ((sim.onController fun c => { c with now := max c.now due.time }).settle access (fuel + 1))
      else sim.onController fun c => { c with now := time }
    | none => sim.onController fun c => { c with now := time }

end Simulation
end StartupLatency
