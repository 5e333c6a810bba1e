import StartupLatency.Cluster.Scripted
import StartupLatency.Cluster.Watch
import StartupLatency.Controller.Config
import StartupLatency.Controller.Schedule
import StartupLatency.Process
/-!
The controller's process: the configuration, the watch of a cluster's pods, and the controller that
its events are sent to, with the log of them all. The watch goes on until it waits for an answer;
then the passes go on, time passing only when nothing else can, until the process is interrupted.
-/

namespace StartupLatency

structure ControllerProcess (σ : Type) where
  controller : Controller
  world : σ
  logs : List LogLine

namespace ControllerProcess

def origin : String := "datapath_controller"

def source : String := "datapath-controller"

def controllerSource : String := "controller"

def passSource : String := "reconciler"

def say (message : String) (fields : List (String × Json)) : LogLine :=
  ⟨.info, origin, message, fields⟩

def policyTitle : Policy → String
  | .firstWriteWins => "FirstWriteWins"
  | .overwriteOnChange => "OverwriteOnChange"

def configuredLine (config : ControllerConfig) : LogLine :=
  say "Controller configured"
    [("namespace", .str (config.ns?.getD "<all>")), ("selector", .str config.selector.text),
      ("policy", .str (policyTitle config.policy))]

def serverFailedLine : LogLine :=
  ⟨.error, origin, "API server failed",
    [("error", .str "Address already in use (os error 98)")]⟩

def outcomeLine? (c : Controller) (key : ObjectName) : PassOutcome → Option LogLine
  | .done (.created record) => some ((ObserverEvent.recordCreated record).line passSource)
  | .done (.updated record) => some ((ObserverEvent.recordUpdated record).line passSource)
  | .failed error =>
    let delay := c.settings.backoff.delay (c.failuresAfter key)
    some ((ObserverEvent.passFailed key (Pass.failureText key error) delay.millis).line
      controllerSource)
  | _ => none

def actionLine? (c : Controller) : ControllerAction → Option LogLine
  | .settle order => do
    let run ← c.find? order
    outcomeLine? c run.key (← run.pass.outcome?)
  | _ => none

-- Milliseconds for which a process is looked at.
def horizon : Nat := 3600000

/-- A pass whose request gets no answer goes on after the horizon only. -/
def stall (c : Controller) : ControllerAction → Controller
  | .advance order =>
    { c with
      running := c.running.map fun run =>
        if run.order = order then { run with wakes := horizon + 1 } else run }
  | _ => c

def step? (inquiry : Cluster.Inquiry σ) (process : ControllerProcess σ) :
    Option (ControllerProcess σ) := do
  let c := process.controller
  let action ← c.ready?
  let (next, world, stalled) ← c.perform inquiry.link.access 0 action (process.world, false)
  pure ⟨if stalled then stall c action else next, world,
    process.logs ++ (actionLine? c action).toList⟩

/-- Go on until an interrupt, which comes when nothing else can go on at the time; the fuel bounds
the number of actions. -/
def run (inquiry : Cluster.Inquiry σ) (interrupted : List LogLine → σ → Bool) (fuel : Nat)
    (process : ControllerProcess σ) : ControllerProcess σ :=
  match fuel with
  | 0 => process
  | fuel + 1 =>
    match process.step? inquiry with
    | some process => run inquiry interrupted fuel process
    | none =>
      if interrupted process.logs process.world then process
      else
        match process.controller.firstDue? with
        | some due =>
          if due.time ≤ horizon then
            run inquiry interrupted fuel
              { process with
                controller := { process.controller with
                  now := max process.controller.now due.time } }
          else process
        | none => process

def watchFuel : Nat := 400

def actionFuel : Nat := 20000

def registry : HealthRegistry :=
  [HealthRegistry.podWatcher, HealthRegistry.reconciler, HealthRegistry.queryServer].foldl
    (fun registry name => registry.report name .healthy) .empty

def serve (config : ControllerConfig) (logs : List LogLine) (inquiry : Cluster.Inquiry σ)
    (interrupted : List LogLine → σ → Bool) (world : σ) : ControllerProcess σ :=
  let watch := (Cluster.PodWatch.start registry world).run inquiry config.scope true watchFuel
  let controller := watch.forwarder.sent.foldl Controller.send
    (.initial config.settings watch.forwarder.registry)
  (ControllerProcess.mk controller watch.world logs).run inquiry interrupted actionFuel

/-- The process from its environment on. Without a cluster it ends at once; a port that is taken is
reported only. -/
def process (given : Variables) (clustered portTaken : Bool) (inquiry : Cluster.Inquiry σ)
    (interrupted : List LogLine → σ → Bool) (world : σ) : ProcessEnd σ :=
  let first := [say "Starting datapath-controller" []]
  match ControllerConfig.load? given with
  | none => ⟨first, some ControllerConfig.unreadableText, world⟩
  | some config =>
    let started := (ObserverEvent.started ProcessEnd.version).line source
    let logs := first ++ [configuredLine config, started]
    if !clustered then ⟨logs, some "failed to build Kubernetes client", world⟩
    else
      let logs := logs ++ if portTaken then [serverFailedLine] else []
      let ended := serve config logs inquiry interrupted world
      ⟨ended.logs ++
        [(ObserverEvent.stopping "SIGINT received").line source, say "Shutdown complete" []],
        none, ended.world⟩

end ControllerProcess
end StartupLatency
