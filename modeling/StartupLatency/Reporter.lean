import StartupLatency.Instant.Rfc3339
import StartupLatency.Probe
import StartupLatency.Retry
import StartupLatency.Store.Scripted
/-!
One run of the reporter, which measures its own pod. It notes the start, probes the datapath, and
writes both times to the pod's annotations. Probing goes on beside the calls to the API, which
are retried, so that slow calls never move the measured times.
-/

namespace StartupLatency

def annotationPatch (hasStart : Bool) (start : Instant) (ready? : Option Instant) : Annotations :=
  let patch : Annotations := if hasStart then ∅ else (∅ : Annotations).insert startKey start.format
  match ready? with
  | some ready => patch.insert readyKey ready.format
  | none => patch

structure ReporterSettings where
  pod : ObjectName
  target : String
  timeout : Duration
  interval : Duration
  bestEffort : Bool
  retry : RetryPolicy
deriving DecidableEq

namespace ReporterSettings

def plan (settings : ReporterSettings) : ProbePlan :=
  ⟨settings.timeout.ticks, settings.interval.ticks⟩

end ReporterSettings

structure PodService (σ : Type) where
  connect : σ → Reply σ Unit
  get : ObjectName → σ → Reply σ Pod
  patch : ObjectName → Annotations → σ → Reply σ Unit

inductive Report where
  | skipped
  -- The instants that were written.
  | patched (start? ready? : Option Instant)
deriving DecidableEq

inductive ReportFault where
  | retriesExhausted (operation : String) (attempts : Nat) (lastFault : String)
  | probeTimeout (timeout : Duration)
  | probeCrashed
  -- A retry delay left the range of durations.
  | delayOverflow
  | probeEndless
deriving DecidableEq

namespace ReportFault

def message : ReportFault → String
  | .retriesExhausted operation attempts lastFault =>
    RetryPolicy.exhaustedText operation attempts lastFault
  | .probeTimeout timeout => "datapath probe did not succeed within " ++ timeout.text
  | .probeCrashed => "probe task failed"
  | .delayOverflow => RetryPolicy.overflowText
  | .probeEndless => "datapath probe does not end"

end ReportFault

structure ReporterRun (σ : Type) where
  result : Except ReportFault Report
  finish : Nat
  connects : List Attempt
  gets : List Attempt
  patches : List Attempt
  -- Absent when the run ended without waiting for the probe.
  probe? : Option ProbeRun
  world : σ

namespace Reporter

def connecting : String := "create API client"

def getting : String := "get pod"

def patching : String := "patch pod annotations"

def settle (settings : ReporterSettings) (operation : String) :
    RetryResult α → Except ReportFault α
  | .succeeded value => .ok value
  | .exhausted lastFault =>
    .error (.retriesExhausted operation settings.retry.maxAttempts lastFault)
  | .overflow => .error .delayOverflow

/-- What the probe's outcome means for the run: the measured instant, if there is one. -/
def measured (settings : ReporterSettings) (clock : Nat → Instant) :
    ProbeEnd → Except ReportFault (Option Instant)
  | .ready time => .ok (some (clock time))
  | .timedOut _ =>
    if settings.bestEffort then .ok none else .error (.probeTimeout settings.timeout)
  | .crashed _ => .error .probeCrashed
  | .endless => .error .probeEndless

def got (settings : ReporterSettings) (service : PodService σ) (connected : Retried σ Unit) :
    Retried σ Pod :=
  settings.retry.run (service.get settings.pod) connected.finish connected.world

/-- What is done about the pod that was read. The probe is waited for unless both times are there
already. -/
def report (settings : ReporterSettings) (prober : Prober) (clock : Nat → Instant)
    (start : Instant) (service : PodService σ) (connects : List Attempt) (got : Retried σ Pod)
    (pod : Pod) : ReporterRun σ :=
  let hasStart := pod.annotations.contains startKey
  if hasStart && pod.annotations.contains readyKey then
    ⟨.ok .skipped, got.finish, connects, got.attempts, [], none, got.world⟩
  else
    let probe := settings.plan.run prober
    let time := max got.finish probe.outcome.time
    let ended (result : Except ReportFault Report) : ReporterRun σ :=
      ⟨result, time, connects, got.attempts, [], some probe, got.world⟩
    match measured settings clock probe.outcome with
    | .error fault => ended (.error fault)
    | .ok ready? =>
      let patch := annotationPatch hasStart start ready?
      if patch.isEmpty then ended (.ok .skipped)
      else
        let patched := settings.retry.run (service.patch settings.pod patch) time got.world
        let result :=
          (settle settings patching patched.result).map fun () =>
            Report.patched (if hasStart then none else some start) ready?
        ⟨result, patched.finish, connects, got.attempts, patched.attempts, some probe,
          patched.world⟩

def run (settings : ReporterSettings) (prober : Prober) (clock : Nat → Instant)
    (startedAt : Option Instant) (service : PodService σ) (world : σ) : ReporterRun σ :=
  let start := startedAt.getD (clock 0)
  let connected := settings.retry.run service.connect 0 world
  match settle settings connecting connected.result with
  | .error fault =>
    ⟨.error fault, connected.finish, connected.attempts, [], [], none, connected.world⟩
  | .ok () =>
    let got := got settings service connected
    match settle settings getting got.result with
    | .error fault =>
      ⟨.error fault, got.finish, connected.attempts, got.attempts, [], none, got.world⟩
    | .ok pod => report settings prober clock start service connected.attempts got pod

end Reporter

-- A scripted world with a script for the client's setup: what becomes of its coming attempts.
structure ReporterWorld where
  stores : ScriptedStores
  connects : List (Option String)

namespace ReporterWorld

def connect (world : ReporterWorld) : Reply ReporterWorld Unit :=
  let after := { world with connects := world.connects.tail }
  match world.connects with
  | some fault :: _ => ⟨0, .error fault, after⟩
  | _ => ⟨0, .ok (), after⟩

def ofCall (call : ScriptedStores → Except StoreError α × ScriptedStores)
    (world : ReporterWorld) : Reply ReporterWorld α :=
  let (answer, stores) := call world.stores
  ⟨0, answer.mapError StoreError.message, { world with stores := stores }⟩

def service : PodService ReporterWorld where
  connect := connect
  get key := ofCall (ScriptedStores.getPod key)
  patch key annotations := ofCall (ScriptedStores.patchPod key annotations)

end ReporterWorld
end StartupLatency
