import StartupLatency.Cluster.Store
import StartupLatency.Process
import StartupLatency.Reporter.Config
/-!
The reporter's process: the configuration, one run, and the log of both.
-/

namespace StartupLatency

namespace Reporter

def processOrigin : String := "datapath_reporter"

def runOrigin : String := "observer_lib::reporter"

def startedLine (settings : ReporterSettings) (start : Instant) : LogLine :=
  ⟨.info, runOrigin, "Starting reporter",
    [("pod", .str settings.pod.text), ("start_ts", .str start.format),
      ("target", .str settings.target), ("timeout_secs", .nat settings.timeout.secs),
      ("interval_secs", .nat settings.interval.secs)]⟩

def retryLine? (policy : RetryPolicy) (operation : String) (index : Nat) (attempt : Attempt) :
    Option LogLine := do
  let fault ← attempt.fault
  let delay ← policy.delayAfter? index
  if index + 1 < policy.maxAttempts then
    some ⟨.warn, runOrigin, "Remote operation failed, retrying",
      [("operation", .str operation), ("attempt", .nat (index + 1)),
        ("max_attempts", .nat policy.maxAttempts), ("error", .str fault),
        ("retry_in_ms", .nat delay.millis)]⟩
  else none

def retryLines (policy : RetryPolicy) (operation : String) (attempts : List Attempt) :
    List LogLine :=
  (attempts.mapIdx fun index attempt => retryLine? policy operation index attempt).filterMap id

def podLine (level : LogLevel) (settings : ReporterSettings) (message : String)
    (more : List (String × Json)) : LogLine :=
  ⟨level, runOrigin, message, ("pod", .str settings.pod.text) :: more⟩

def probeLines (settings : ReporterSettings) (start : Instant) (clock : Nat → Instant) :
    ProbeEnd → List LogLine
  | .ready time =>
    [(ObserverEvent.probeSucceeded start (clock time)).line settings.pod.text]
  | .timedOut _ =>
    if settings.bestEffort then
      [podLine .warn settings "Datapath probe timed out, patching start timestamp only"
        [("timeout_secs", .nat settings.timeout.secs)]]
    else []
  | _ => []

def reportLines (settings : ReporterSettings) (waited : Bool) : Report → List LogLine
  | .skipped =>
    [podLine .info settings
      (if waited then "Nothing to patch" else "Annotations already present, skipping patch") []]
  | .patched start? ready? =>
    let patch := annotationPatch start?.isNone (start?.getD .epoch) ready?
    [(ObserverEvent.annotationsPatched patch).line settings.pod.text]

def runLines (settings : ReporterSettings) (start : Instant) (clock : Nat → Instant)
    (run : ReporterRun σ) : List LogLine :=
  [startedLine settings start] ++ retryLines settings.retry connecting run.connects ++
    retryLines settings.retry getting run.gets ++
    (run.probe?.elim [] fun probe => probeLines settings start clock probe.outcome) ++
    retryLines settings.retry patching run.patches ++
    match run.result with
    | .ok report => reportLines settings run.probe?.isSome report
    | .error _ => []

def lastLines (settings : ReporterSettings) : Except ReportFault Report → List LogLine
  | .ok .skipped =>
    [⟨.info, processOrigin, "Annotations already recorded", []⟩, stopping "skipped"]
  | .ok (.patched _ _) => [stopping "annotations patched"]
  | .error fault =>
    [⟨.error, processOrigin, "Reporter failed", [("error", .str fault.message)]⟩,
      stopping "failed"]
where
  stopping (reason : String) : LogLine := (ObserverEvent.stopping reason).line settings.pod.text

def serviceOf (link : Cluster.Link σ) : PodService σ where
  connect world := ⟨0, .ok (), world⟩
  get key world :=
    let (answer, world) := link.getPod key world
    ⟨0, answer.mapError StoreError.message, world⟩
  patch key annotations world :=
    let (answer, world) := link.patchPod key annotations world
    ⟨0, answer.mapError StoreError.message, world⟩

def process (given : Variables) (proberFor : String → Prober) (clock : Nat → Instant)
    (link : Cluster.Link σ) (world : σ) : ProcessEnd σ :=
  match ReporterConfig.load given with
  | .error need => ⟨[], some need.missingText, world⟩
  | .ok config =>
    let settings := config.settings
    let start := clock 0
    let run := Reporter.run settings (proberFor settings.target) clock (some start)
      (serviceOf link) world
    let started := (ObserverEvent.started ProcessEnd.version).line settings.pod.text
    ⟨[started] ++ runLines settings start clock run ++ lastLines settings run.result,
      match run.result with
      | .ok _ => none
      | .error fault => some fault.message,
      run.world⟩

end Reporter
end StartupLatency
