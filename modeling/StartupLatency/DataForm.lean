import StartupLatency.Aggregate.Data
import StartupLatency.CommandLine
import StartupLatency.Controller.Config
import StartupLatency.Health
import StartupLatency.Metrics
import StartupLatency.Observation
import StartupLatency.Pod.Data
import StartupLatency.Queue.Data
import StartupLatency.Record.Data
import StartupLatency.Reporter.Config
/-!
The data forms that are exchanged, by their names, and those in which settings, observations and
metrics are shown. A value that is read in a form and written again is in the form's own order of
fields, with everything left out that the form leaves out.
-/

namespace StartupLatency

def Duration.toJson (d : Duration) : Json := .obj [("secs", .nat d.secs), ("nanos", .nat d.nanos)]

def Observation.toJson (seen : Observation) : Json :=
  .obj [("created_at", .str seen.created.format), ("node_name", .str seen.node),
    ("start_ts", .str seen.start), ("dp_ready_ts", .str seen.ready)]

namespace Policy

def toJson (policy : Policy) : Json := .str policy.name

def decode : Json.Decoder Policy := Json.Decode.variant all name "TimestampPolicy"

end Policy

/-! ## Settings, with the defaults filled in -/

def ControllerConfig.toJson (config : ControllerConfig) : Json :=
  let settings := config.settings
  .obj [("namespace", config.ns?.elim .null .str), ("selector", .str config.selector.text),
    ("max_concurrent_reconciles", .nat settings.maxConcurrent),
    ("queue_capacity", .nat settings.queueCapacity),
    ("backoff_base", settings.backoff.base.toJson), ("backoff_max", settings.backoff.max.toJson),
    ("api_port", .nat config.apiPort), ("timestamp_policy", .str config.policy.name)]

def ReporterSettings.toJson (settings : ReporterSettings) : Json :=
  .obj [("pod", settings.pod.pair), ("probe_target", .str settings.target),
    ("probe_timeout", settings.timeout.toJson), ("probe_interval", settings.interval.toJson),
    ("best_effort", .bool settings.bestEffort),
    ("initial_delay", settings.retry.initialDelay.toJson),
    ("max_attempts", .nat settings.retry.maxAttempts)]

def Query.toJson (query : Query) : Json :=
  .obj [("namespace", query.ns?.elim .null .str), ("selector", .str query.selector.text),
    ("top_n", .nat query.topN), ("filter_namespace", query.scope.ns?.elim .null .str)]

def Invocation.toJson (run : Invocation) : Json :=
  let format := match run.format with
    | .table => "Table"
    | .json => "Json"
  let orNull {α} (write : α → Json) (value? : Option α) : Json := value?.elim .null write
  .obj [("api_url", .str run.server), ("format", .str format), ("command", .str run.page.name),
    ("namespace", orNull .str run.filters.ns?), ("top_n", orNull .nat run.filters.topN?),
    ("selector", orNull .str run.filters.selector?)]

def Refusal.toJson (refusal : Refusal) : Json :=
  .obj [("error", .str refusal.kind), ("exit", .nat refusal.exitCode)]

-- Samples that are zero are left out.
def Metrics.toJson (metrics : Metrics) : Json :=
  .obj [("samples", .obj (metrics.changes.flatMap fun family =>
      family.samples.map fun sample => (sample.title, .int sample.value))),
    ("families", .arr (metrics.changes.flatMap fun family => family.header.map .str))]

abbrev DataForm := Json.Decoder Json

namespace DataForm

def of (read : Json.Decoder α) (write : α → Json) : DataForm := fun json => (read json).map write

def all : List (String × DataForm) :=
  [("InstanceKey", of ObjectName.shape.decode ObjectName.toJson),
    ("InstancePhase", of Phase.decode Phase.toJson),
    ("WorkloadInstance", of Pod.decode Pod.toJson),
    ("DatapathResultSpec", of RecordSpec.decode RecordSpec.toJson),
    ("DatapathResult", of Record.decode Record.toJson),
    ("LatencyMetric", of LatencyMetric.decode LatencyMetric.toJson),
    ("AggregatedResult", of LatencySummary.decode LatencySummary.toJson),
    ("PodHealthResult", of PodHealth.decode PodHealth.toJson),
    ("LabelSelector", of Selector.decode Selector.toJson),
    ("TimestampPolicy", of Policy.decode Policy.toJson),
    ("ComponentHealth", of ComponentHealth.decode (ComponentHealth.toJson .null)),
    ("ReadinessResponse", of Readiness.shape.decode Readiness.toJson)]

def named? (name : String) : Option DataForm := all.lookup name

end DataForm
end StartupLatency
