import StartupLatency.Environment
import StartupLatency.Reporter
import StartupLatency.Word
/-!
What a reporter is told by its environment: its own pod, the target of its probe, and the times.
A span that cannot be read counts as not given; the pod and the target have to be there.
-/

namespace StartupLatency

structure ReporterConfig where
  pod : ObjectName
  target : String
  timeout : Duration
  interval : Duration
  bestEffort : Bool
deriving DecidableEq

namespace ReporterConfig

inductive Need where
  | podName
  | podNamespace
  | probeTarget
deriving DecidableEq

def Need.variableName : Need → String
  | .podName => "MY_POD_NAME"
  | .podNamespace => "MY_POD_NAMESPACE"
  | .probeTarget => "PROBE_TARGET"

def Need.missingText (need : Need) : String := need.variableName ++ " must be set"

def required (env : Environment) (need : Need) : Except Need String :=
  match (env.text? (Text.lowerText need.variableName)).map Text.trimText with
  | some value => if value.isEmpty then .error need else .ok value
  | none => .error need

/-- Whole seconds above zero, blanks around them not counting, or else the default. -/
def seconds (env : Environment) (name : String) (fallback : Nat) : Duration :=
  let given := (env.text? name).bind fun raw =>
    Text.Decimal.readBelow? Word.limit64 (Text.trim raw.toList)
  .ofSeconds ((given.filter fun secs => 0 < secs).getD fallback)

def flag (env : Environment) (name : String) : Bool :=
  match env.text? name with
  | some raw => ["true", "1", "yes"].contains (Text.lowerText (Text.trimText raw))
  | none => false

-- Of several variables that are missing, the first one is named: pod, namespace, target.
def ofEnvironment (env : Environment) : Except Need ReporterConfig := do
  let name ← required env .podName
  let ns ← required env .podNamespace
  let target ← required env .probeTarget
  pure { pod := ⟨ns, name⟩
         target := target
         timeout := seconds env "probe_timeout" 60
         interval := seconds env "probe_interval" 2
         bestEffort := flag env "probe_best_effort" }

def load (given : Variables) : Except Need ReporterConfig :=
  ofEnvironment (.ofVariables "" given)

def settings (config : ReporterConfig) : ReporterSettings :=
  { pod := config.pod
    target := config.target
    timeout := config.timeout
    interval := config.interval
    bestEffort := config.bestEffort
    retry := .default }

end ReporterConfig
end StartupLatency
