import StartupLatency.Controller
import StartupLatency.Environment
import StartupLatency.Word
/-!
What a controller is told by its environment: the scope it watches, its bounds, the port of its
server and the policy for timestamps.
-/

namespace StartupLatency

structure ControllerConfig where
  ns : String
  selectorText : String
  maxConcurrent : Nat
  queueCapacity : Nat
  apiPort : Nat
  policy : Policy
deriving DecidableEq

namespace ControllerConfig

def mark : String := "observer_"

def unreadableText : String := "invalid OBSERVER_* configuration"

-- A policy by its name in any case, but without blanks around it.
def policy? (env : Environment) : Option Policy :=
  match env.text? "timestamp_policy" with
  | some raw => Policy.named? (Text.lowerText raw)
  | none => some default

def ofEnvironment? (env : Environment) : Option ControllerConfig := do
  pure { ns := (env.text? "namespace").getD ""
         selectorText := (env.text? "label_selector").getD ""
         maxConcurrent := ← env.count? "max_concurrent_reconciles" Word.limit64 10
         queueCapacity := ← env.count? "queue_capacity" Word.limit64 1024
         apiPort := ← env.count? "api_port" Word.limit16 8080
         policy := ← policy? env }

def load? (given : Variables) : Option ControllerConfig :=
  ofEnvironment? (.ofVariables mark given)

-- One namespace, or all of them when nothing but blanks is given.
def ns? (config : ControllerConfig) : Option String :=
  let ns := Text.trimText config.ns
  if ns.isEmpty then none else some ns

def selector (config : ControllerConfig) : Selector := .parse config.selectorText

def scope (config : ControllerConfig) : Scope := .of config.ns? config.selector

def settings (config : ControllerConfig) : ControllerSettings :=
  { policy := config.policy
    filter := config.scope
    maxConcurrent := config.maxConcurrent
    queueCapacity := config.queueCapacity
    backoff := .default }

end ControllerConfig
end StartupLatency
