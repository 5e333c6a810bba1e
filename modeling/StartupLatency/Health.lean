import StartupLatency.Json.Decode
import StartupLatency.SortedMap
/-!
Health of the running process: the last report of each component, the worst of them, and
readiness, which needs the first complete pod listing.
-/

namespace StartupLatency

inductive ComponentStatus where
  | healthy
  | degraded
  | unhealthy
deriving DecidableEq, Inhabited

namespace ComponentStatus

def name : ComponentStatus → String
  | .healthy => "healthy"
  | .degraded => "degraded"
  | .unhealthy => "unhealthy"

def all : List ComponentStatus := [.healthy, .degraded, .unhealthy]

def decode : Json.Decoder ComponentStatus := Json.Decode.variant all name "ComponentStatus"

end ComponentStatus

/-- When a report was made: on the registry's own clock, or at a Unix second that came with it. -/
inductive ReportTime where
  | now
  | at (second : Int)
deriving DecidableEq, Inhabited

structure ComponentHealth where
  status : ComponentStatus
  message : Option String
  checked : ReportTime
deriving DecidableEq, Inhabited

namespace ComponentHealth

def healthy : ComponentHealth := ⟨.healthy, none, .now⟩

def degraded (message : String) : ComponentHealth := ⟨.degraded, some message, .now⟩

def unhealthy (message : String) : ComponentHealth := ⟨.unhealthy, some message, .now⟩

def messageMember (message : Option String) : List (String × Json) :=
  match message with
  | some text => [("message", .str text)]
  | none => []

-- A report made on the registry's own clock is written with the given time.
def toJson (now : Json) (health : ComponentHealth) : Json :=
  .obj ([("status", .str health.status.name)] ++ messageMember health.message ++
    [("last_check_timestamp",
      match health.checked with
      | .now => now
      | .at second => .int second)])

def shape : Json.Shape ComponentHealth :=
  ⟨"ComponentHealth", default,
    [Json.field "status" .always ComponentStatus.decode fun health value =>
        { health with status := value },
      Json.field "message" .inArrays (Json.Decode.optional Json.Decode.string) fun health value =>
        { health with message := value },
      Json.field "last_check_timestamp" .always Json.Decode.int64 fun health value =>
        { health with checked := .at value }]⟩

def decode : Json.Decoder ComponentHealth := shape.decode

end ComponentHealth

structure Readiness where
  ready : Bool
  reason : Option String
deriving DecidableEq, Inhabited

namespace Readiness

def toJson (readiness : Readiness) : Json :=
  .obj ([("ready", .bool readiness.ready)] ++
    match readiness.reason with
    | some reason => [("reason", .str reason)]
    | none => [])

def shape : Json.Shape Readiness :=
  ⟨"ReadinessResponse", default,
    [Json.field "ready" .always Json.Decode.boolean fun readiness value =>
        { readiness with ready := value },
      Json.field "reason" .inArrays (Json.Decode.optional Json.Decode.string)
        fun readiness value => { readiness with reason := value }]⟩

end Readiness

/-- The latest report of each component, and whether the pods were listed completely once. -/
structure HealthRegistry where
  components : SortedMap String ComponentHealth
  synced : Bool
deriving DecidableEq, Inhabited

namespace HealthRegistry

def podWatcher : String := "pod_watcher"

def reconciler : String := "reconciler"

def queryServer : String := "query_server"

def empty : HealthRegistry := ⟨∅, false⟩

def report (registry : HealthRegistry) (component : String) (health : ComponentHealth) :
    HealthRegistry :=
  { registry with components := registry.components.insert component health }

def setSynced (registry : HealthRegistry) (synced : Bool) : HealthRegistry :=
  { registry with synced := synced }

-- The worst status; healthy when no component reported.
def status (registry : HealthRegistry) : ComponentStatus :=
  let statuses := registry.components.values.map ComponentHealth.status
  if .unhealthy ∈ statuses then .unhealthy
  else if .degraded ∈ statuses then .degraded
  else .healthy

def readiness (registry : HealthRegistry) : Readiness :=
  if !registry.synced then ⟨false, some "Pod watch not yet synced"⟩
  else if registry.status = .unhealthy then ⟨false, some "Critical component unhealthy"⟩
  else ⟨true, none⟩

def toJson (now : Json) (registry : HealthRegistry) : Json :=
  .obj [("status", .str registry.status.name),
    ("components",
      .obj (registry.components.entries.map fun entry => (entry.1, entry.2.toJson now)))]

end HealthRegistry
end StartupLatency
