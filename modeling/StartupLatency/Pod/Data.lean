import StartupLatency.Json.Decode
import StartupLatency.Instant.Rfc3339
import StartupLatency.Pod
/-!
Data forms of pods and of their parts: every member is written, and every member has to be there
when a pod is read.
-/

namespace StartupLatency

namespace ObjectName

def toJson (key : ObjectName) : Json := .obj [("namespace", .str key.ns), ("name", .str key.name)]

def shape : Json.Shape ObjectName :=
  ⟨"InstanceKey", default,
    [Json.field "namespace" .always Json.Decode.string fun key value => { key with ns := value },
      Json.field "name" .always Json.Decode.string fun key value => { key with name := value }]⟩

end ObjectName

namespace Instant

def decode : Json.Decoder Instant
  | .str raw =>
    match ofData raw with
    | .ok t => .ok t
    | .error fault => .error (.malformed fault.message)
  | other => .error (.wrongType other "an RFC 3339 formatted date and time string")

end Instant

namespace Phase

def toJson (phase : Phase) : Json := .str phase.text

def decode : Json.Decoder Phase := Json.Decode.variant all text "InstancePhase"

end Phase

namespace Pod

def toJson (pod : Pod) : Json :=
  .obj [("namespace", .str pod.ns), ("name", .str pod.name), ("uid", .str pod.uid),
    ("creation_timestamp", .str pod.created.formatShort), ("node_name", .str pod.node),
    ("phase", pod.phase.toJson), ("reason", .str pod.reason), ("message", .str pod.message),
    ("labels", Json.ofStringMap pod.labels), ("annotations", Json.ofStringMap pod.annotations)]

def shape : Json.Shape Pod :=
  ⟨"WorkloadInstance", default,
    [Json.field "namespace" .always Json.Decode.string fun pod value => { pod with ns := value },
      Json.field "name" .always Json.Decode.string fun pod value => { pod with name := value },
      Json.field "uid" .always Json.Decode.string fun pod value => { pod with uid := value },
      Json.field "creation_timestamp" .always Instant.decode fun pod value =>
        { pod with created := value },
      Json.field "node_name" .always Json.Decode.string fun pod value => { pod with node := value },
      Json.field "phase" .always Phase.decode fun pod value => { pod with phase := value },
      Json.field "reason" .always Json.Decode.string fun pod value => { pod with reason := value },
      Json.field "message" .always Json.Decode.string fun pod value =>
        { pod with message := value },
      Json.field "labels" .always (Json.Decode.map Json.Decode.string) fun pod value =>
        { pod with labels := value },
      Json.field "annotations" .always (Json.Decode.map Json.Decode.string) fun pod value =>
        { pod with annotations := value }]⟩

def decode : Json.Decoder Pod := shape.decode

end Pod

namespace Selector

def toJson (selector : Selector) : Json := Json.ofStringMap selector.pairs

def decode (json : Json) : Except Json.DecodeFault Selector :=
  (Json.Decode.map Json.Decode.string json).map Selector.mk

end Selector
end StartupLatency
