import StartupLatency.Json.Decode
import StartupLatency.Record
/-!
Data form of records. Empty texts, zero latencies, empty label maps and absent versions are left
out when a record is written and filled in again when it is read.
-/

namespace StartupLatency

namespace PodRef

def toJson (ref : PodRef) : Json :=
  .obj ([("namespace", .str ref.ns), ("name", .str ref.name), ("uid", .str ref.uid)] ++
    Json.textMember "nodeName" ref.node)

def shape : Json.Shape PodRef :=
  ⟨"PodRef", default,
    [Json.field "namespace" .always Json.Decode.string fun ref value => { ref with ns := value },
      Json.field "name" .always Json.Decode.string fun ref value => { ref with name := value },
      Json.field "uid" .always Json.Decode.string fun ref value => { ref with uid := value },
      Json.field "nodeName" .never Json.Decode.string fun ref value => { ref with node := value }]⟩

end PodRef

namespace Timestamps

def toJson (stamps : Timestamps) : Json :=
  .obj ([("createdAt", .str stamps.created)] ++ Json.textMember "startTs" stamps.start ++
    Json.textMember "dpReadyTs" stamps.ready)

def shape : Json.Shape Timestamps :=
  ⟨"Timestamps", default,
    [Json.field "createdAt" .always Json.Decode.string fun stamps value =>
        { stamps with created := value },
      Json.field "startTs" .never Json.Decode.string fun stamps value =>
        { stamps with start := value },
      Json.field "dpReadyTs" .never Json.Decode.string fun stamps value =>
        { stamps with ready := value }]⟩

end Timestamps

namespace Latencies

def latencyMember (name : String) (value : Int) : List (String × Json) :=
  if value = 0 then [] else [(name, .int value)]

def toJson (latencies : Latencies) : Json :=
  .obj (latencyMember "latStartMs" latencies.start ++
    latencyMember "latDpReadyMs" latencies.ready)

def shape : Json.Shape Latencies :=
  ⟨"LatencyMetrics", ⟨0, 0⟩,
    [Json.field "latStartMs" .never Json.Decode.int64 fun latencies value =>
        { latencies with start := value },
      Json.field "latDpReadyMs" .never Json.Decode.int64 fun latencies value =>
        { latencies with ready := value }]⟩

end Latencies

namespace RecordSpec

def labelsMember (labels : Labels) : List (String × Json) :=
  if labels.isEmpty then [] else [("labels", Json.ofStringMap labels)]

def toJson (spec : RecordSpec) : Json :=
  .obj ([("podRef", spec.podRef.toJson), ("timestamps", spec.timestamps.toJson),
    ("metrics", spec.latencies.toJson)] ++ labelsMember spec.labels)

def shape : Json.Shape RecordSpec :=
  ⟨"DatapathResultSpec", default,
    [Json.field "podRef" .always PodRef.shape.decode fun spec value => { spec with podRef := value },
      Json.field "timestamps" .always Timestamps.shape.decode fun spec value =>
        { spec with timestamps := value },
      Json.field "metrics" .always Latencies.shape.decode fun spec value =>
        { spec with latencies := value },
      Json.field "labels" .never (Json.Decode.map Json.Decode.string) fun spec value =>
        { spec with labels := value }]⟩

def decode : Json.Decoder RecordSpec := shape.decode

end RecordSpec

namespace Record

def toJson (record : Record) : Json :=
  .obj ([("namespace", .str record.ns), ("name", .str record.name)] ++
    (match record.version with
      | some version => [("resource_version", .str version)]
      | none => []) ++ [("spec", record.spec.toJson)])

def shape : Json.Shape Record :=
  ⟨"DatapathResult", default,
    [Json.field "namespace" .always Json.Decode.string fun record value =>
        { record with ns := value },
      Json.field "name" .always Json.Decode.string fun record value => { record with name := value },
      Json.field "resource_version" .never (Json.Decode.optional Json.Decode.string)
        fun record value => { record with version := value },
      Json.field "spec" .always RecordSpec.decode fun record value => { record with spec := value }]⟩

def decode : Json.Decoder Record := shape.decode

end Record

namespace LatencyMetric

def toJson (metric : LatencyMetric) : Json := .str metric.name

def decode : Json.Decoder LatencyMetric :=
  Json.Decode.variant [timeToStart, timeToReady] name "LatencyMetric"

end LatencyMetric
end StartupLatency
