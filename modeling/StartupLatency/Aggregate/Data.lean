import StartupLatency.Aggregate.Health
import StartupLatency.Aggregate.Latency
import StartupLatency.Json.Decode
/-!
Data forms of the aggregates, as the query server writes them and its clients read them.
-/

namespace StartupLatency

namespace SlowPod

def toJson (pod : SlowPod) : Json :=
  .obj ([("namespace", .str pod.ns), ("name", .str pod.name), ("uid", .str pod.uid)] ++
    Json.textMember "nodeName" pod.node ++ Json.textMember "createdAt" pod.created ++
    Json.textMember "measuredTs" pod.measured ++ [("value", .int pod.value)])

def shape : Json.Shape SlowPod :=
  ⟨"WorstPod", default,
    [Json.field "namespace" .always Json.Decode.string fun pod value => { pod with ns := value },
      Json.field "name" .always Json.Decode.string fun pod value => { pod with name := value },
      Json.field "uid" .always Json.Decode.string fun pod value => { pod with uid := value },
      Json.field "nodeName" .never Json.Decode.string fun pod value => { pod with node := value },
      Json.field "createdAt" .never Json.Decode.string fun pod value =>
        { pod with created := value },
      Json.field "measuredTs" .never Json.Decode.string fun pod value =>
        { pod with measured := value },
      Json.field "value" .always Json.Decode.int64 fun pod value => { pod with value := value }]⟩

end SlowPod

namespace UnmeasuredPod

def toJson (pod : UnmeasuredPod) : Json :=
  .obj ([("namespace", .str pod.ns), ("name", .str pod.name), ("uid", .str pod.uid)] ++
    Json.textMember "nodeName" pod.node)

def shape : Json.Shape UnmeasuredPod :=
  ⟨"FailedPod", default,
    [Json.field "namespace" .always Json.Decode.string fun pod value => { pod with ns := value },
      Json.field "name" .always Json.Decode.string fun pod value => { pod with name := value },
      Json.field "uid" .always Json.Decode.string fun pod value => { pod with uid := value },
      Json.field "nodeName" .never Json.Decode.string fun pod value => { pod with node := value }]⟩

end UnmeasuredPod

namespace LatencySummary

def toJson (summary : LatencySummary) : Json :=
  .obj [("metric", .str summary.metric), ("unit", .str summary.unit), ("count", .nat summary.count),
    ("totalSuccessful", .nat summary.successful), ("totalFailed", .nat summary.failed),
    ("p50", .int summary.p50), ("p90", .int summary.p90), ("p99", .int summary.p99),
    ("worstPods", .arr (summary.worstPods.map SlowPod.toJson)),
    ("failedPods", .arr (summary.failedPods.map UnmeasuredPod.toJson))]

def shape : Json.Shape LatencySummary :=
  ⟨"AggregatedResult", ⟨"", "", 0, 0, 0, 0, 0, 0, [], []⟩,
    [Json.field "metric" .always Json.Decode.string fun summary value =>
        { summary with metric := value },
      Json.field "unit" .always Json.Decode.string fun summary value =>
        { summary with unit := value },
      Json.field "count" .always Json.Decode.count fun summary value =>
        { summary with count := value },
      Json.field "totalSuccessful" .always Json.Decode.count fun summary value =>
        { summary with successful := value },
      Json.field "totalFailed" .always Json.Decode.count fun summary value =>
        { summary with failed := value },
      Json.field "p50" .always Json.Decode.int64 fun summary value => { summary with p50 := value },
      Json.field "p90" .always Json.Decode.int64 fun summary value => { summary with p90 := value },
      Json.field "p99" .always Json.Decode.int64 fun summary value => { summary with p99 := value },
      Json.field "worstPods" .always (Json.Decode.list SlowPod.shape.decode) fun summary value =>
        { summary with worstPods := value },
      Json.field "failedPods" .always (Json.Decode.list UnmeasuredPod.shape.decode)
        fun summary value => { summary with failedPods := value }]⟩

def decode : Json.Decoder LatencySummary := shape.decode

end LatencySummary

namespace PodDetails

def toJson (pod : PodDetails) : Json :=
  .obj ([("namespace", .str pod.ns), ("name", .str pod.name), ("uid", .str pod.uid)] ++
    Json.textMember "nodeName" pod.node ++ [("phase", .str pod.phase)] ++
    Json.textMember "reason" pod.reason ++ Json.textMember "message" pod.message)

def shape : Json.Shape PodDetails :=
  ⟨"PodDetails", default,
    [Json.field "namespace" .always Json.Decode.string fun pod value => { pod with ns := value },
      Json.field "name" .always Json.Decode.string fun pod value => { pod with name := value },
      Json.field "uid" .always Json.Decode.string fun pod value => { pod with uid := value },
      Json.field "nodeName" .never Json.Decode.string fun pod value => { pod with node := value },
      Json.field "phase" .always Json.Decode.string fun pod value => { pod with phase := value },
      Json.field "reason" .never Json.Decode.string fun pod value => { pod with reason := value },
      Json.field "message" .never Json.Decode.string fun pod value =>
        { pod with message := value }]⟩

end PodDetails

namespace PodHealth

def toJson (health : PodHealth) : Json :=
  .obj ([("namespace", .str health.ns)] ++ Json.textMember "labelSelector" health.selector ++
    [("desiredReplicas", .nat health.desired), ("runningPods", .nat health.running),
      ("pendingPods", .nat health.pending), ("failedPods", .nat health.failed),
      ("successPct", .num (.real health.successPct)),
      ("pendingPodList", .arr (health.pendingPods.map PodDetails.toJson)),
      ("failedPodList", .arr (health.failedPods.map PodDetails.toJson))])

def shape : Json.Shape PodHealth :=
  ⟨"PodHealthResult", ⟨"", "", 0, 0, 0, 0, .zero false, [], []⟩,
    [Json.field "namespace" .always Json.Decode.string fun health value =>
        { health with ns := value },
      Json.field "labelSelector" .never Json.Decode.string fun health value =>
        { health with selector := value },
      Json.field "desiredReplicas" .always Json.Decode.count fun health value =>
        { health with desired := value },
      Json.field "runningPods" .always Json.Decode.count fun health value =>
        { health with running := value },
      Json.field "pendingPods" .always Json.Decode.count fun health value =>
        { health with pending := value },
      Json.field "failedPods" .always Json.Decode.count fun health value =>
        { health with failed := value },
      Json.field "successPct" .always Json.Decode.real fun health value =>
        { health with successPct := value },
      Json.field "pendingPodList" .always (Json.Decode.list PodDetails.shape.decode)
        fun health value => { health with pendingPods := value },
      Json.field "failedPodList" .always (Json.Decode.list PodDetails.shape.decode)
        fun health value => { health with failedPods := value }]⟩

def decode : Json.Decoder PodHealth := shape.decode

end PodHealth
end StartupLatency
