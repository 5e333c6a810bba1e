import StartupLatency.Binary64
import StartupLatency.Query
import StartupLatency.Record
/-!
Latency percentiles over records, with the slowest pods and the pods without a measurement.
-/

namespace StartupLatency

structure SlowPod where
  ns : String
  name : String
  uid : String
  node : String
  created : String
  measured : String
  value : Int
deriving DecidableEq, Inhabited

structure UnmeasuredPod where
  ns : String
  name : String
  uid : String
  node : String
deriving DecidableEq, Inhabited

structure LatencySummary where
  metric : String
  unit : String
  count : Nat
  successful : Nat
  failed : Nat
  p50 : Int
  p90 : Int
  p99 : Int
  worstPods : List SlowPod
  failedPods : List UnmeasuredPod
deriving DecidableEq

structure Quantile where
  numerator : Nat
  denominator : Nat
deriving DecidableEq

namespace Quantile

def median : Quantile := ⟨50, 100⟩

def ninety : Quantile := ⟨90, 100⟩

def ninetyNine : Quantile := ⟨99, 100⟩

def rank (quantile : Quantile) (count : Nat) : Nat :=
  (count - 1) * quantile.numerator / quantile.denominator

end Quantile

namespace LatencySummary

def sampleAt (ascending : List Int) (rank : Nat) : Int :=
  (ascending[min rank (ascending.length - 1)]?).getD 0

def percentile (ascending : List Int) (quantile : Quantile) : Int :=
  sampleAt ascending (quantile.rank ascending.length)

-- The percentile of a share given as a double: the rank is the product rounded to a double and then
-- down.
def percentileAt (ascending : List Int) (share : Binary64) : Int :=
  sampleAt ascending
    (if share.isFinite then ((Binary64.ofNat (ascending.length - 1)).mul share).floorClamped
      else if ascending.length ≤ 1 then 0 else share.floorClamped)

/-- A measurement counts when its timestamp was reported and its latency is positive. -/
def isMeasured (metric : LatencyMetric) (record : Record) : Bool :=
  metric.timestamp record.spec != "" && decide (0 < metric.value record.spec)

def slowPod (metric : LatencyMetric) (record : Record) : SlowPod :=
  let ref := record.spec.podRef
  ⟨ref.ns, ref.name, ref.uid, ref.node, record.spec.timestamps.created,
    metric.timestamp record.spec, metric.value record.spec⟩

def unmeasuredPod (record : Record) : UnmeasuredPod :=
  let ref := record.spec.podRef
  ⟨ref.ns, ref.name, ref.uid, ref.node⟩

def slowerFirst (a b : SlowPod) : Bool :=
  b.value < a.value ||
    (a.value == b.value && (compare (ObjectName.mk a.ns a.name) ⟨b.ns, b.name⟩).isLE)

def byName (a b : UnmeasuredPod) : Bool :=
  (compare (ObjectName.mk a.ns a.name) ⟨b.ns, b.name⟩).isLE

def ofRecords (metric : LatencyMetric) (records : List Record) (topN : Nat) : LatencySummary :=
  let measured := records.filter (isMeasured metric)
  let unmeasured := records.filter fun record => !isMeasured metric record
  let samples := (measured.map fun record => metric.value record.spec).mergeSort (· ≤ ·)
  { metric := metric.name
    unit := "ms"
    count := samples.length
    successful := measured.length
    failed := unmeasured.length
    p50 := percentile samples .median
    p90 := percentile samples .ninety
    p99 := percentile samples .ninetyNine
    worstPods := ((measured.map (slowPod metric)).mergeSort slowerFirst).take topN
    failedPods := ((unmeasured.map unmeasuredPod).mergeSort byName).take topN }

end LatencySummary
end StartupLatency
