import StartupLatency.Pod
/-!
Durable records: one per pod uid, with the timestamps that the pod reported and the latencies
derived from them.
-/

namespace StartupLatency

structure PodRef where
  ns : String
  name : String
  uid : String
  node : String
deriving DecidableEq, Inhabited

structure Timestamps where
  created : String
  start : String
  ready : String
deriving DecidableEq, Inhabited

-- Milliseconds since creation; zero means not derived.
structure Latencies where
  start : Int
  ready : Int
deriving DecidableEq, Inhabited

structure RecordSpec where
  podRef : PodRef
  timestamps : Timestamps
  latencies : Latencies
  labels : Labels
deriving DecidableEq, Inhabited

structure Record where
  ns : String
  name : String
  -- The store's version for conditional writes; absent on a record that was never stored.
  version : Option String
  spec : RecordSpec
deriving DecidableEq, Inhabited

namespace Record

def key (record : Record) : ObjectName := ⟨record.ns, record.name⟩

/-- Name of the record of a pod uid. Uids are unique, so all passes over one pod meet at one
record. -/
def nameFor (uid : String) : String := "dpresult-" ++ uid

end Record

inductive LatencyMetric where
  | timeToStart
  | timeToReady
deriving DecidableEq, Inhabited

namespace LatencyMetric

def name : LatencyMetric → String
  | .timeToStart => "time-to-start"
  | .timeToReady => "time-to-datapath-ready"

def named? (name : String) : Option LatencyMetric :=
  [timeToStart, timeToReady].find? fun metric => metric.name == name

def timestamp (metric : LatencyMetric) (spec : RecordSpec) : String :=
  match metric with
  | .timeToStart => spec.timestamps.start
  | .timeToReady => spec.timestamps.ready

def value (metric : LatencyMetric) (spec : RecordSpec) : Int :=
  match metric with
  | .timeToStart => spec.latencies.start
  | .timeToReady => spec.latencies.ready

end LatencyMetric
end StartupLatency
