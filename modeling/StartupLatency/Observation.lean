import StartupLatency.Instant.Rfc3339
import StartupLatency.Record
/-!
What a pass reads off a pod, and how a record takes it in. The node is filled in once; a timestamp
follows the policy, and a latency is derived exactly when its timestamp is written.
-/

namespace StartupLatency

/-- How a captured timestamp reacts to a later observation. -/
inductive Policy where
  -- A timestamp that is set stays.
  | firstWriteWins
  -- A different annotation replaces it.
  | overwriteOnChange
deriving DecidableEq, Inhabited

namespace Policy

def name : Policy → String
  | .firstWriteWins => "first-write-wins"
  | .overwriteOnChange => "overwrite-on-change"

def all : List Policy := [.firstWriteWins, .overwriteOnChange]

def named? (name : String) : Option Policy := all.find? fun policy => policy.name == name

-- A policy by its name, blanks around it not counting.
def parse? (raw : String) : Option Policy := named? (Text.trimText raw)

def unknownMessage (raw : String) : String := "unknown timestamp policy: " ++ Text.trimText raw

/-- Whether an observed text replaces the current one. Nothing is never written. -/
def writes (policy : Policy) (current observed : String) : Bool :=
  observed != "" &&
    match policy with
    | .firstWriteWins => current == ""
    | .overwriteOnChange => current != observed

end Policy

structure Observation where
  created : Instant
  node : String
  start : String
  ready : String
deriving DecidableEq, Inhabited

namespace Observation

def ofPod (pod : Pod) : Observation := ⟨pod.created, pod.node, pod.startTs, pod.readyTs⟩

-- Milliseconds from creation to the instant that a text names.
def latency? (created : Instant) (raw : String) : Option Int :=
  (Instant.parse? raw).map fun t => t.millisSince created

-- A text that names no instant leaves the latency unset.
def latency (created : Instant) (raw : String) : Int := (latency? created raw).getD 0

end Observation

namespace RecordSpec

def setNode (spec : RecordSpec) (node : String) : RecordSpec :=
  { spec with podRef := { spec.podRef with node := node } }

def setStart (spec : RecordSpec) (created : Instant) (raw : String) : RecordSpec :=
  { spec with
    timestamps := { spec.timestamps with start := raw }
    latencies := { spec.latencies with start := Observation.latency created raw } }

def setReady (spec : RecordSpec) (created : Instant) (raw : String) : RecordSpec :=
  { spec with
    timestamps := { spec.timestamps with ready := raw }
    latencies := { spec.latencies with ready := Observation.latency created raw } }

def writesNode (spec : RecordSpec) (seen : Observation) : Bool :=
  spec.podRef.node == "" && seen.node != ""

def writesStart (spec : RecordSpec) (seen : Observation) (policy : Policy) : Bool :=
  policy.writes spec.timestamps.start seen.start

def writesReady (spec : RecordSpec) (seen : Observation) (policy : Policy) : Bool :=
  policy.writes spec.timestamps.ready seen.ready

def apply (spec : RecordSpec) (seen : Observation) (policy : Policy) : RecordSpec :=
  let spec' := if spec.writesNode seen then spec.setNode seen.node else spec
  let spec' := if spec.writesStart seen policy then spec'.setStart seen.created seen.start else spec'
  if spec.writesReady seen policy then spec'.setReady seen.created seen.ready else spec'

def changedBy (spec : RecordSpec) (seen : Observation) (policy : Policy) : Bool :=
  spec.writesNode seen || spec.writesStart seen policy || spec.writesReady seen policy

end RecordSpec

namespace Record

/-- The record of a pod that has none yet, with what the pod carries already taken in. -/
def ofPod (pod : Pod) (policy : Policy) : Record :=
  let blank : RecordSpec :=
    ⟨⟨pod.ns, pod.name, pod.uid, ""⟩, ⟨pod.created.format, "", ""⟩, ⟨0, 0⟩, pod.labels⟩
  ⟨pod.ns, nameFor pod.uid, none, blank.apply (.ofPod pod) policy⟩

end Record
end StartupLatency
