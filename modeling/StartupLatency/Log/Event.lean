import StartupLatency.Instant.Rfc3339
import StartupLatency.Log
import StartupLatency.Record
import StartupLatency.Text.Quoted
/-!
The events that are logged in a fixed form, each with the source it concerns.
-/

namespace StartupLatency

inductive ObserverEvent where
  | started (version : String)
  | stopping (reason : String)
  | probeSucceeded (start ready : Instant)
  | annotationsPatched (annotations : Annotations)
  | recordCreated (record : Record)
  | recordUpdated (record : Record)
  | passFailed (key : ObjectName) (error : String) (retryMillis : Nat)
deriving DecidableEq

namespace ObserverEvent

def name : ObserverEvent → String
  | .started _ => "observer_started"
  | .stopping _ => "observer_shutdown"
  | .probeSucceeded _ _ => "probe_succeeded"
  | .annotationsPatched _ => "annotations_patched"
  | .recordCreated _ => "record_created"
  | .recordUpdated _ => "record_updated"
  | .passFailed _ _ _ => "reconcile_failed"

def level : ObserverEvent → LogLevel
  | .passFailed _ _ _ => .warn
  | _ => .info

def message : ObserverEvent → String
  | .started _ => "Datapath observer started"
  | .stopping _ => "Datapath observer shutting down"
  | .probeSucceeded _ _ => "Datapath ready"
  | .annotationsPatched _ => "Patched pod annotations"
  | .recordCreated _ => "Created datapath result"
  | .recordUpdated _ => "Updated datapath result"
  | .passFailed _ _ _ => "Reconcile failed, backing off"

def recordFields (record : Record) (other : String × String) : List (String × Json) :=
  [("namespace", .str record.ns), ("record", .str record.name), (other.1, .str other.2),
    ("lat_start_ms", .int record.spec.latencies.start),
    ("lat_dp_ready_ms", .int record.spec.latencies.ready)]

def fields : ObserverEvent → List (String × Json)
  | .started version => [("version", .str version)]
  | .stopping reason => [("reason", .str reason)]
  | .probeSucceeded start ready =>
    [("start_ts", .str start.format), ("dp_ready_ts", .str ready.format),
      ("latency_ms", .int (ready.millisSince start))]
  | .annotationsPatched annotations =>
    [("keys", .str (Text.Quoted.listText annotations.keys))]
  | .recordCreated record => recordFields record ("pod", record.spec.podRef.name)
  | .recordUpdated record => recordFields record ("node", record.spec.podRef.node)
  | .passFailed key error retryMillis =>
    [("pod", .str key.text), ("error", .str error), ("retry_in_ms", .nat retryMillis)]

def origin : String := "observer_lib::observability"

def line (source : String) (event : ObserverEvent) : LogLine :=
  ⟨event.level, origin, event.message,
    [("event", .str event.name), ("source", .str source)] ++ event.fields⟩

end ObserverEvent
end StartupLatency
