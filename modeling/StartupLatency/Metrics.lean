import StartupLatency.Binary64
import StartupLatency.Duration
import StartupLatency.SortedMap
/-!
Counters, a gauge and histograms of the running process, and the samples and headers under which
they are exposed. A histogram bucket counts the observations up to its bound.
-/

namespace StartupLatency

/-- Bounds in thousandths of a second, each with the number of observations up to it. -/
structure Histogram where
  buckets : List (Nat × Nat)
  total : Nat
deriving DecidableEq

namespace Histogram

def ofBounds (bounds : List Nat) : Histogram := ⟨bounds.map fun bound => (bound, 0), 0⟩

def observe (histogram : Histogram) (seconds : Binary64) : Histogram :=
  ⟨histogram.buckets.map fun bucket =>
      if seconds.atMost (.ofRatio false bucket.1 1000) then (bucket.1, bucket.2 + 1) else bucket,
    histogram.total + 1⟩

end Histogram

structure Metrics where
  passes : SortedMap String Nat
  passSeconds : Histogram
  queueDepth : Int
  watchEvents : SortedMap String Nat
  querySeconds : SortedMap String Histogram
deriving DecidableEq

namespace Metrics

def passBounds : List Nat := [1, 5, 10, 25, 50, 100, 250, 500, 1000, 2500, 5000]

def queryBounds : List Nat := [5, 10, 25, 50, 100, 250, 500, 1000, 2500, 5000, 10000]

def empty : Metrics := ⟨∅, .ofBounds passBounds, 0, ∅, ∅⟩

def increment (counters : SortedMap String Nat) (label : String) : SortedMap String Nat :=
  counters.insert label ((counters.find? label).getD 0 + 1)

def countPass (metrics : Metrics) (outcome : String) : Metrics :=
  { metrics with passes := increment metrics.passes outcome }

def observePass (metrics : Metrics) (seconds : Binary64) : Metrics :=
  { metrics with passSeconds := metrics.passSeconds.observe seconds }

def setQueueDepth (metrics : Metrics) (depth : Int) : Metrics :=
  { metrics with queueDepth := depth }

def countWatchEvent (metrics : Metrics) (admitted : Bool) : Metrics :=
  { metrics with
    watchEvents := increment metrics.watchEvents (if admitted then "admitted" else "dropped") }

def observeQuery (metrics : Metrics) (endpoint : String) (seconds : Binary64) : Metrics :=
  let histogram := (metrics.querySeconds.find? endpoint).getD (.ofBounds queryBounds)
  { metrics with querySeconds := metrics.querySeconds.insert endpoint (histogram.observe seconds) }

structure Sample where
  name : String
  labels : List (String × String)
  value : Int
deriving DecidableEq

structure Family where
  name : String
  help : String
  kind : String
  samples : List Sample
deriving DecidableEq

-- Backslash, line feed and quotation mark are escaped in a label value.
def escapeLabel (c : Char) : List Char :=
  if c = '\\' then ['\\', '\\']
  else if c = '\n' then ['\\', 'n']
  else if c = '"' then ['\\', '"']
  else [c]

def labelText (label : String × String) : String :=
  label.1 ++ "=\"" ++ String.ofList (label.2.toList.flatMap escapeLabel) ++ "\""

def Sample.title (sample : Sample) : String :=
  if sample.labels.isEmpty then sample.name
  else sample.name ++ "\x7b" ++ Text.join "," (sample.labels.map labelText) ++ "\x7d"

def Family.header (family : Family) : List String :=
  ["# HELP " ++ family.name ++ " " ++ family.help, "# TYPE " ++ family.name ++ " " ++ family.kind]

def counterSamples (name label : String) (counters : SortedMap String Nat) : List Sample :=
  counters.entries.map fun entry => ⟨name, [(label, entry.1)], entry.2⟩

def boundText (bound : Nat) : String :=
  String.ofList (Duration.decimalText (bound / 1000) (bound % 1000) 3)

-- The buckets by ascending bound, the unbounded one last, and the count.
def histogramSamples (name : String) (labels : List (String × String)) (histogram : Histogram) :
    List Sample :=
  let bucket := name ++ "_bucket"
  (histogram.buckets.map fun entry => ⟨bucket, labels ++ [("le", boundText entry.1)], entry.2⟩) ++
    [⟨bucket, labels ++ [("le", "+Inf")], histogram.total⟩,
      ⟨name ++ "_count", labels, histogram.total⟩]

def families (metrics : Metrics) : List Family :=
  let query := "datapath_observer_query_duration_seconds"
  let depth := "datapath_observer_queue_depth"
  let seconds := "datapath_observer_reconcile_duration_seconds"
  let total := "datapath_observer_reconcile_total"
  let events := "datapath_observer_watch_events_total"
  [⟨query, "Time spent computing a query response", "histogram",
      metrics.querySeconds.entries.flatMap fun entry =>
        histogramSamples query [("endpoint", entry.1)] entry.2⟩,
    ⟨depth, "Pods waiting in the reconcile queue", "gauge", [⟨depth, [], metrics.queueDepth⟩]⟩,
    ⟨seconds, "Time spent reconciling a single pod", "histogram",
      histogramSamples seconds [] metrics.passSeconds⟩,
    ⟨total, "Reconciliations by outcome", "counter",
      counterSamples total "outcome" metrics.passes⟩,
    ⟨events, "Pod watch events by admission decision", "counter",
      counterSamples events "decision" metrics.watchEvents⟩]

-- The samples that differ from zero, in the families that have any.
def changes (metrics : Metrics) : List Family :=
  (metrics.families.map fun family =>
    { family with samples := family.samples.filter fun sample => sample.value ≠ 0 }).filter
      fun family => !family.samples.isEmpty

end Metrics
end StartupLatency
