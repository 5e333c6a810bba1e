import StartupLatency.Aggregate.Latency
import StartupLatency.Terminal.Cell
import StartupLatency.Terminal.Table
/-!
The report of latency percentiles: the counts, the percentiles with the slowest pods, and the pods
without a measurement.
-/

namespace StartupLatency

def LatencyMetric.title : LatencyMetric → String
  | .timeToStart => "Time to Start"
  | .timeToReady => "Time to Datapath Ready"

namespace LatencySummary

def slowestTable (summary : LatencySummary) : Table :=
  ⟨["Namespace", "Pod", "Node", "Latency", "Measured At"],
    summary.worstPods.map fun pod =>
      [pod.ns, pod.name, Cell.orDash pod.node, Cell.durationText pod.value,
        Cell.orDash pod.measured]⟩

def unmeasuredTable (summary : LatencySummary) : Table :=
  ⟨["Namespace", "Pod", "UID", "Node"],
    summary.failedPods.map fun pod => [pod.ns, pod.name, pod.uid, Cell.orDash pod.node]⟩

def measurementLines (terminal : Terminal) (summary : LatencySummary) : List String :=
  if summary.count = 0 then [Cell.warning terminal "No successful measurements"]
  else
    [terminal.paint .title "Percentiles", Cell.rule '-',
      "p50:         " ++ Cell.durationText summary.p50,
      "p90:         " ++ terminal.paint (.plain .yellow) (Cell.durationText summary.p90),
      "p99:         " ++ terminal.paint (.plain .red) (Cell.durationText summary.p99), "",
      terminal.paint .title "Slowest Pods"] ++ summary.slowestTable.lines

def shownText (summary : LatencySummary) : String :=
  "Showing " ++ Text.Decimal.text summary.failedPods.length ++ " of " ++
    Text.Decimal.text summary.failed ++ "; raise --top-n to see more"

-- Nothing when no such pod is listed, however many there are.
def unmeasuredLines (terminal : Terminal) (summary : LatencySummary) : List String :=
  if summary.failedPods.isEmpty then []
  else
    ["", terminal.paint .title "Pods Without Measurement"] ++ summary.unmeasuredTable.lines ++
      if summary.failedPods.length < summary.failed then [Cell.note terminal summary.shownText]
      else []

def report (terminal : Terminal) (metric : LatencyMetric) (summary : LatencySummary) :
    List String :=
  let successful := terminal.paint (.plain .green) (Text.Decimal.text summary.successful)
  let failed := terminal.paint (.plain .red) (Text.Decimal.text summary.failed)
  [terminal.paint .title metric.title, Cell.rule '=',
    "Pods:        " ++ successful ++ " measured, " ++ failed ++ " without measurement", ""] ++
    measurementLines terminal summary ++ unmeasuredLines terminal summary

end LatencySummary
end StartupLatency
