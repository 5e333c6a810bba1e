import StartupLatency.Aggregate.Health
import StartupLatency.Terminal.Cell
import StartupLatency.Terminal.Table
/-!
The report of pod health: the counts by phase, and tables of the pods that are pending or failed.
-/

namespace StartupLatency.PodHealth

def detailTable (terminal : Terminal) (pods : List PodDetails) : Table :=
  ⟨["Namespace", "Pod", "Node", "Phase", "Reason", "Message"],
    pods.map fun pod =>
      [pod.ns, pod.name, Cell.orDash pod.node, Cell.phaseText terminal pod.phase,
        Cell.orDash pod.reason, Cell.orDash pod.message]⟩

def detailLines (terminal : Terminal) (heading : String) (pods : List PodDetails) : List String :=
  if pods.isEmpty then []
  else ["", terminal.paint .title heading] ++ (detailTable terminal pods).lines

def filterLine (terminal : Terminal) (label value : String) : List String :=
  if value = "" then [] else [label ++ terminal.paint (.plain .cyan) value]

def report (terminal : Terminal) (health : PodHealth) : List String :=
  let count (colour : Colour) (n : Nat) := terminal.paint (.plain colour) (Text.Decimal.text n)
  [terminal.paint .title "Pod Health", Cell.rule '='] ++
    filterLine terminal "Namespace:   " health.ns ++
    filterLine terminal "Selector:    " health.selector ++
    ["Pods:        " ++ Text.Decimal.text health.desired,
      "Running:     " ++ count .green health.running,
      "Pending:     " ++ count .yellow health.pending,
      "Failed:      " ++ count .red health.failed,
      "Success:     " ++ Cell.shareText terminal health.successPct] ++
    detailLines terminal "Pending Pods" health.pendingPods ++
    detailLines terminal "Failed Pods" health.failedPods

end StartupLatency.PodHealth
