import StartupLatency.Binary64
import StartupLatency.Pod
import StartupLatency.Query
/-!
Tally of live pods by phase, with details of the pods that are pending or failed.
-/

namespace StartupLatency

structure PodDetails where
  ns : String
  name : String
  uid : String
  node : String
  phase : String
  reason : String
  message : String
deriving DecidableEq, Inhabited

def PodDetails.ofPod (pod : Pod) : PodDetails :=
  ⟨pod.ns, pod.name, pod.uid, pod.node, pod.phase.text, pod.reason, pod.message⟩

structure PodHealth where
  ns : String
  selector : String
  desired : Nat
  running : Nat
  pending : Nat
  failed : Nat
  successPct : Binary64
  pendingPods : List PodDetails
  failedPods : List PodDetails
deriving DecidableEq

namespace PodHealth

def inPhase (phase : Phase) (pods : List Pod) : List Pod := pods.filter fun pod => pod.phase = phase

/-- The running share of all pods in percent, rounded after the division and again after the
multiplication; zero for no pods. -/
def sharePct (running total : Nat) : Binary64 :=
  if total = 0 then .zero false
  else ((Binary64.ofNat running).div (.ofNat total)).mul (.ofNat 100)

def byKey (a b : Pod) : Bool := (compare a.key b.key).isLE

-- Pods that are neither running nor pending nor failed count toward the total only.
def tally (query : Query) (pods : List Pod) : PodHealth :=
  let pods := pods.mergeSort byKey
  let pending := inPhase .pending pods
  let failed := inPhase .failed pods
  { ns := query.ns?.getD ""
    selector := query.selector.text
    desired := pods.length
    running := (inPhase .running pods).length
    pending := pending.length
    failed := failed.length
    successPct := sharePct (inPhase .running pods).length pods.length
    pendingPods := (pending.take query.topN).map .ofPod
    failedPods := (failed.take query.topN).map .ofPod }

end PodHealth
end StartupLatency
