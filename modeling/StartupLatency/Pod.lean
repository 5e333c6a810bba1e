import StartupLatency.Instant
import StartupLatency.Selector
/-!
Pods as they are observed, and the two annotations through which a pod reports its own timing.
-/

namespace StartupLatency

structure ObjectName where
  ns : String
  name : String
deriving DecidableEq, Inhabited, Repr

namespace ObjectName

instance : Ord ObjectName where
  compare a b := (compare a.ns b.ns).then (compare a.name b.name)

theorem compare_def (a b : ObjectName) :
    compare a b = (compare a.ns b.ns).then (compare a.name b.name) := rfl

instance : Std.LawfulEqOrd ObjectName where
  compare_self {a} := by simp [compare_def]
  eq_of_compare {a b} same := by
    rw [compare_def, Ordering.then_eq_eq] at same
    cases a; cases b
    simp_all

instance : Std.TransOrd ObjectName where
  eq_swap {a b} := by
    rw [compare_def, compare_def, Ordering.swap_then,
      ← Std.OrientedCmp.eq_swap, ← Std.OrientedCmp.eq_swap]
  isLE_trans {a b c} := by
    simp only [compare_def, Ordering.isLE_then_iff_or]
    intro ab bc
    rcases ab with ab | ⟨nsAB, nameAB⟩ <;> rcases bc with bc | ⟨nsBC, nameBC⟩
    · exact .inl (Std.TransCmp.lt_trans ab bc)
    · rw [Std.LawfulEqOrd.eq_of_compare nsBC] at ab
      exact .inl ab
    · rw [← Std.LawfulEqOrd.eq_of_compare nsAB] at bc
      exact .inl bc
    · refine .inr ⟨?_, Std.TransCmp.isLE_trans nameAB nameBC⟩
      rw [Std.LawfulEqOrd.eq_of_compare nsAB]
      exact nsBC

def text (key : ObjectName) : String := key.ns ++ "/" ++ key.name

end ObjectName

inductive Phase where
  | pending
  | running
  | succeeded
  | failed
  | unknown
deriving DecidableEq, Inhabited

namespace Phase

def text : Phase → String
  | .pending => "Pending"
  | .running => "Running"
  | .succeeded => "Succeeded"
  | .failed => "Failed"
  | .unknown => "Unknown"

def all : List Phase := [.pending, .running, .succeeded, .failed, .unknown]

def named? (name : String) : Option Phase := all.find? fun phase => phase.text == name

-- Any text that names no phase is the unknown phase.
def of (name : String) : Phase := (named? name).getD .unknown

end Phase

abbrev Annotations := SortedMap String String

def startKey : String := "perf.github.com/azure-start-ts"

def readyKey : String := "perf.github.com/azure-dp-ready-ts"

structure Pod where
  ns : String
  name : String
  uid : String
  created : Instant
  -- Empty until the pod has a node.
  node : String
  phase : Phase
  reason : String
  message : String
  labels : Labels
  annotations : Annotations
deriving DecidableEq, Inhabited

namespace Pod

def key (pod : Pod) : ObjectName := ⟨pod.ns, pod.name⟩

def annotation (pod : Pod) (key : String) : String := (pod.annotations.find? key).getD ""

def startTs (pod : Pod) : String := pod.annotation startKey

def readyTs (pod : Pod) : String := pod.annotation readyKey

end Pod
end StartupLatency
