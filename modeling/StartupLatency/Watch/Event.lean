import StartupLatency.Pod
/-!
Lifecycle events out of a watch. A watch reports single pods and complete listings; a view of the
last version of each pod turns that into creations, updates and deletions.
-/

namespace StartupLatency

inductive PodEvent where
  | created (pod : Pod)
  | updated (old new : Pod)
  | deleted (pod : Pod)
deriving DecidableEq

def PodEvent.pod : PodEvent → Pod
  | .created pod => pod
  | .updated _ new => new
  | .deleted pod => pod

inductive WatchUpdate where
  | applied (pod : Pod)
  | deleted (pod : Pod)
  -- Everything that exists, after a fresh start of the watch. The order in which known pods are
  -- gone through for it is nobody's choice, so it comes with the report.
  | restarted (pods : List Pod) (sweep : List ObjectName)
deriving DecidableEq

abbrev PodView := SortedMap ObjectName Pod

namespace PodView

def apply (view : PodView) (pod : Pod) : PodEvent × PodView :=
  (match view.find? pod.key with
    | some old => .updated old pod
    | none => .created pod,
    view.insert pod.key pod)

def applyAll (view : PodView) : List Pod → List PodEvent × PodView
  | [] => ([], view)
  | pod :: rest =>
    let (event, view) := view.apply pod
    let (events, view) := applyAll view rest
    (event :: events, view)

def isListed (pods : List Pod) (key : ObjectName) : Bool := pods.any fun pod => pod.key == key

-- The known pods that a listing does not have any more.
def vanished (view : PodView) (listed : List Pod) : PodView :=
  view.filter fun key _ => !isListed listed key

def remaining (view : PodView) (listed : List Pod) : PodView :=
  view.filter fun key _ => isListed listed key

/-- Pods in the order of a sweep; those that it does not name stay behind, in their own order. -/
def swept : List ObjectName → List Pod → List Pod
  | [], pods => pods
  | key :: rest, pods =>
    (pods.filter fun pod => pod.key = key) ++ swept rest (pods.filter fun pod => ¬ pod.key = key)

/-- The events of one report, in order: a listing first deletes what has vanished. -/
def translate (view : PodView) : WatchUpdate → List PodEvent × PodView
  | .applied pod =>
    let (event, view) := view.apply pod
    ([event], view)
  | .deleted pod => ([.deleted pod], view.erase pod.key)
  | .restarted pods sweep =>
    let (events, known) := applyAll (view.remaining pods) pods
    ((swept sweep (view.vanished pods).values).map .deleted ++ events, known)

def translateAll (view : PodView) : List WatchUpdate → List PodEvent × PodView
  | [] => ([], view)
  | update :: rest =>
    let (events, view) := view.translate update
    let (more, view) := translateAll view rest
    (events ++ more, view)

end PodView

namespace Pod

/-- A change that a record may take up: a timestamp annotation or the node. -/
def relevantChange (old new : Pod) : Bool :=
  old.startTs != new.startTs || old.readyTs != new.readyTs || old.node != new.node

end Pod

/-- Events worth a pass. Deletions are none: records outlive their pods. -/
def Scope.admits (scope : Scope) : PodEvent → Bool
  | .created pod => scope.covers pod.ns pod.labels
  | .updated old new => scope.covers new.ns new.labels && old.relevantChange new
  | .deleted _ => false

end StartupLatency
