import StartupLatency.Store.Error
/-!
Pods in memory: the latest version of each, by namespace and name.
-/

namespace StartupLatency

structure PodStore where
  pods : SortedMap ObjectName Pod
  -- Annotation patches that were asked for, whether they found their pod or not.
  patchCalls : Nat
deriving DecidableEq

namespace PodStore

def empty : PodStore := ⟨∅, 0⟩

def upsert (store : PodStore) (pod : Pod) : PodStore :=
  { store with pods := store.pods.insert pod.key pod }

def ofPods (pods : List Pod) : PodStore := pods.foldl upsert empty

def get (store : PodStore) (key : ObjectName) : Except StoreError Pod :=
  match store.pods.find? key with
  | some pod => .ok pod
  | none => .error (.notFound (Pod.title key))

def list (store : PodStore) (scope : Scope) : List Pod :=
  store.pods.values.filter fun pod => scope.covers pod.ns pod.labels

def patch (store : PodStore) (key : ObjectName) (annotations : Annotations) :
    Except StoreError Unit × PodStore :=
  let counted := { store with patchCalls := store.patchCalls + 1 }
  match store.pods.find? key with
  | some pod =>
    let patched := { pod with annotations := pod.annotations.override annotations }
    (.ok (), { counted with pods := store.pods.insert key patched })
  | none => (.error (.notFound (Pod.title key)), counted)

end PodStore
end StartupLatency
