import StartupLatency.Observation
import StartupLatency.Store.Access
/-!
One reconcile pass over one pod key, as a machine that makes one store call a step: it reads the
pod, reads the pod's record, and creates or updates the record when the pod shows something new.
Passes share nothing but the stores, so runs of many passes are interleavings of these steps.
-/

namespace StartupLatency

inductive PassWork where
  | podGone
  | upToDate
  | created (record : Record)
  | updated (record : Record)
deriving DecidableEq

inductive PassOutcome where
  | done (work : PassWork)
  -- Another writer was faster: run again right away.
  | requeue
  | failed (error : StoreError)
deriving DecidableEq

/-- A pass by the call that it makes next. -/
inductive Pass where
  | readingPod
  | readingRecord (pod : Pod)
  | creating (record : Record)
  | updating (record : Record)
  | ended (outcome : PassOutcome)
deriving DecidableEq

namespace Pass

def recordKey (pod : Pod) : ObjectName := ⟨pod.ns, Record.nameFor pod.uid⟩

def afterPodRead : Except StoreError Pod → Pass
  | .ok pod => .readingRecord pod
  | .error (.notFound _) => .ended (.done .podGone)
  | .error error => .ended (.failed error)

/-- A pod without a record gets one; a record that the pod's observation changes is updated. -/
def afterRecordRead (policy : Policy) (pod : Pod) : Except StoreError Record → Pass
  | .ok record =>
    if record.spec.changedBy (.ofPod pod) policy then
      .updating { record with spec := record.spec.apply (.ofPod pod) policy }
    else .ended (.done .upToDate)
  | .error (.notFound _) => .creating (.ofPod pod policy)
  | .error error => .ended (.failed error)

def afterCreate : Except StoreError Record → Pass
  | .ok record => .ended (.done (.created record))
  | .error (.alreadyExists _) => .ended .requeue
  | .error error => .ended (.failed error)

def afterUpdate : Except StoreError Record → Pass
  | .ok record => .ended (.done (.updated record))
  | .error (.conflict _) => .ended .requeue
  | .error error => .ended (.failed error)

-- One store call and what the pass makes of its answer.
def step (access : StoreAccess σ) (policy : Policy) (key : ObjectName) (pass : Pass) (world : σ) :
    Pass × σ :=
  match pass with
  | .readingPod =>
    let (answer, world) := access.getPod key world
    (afterPodRead answer, world)
  | .readingRecord pod =>
    let (answer, world) := access.getRecord (recordKey pod) world
    (afterRecordRead policy pod answer, world)
  | .creating record =>
    let (answer, world) := access.createRecord record world
    (afterCreate answer, world)
  | .updating record =>
    let (answer, world) := access.updateRecord record world
    (afterUpdate answer, world)
  | .ended outcome => (.ended outcome, world)

structure RecordCall where
  name : String
  key : ObjectName
deriving DecidableEq

def recordCall? : Pass → Option RecordCall
  | .readingRecord pod => some ⟨"get", recordKey pod⟩
  | .creating record => some ⟨"create", record.key⟩
  | .updating record => some ⟨"update", record.key⟩
  | _ => none

def outcome? : Pass → Option PassOutcome
  | .ended outcome => some outcome
  | _ => none

/-- A pass that runs to its end undisturbed: its outcome, its record calls and the world after. A
pass makes three calls at most, which the fuel counts. -/
def finish (access : StoreAccess σ) (policy : Policy) (key : ObjectName) (fuel : Nat)
    (pass : Pass) (world : σ) : Pass × List RecordCall × σ :=
  match fuel with
  | 0 => (pass, [], world)
  | fuel + 1 =>
    let (next, world) := pass.step access policy key world
    let (last, calls, world) := next.finish access policy key fuel world
    (last, pass.recordCall?.toList ++ calls, world)

def run (access : StoreAccess σ) (policy : Policy) (key : ObjectName) (world : σ) :
    Pass × List RecordCall × σ :=
  readingPod.finish access policy key 3 world

def failureText (key : ObjectName) (error : StoreError) : String :=
  "reconcile " ++ key.text ++ ": " ++ error.message

end Pass
end StartupLatency
