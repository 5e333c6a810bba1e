import StartupLatency.Store.Access
/-!
Stores in memory whose calls go wrong by script: a call may fail with a given error, and a write
may find that others wrote just before it.
-/

namespace StartupLatency

inductive StoreMethod where
  | getPod
  | listPods
  | patchPod
  | getRecord
  | listRecords
  | createRecord
  | updateRecord
deriving DecidableEq

structure ScriptedStores where
  stores : Stores
  -- What becomes of the coming calls of a method: an error, or nothing special.
  faults : StoreMethod → List (Option StoreError)
  -- What others write just before the coming creates and updates.
  rivals : List (List Record)

namespace ScriptedStores

def ofStores (stores : Stores) : ScriptedStores := ⟨stores, fun _ => [], []⟩

def setFaults (world : ScriptedStores) (method : StoreMethod)
    (script : List (Option StoreError)) : ScriptedStores :=
  { world with faults := fun other => if other = method then script else world.faults other }

def upsertPod (world : ScriptedStores) (pod : Pod) : ScriptedStores :=
  { world with stores := { world.stores with pods := world.stores.pods.upsert pod } }

def writeRecords (world : ScriptedStores) (records : List Record) : ScriptedStores :=
  { world with stores := { world.stores with records := world.stores.records.writeAll records } }

-- The next entry of a method's script; an exhausted script lets calls through.
def takeFault (method : StoreMethod) (world : ScriptedStores) :
    Option StoreError × ScriptedStores :=
  ((world.faults method).head?.join, world.setFaults method (world.faults method).tail)

def letRivalsWrite (world : ScriptedStores) : ScriptedStores :=
  { world.writeRecords (world.rivals.head?.getD []) with rivals := world.rivals.tail }

def call (method : StoreMethod) (run : ScriptedStores → Except StoreError α × ScriptedStores)
    (world : ScriptedStores) : Except StoreError α × ScriptedStores :=
  match world.takeFault method with
  | (some error, world) => (.error error, world)
  | (none, world) => run world

section
variable {method : StoreMethod} {world : ScriptedStores} {error : StoreError}
  (run : ScriptedStores → Except StoreError α × ScriptedStores)

theorem call_stopped (next : (world.faults method).head?.join = some error) :
    call method run world = (.error error, world.setFaults method (world.faults method).tail) := by
  simp [call, takeFault, next]

theorem call_passed (next : (world.faults method).head?.join = none) :
    call method run world = run (world.setFaults method (world.faults method).tail) := by
  simp [call, takeFault, next]

end

def listPods (scope : Scope) : ScriptedStores → Except StoreError (List Pod) × ScriptedStores :=
  call .listPods fun world => (.ok (world.stores.pods.list scope), world)

def listRecords (scope : Scope) :
    ScriptedStores → Except StoreError (List Record) × ScriptedStores :=
  call .listRecords fun world => (.ok (world.stores.records.list scope), world)

def getPod (key : ObjectName) : ScriptedStores → Except StoreError Pod × ScriptedStores :=
  call .getPod fun world => (world.stores.pods.get key, world)

def patchPod (key : ObjectName) (annotations : Annotations) :
    ScriptedStores → Except StoreError Unit × ScriptedStores :=
  call .patchPod fun world =>
    let (answer, pods) := world.stores.pods.patch key annotations
    (answer, { world with stores := { world.stores with pods := pods } })

def getRecord (key : ObjectName) : ScriptedStores → Except StoreError Record × ScriptedStores :=
  call .getRecord fun world => (world.stores.records.get key, world)

-- A write that no fault stops, behind the rivals' writes.
def writeWith (method : StoreMethod)
    (run : RecordStore → Except StoreError Record × RecordStore) :
    ScriptedStores → Except StoreError Record × ScriptedStores :=
  call method fun world =>
    let world := world.letRivalsWrite
    let (answer, records) := run world.stores.records
    (answer, { world with stores := { world.stores with records := records } })

def createRecord (record : Record) :
    ScriptedStores → Except StoreError Record × ScriptedStores :=
  writeWith .createRecord fun records => records.create record

def updateRecord (record : Record) :
    ScriptedStores → Except StoreError Record × ScriptedStores :=
  writeWith .updateRecord fun records => records.update record

def access : StoreAccess ScriptedStores := ⟨getPod, getRecord, createRecord, updateRecord⟩

end ScriptedStores
end StartupLatency
