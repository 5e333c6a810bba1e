import StartupLatency.Cluster.Answer
import StartupLatency.Cluster.Pod
import StartupLatency.Cluster.Record
import StartupLatency.Server
/-!
The stores of pods and records behind an API server. A call is at most one request; one that
cannot be made is never sent.
-/

namespace StartupLatency.Cluster

abbrev Link (σ : Type) := Request → σ → Answer × σ

namespace Link

def call (link : Link σ) (what : String) (decode : Json.Decoder α)
    (request : Except UriFault Request) (world : σ) : Except StoreError α × σ :=
  match request with
  | .error fault => (.error ((Fault.unsendable fault).storeError what), world)
  | .ok request =>
    let (answer, world) := link request world
    ((answer.read decode).mapError (Fault.storeError what), world)

def getPod (link : Link σ) (key : ObjectName) : σ → Except StoreError Pod × σ :=
  link.call (Pod.title key) podOf (Request.get .pods key)

def listPods (link : Link σ) (scope : Scope) (world : σ) : Except StoreError (List Pod) × σ :=
  let (answer, world) :=
    link.call Resource.pods.plural (ObjectList.decode podOf) (Request.list .pods scope) world
  (answer.map ObjectList.items, world)

def patchPod (link : Link σ) (key : ObjectName) (annotations : Annotations) (world : σ) :
    Except StoreError Unit × σ :=
  let (answer, world) :=
    link.call (Pod.title key) podOf (Request.patch .pods key (annotationChange annotations)) world
  (answer.map fun _ => (), world)

def recordCall (link : Link σ) (key : ObjectName) (request : Except UriFault Request)
    (world : σ) : Except StoreError Record × σ :=
  let (answer, world) := link.call (Record.title key) RecordObject.Parts.decode request world
  (answer.bind RecordObject.Parts.record, world)

def getRecord (link : Link σ) (key : ObjectName) : σ → Except StoreError Record × σ :=
  link.recordCall key (Request.get .records key)

def listRecords (link : Link σ) (scope : Scope) (world : σ) :
    Except StoreError (List Record) × σ :=
  let (answer, world) := link.call Resource.records.plural
    (ObjectList.decode RecordObject.Parts.decode) (Request.list .records scope) world
  (answer.bind fun list => list.items.mapM RecordObject.Parts.record, world)

-- A new object is sent without a version; the server gives it one.
def createRecord (link : Link σ) (record : Record) : σ → Except StoreError Record × σ :=
  link.recordCall record.key (Request.create .records record.ns
    (RecordObject.ofRecord { record with version := none }))

def updateRecord (link : Link σ) (record : Record) (world : σ) :
    Except StoreError Record × σ :=
  match RecordObject.change record with
  | .error error => (.error error, world)
  | .ok change => link.recordCall record.key (Request.patch .records record.key change) world

def access (link : Link σ) : StoreAccess σ :=
  ⟨link.getPod, link.getRecord, link.createRecord, link.updateRecord⟩

def listings (link : Link σ) : Listings σ := ⟨link.listRecords, link.listPods⟩

end Link
end StartupLatency.Cluster
