import StartupLatency.Cluster.Object
import StartupLatency.Cluster.Request
import StartupLatency.Record.Data
import StartupLatency.Store.Error
/-!
Records as objects of an API server. The labels of a record are written to the object's metadata
too, so that the server can select by them.
-/

namespace StartupLatency.Cluster

open Json (Decoder DecodeFault)

namespace RecordObject

def labelsMember (labels : Labels) : List (String × Json) :=
  if labels.isEmpty then [] else [("labels", Json.ofStringMap labels)]

def versionMember (version? : Option String) : List (String × Json) :=
  version?.toList.map fun version => ("resourceVersion", .str version)

def ofRecord (record : Record) : Json :=
  .obj [("apiVersion", .str Resource.records.apiVersion), ("kind", .str Resource.records.kind),
    ("metadata", .obj (labelsMember record.spec.labels ++
      [("name", .str record.name), ("namespace", .str record.ns)] ++
      versionMember record.version)),
    ("spec", record.spec.toJson)]

-- The change that brings a stored object to the record, on condition of its version.
def change (record : Record) : Except StoreError Json :=
  match record.version with
  | none => .error (.backend ("update " ++ record.name ++ ": missing resourceVersion"))
  | some version =>
    .ok (.obj [("metadata", .obj ([("resourceVersion", .str version)] ++
      labelsMember record.spec.labels)), ("spec", record.spec.toJson)])

/-- An object of any kind: its metadata, and all its other members. -/
structure Parts where
  objectMeta : ObjectMeta
  rest : List (String × Json)
deriving Inhabited

namespace Parts

def ofMembers (parts : Parts) (seen : Bool) :
    List (String × Json) → Except DecodeFault Parts
  | [] => .ok parts
  | (name, json) :: more =>
    if name = "metadata" then
      if seen then .error (.duplicateField name)
      else
        match ObjectMeta.decode json with
        | .error fault => .error fault
        | .ok objectMeta => ofMembers { parts with objectMeta := objectMeta } true more
    else if json.isReadable then
      ofMembers { parts with rest := parts.rest ++ [(name, json)] } seen more
    else .error (.malformed "no value")

def decode : Decoder Parts
  | .obj members => ofMembers default false members
  | other => .error (.wrongType other "struct DynamicObject")

def record (parts : Parts) : Except StoreError Record :=
  let name := parts.objectMeta.name?.getD ""
  let spec := ((Json.obj parts.rest).member? "spec").getD .null
  match RecordSpec.decode spec.canonical with
  | .ok spec => .ok ⟨parts.objectMeta.ns?.getD "", name, parts.objectMeta.version?, spec⟩
  | .error fault => .error (.backend ("decode " ++ name ++ ": " ++ fault.message))

end Parts
end RecordObject
end StartupLatency.Cluster
