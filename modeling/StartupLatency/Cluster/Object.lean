import StartupLatency.Pod.Data
import StartupLatency.Word
/-!
Objects as an API server writes them. Every member may be absent or `null`; of repeated members
the last counts. Members that are not kept are still checked to have their type.
-/

namespace StartupLatency.Cluster

open Json (Decoder DecodeFault)

/-- A member that may be absent; `null` takes a value back. -/
def member (name : String) (read : Decoder β) (put : α → Option β → α) : Json.Field α :=
  ⟨name, .never, fun json value => (Json.Decode.optional read json).map (put value)⟩

-- The members of an object in document order; unknown ones are passed over.
def readMembers (fields : List (Json.Field α)) (value : α) :
    List (String × Json) → Except DecodeFault α
  | [] => .ok value
  | (name, json) :: rest =>
    match fields.find? fun field => field.name == name with
    | none => readMembers fields value rest
    | some field =>
      match field.read json value with
      | .error fault => .error fault
      | .ok value => readMembers fields value rest

def object (kind : String) (start : α) (fields : List (Json.Field α)) : Decoder α
  | .obj members => readMembers fields start members
  | other => .error (.wrongType other kind)

/-- Types of members that are checked and not kept. -/
inductive MemberType where
  | text
  | flag
  | int32
  | int64
  | time
  | texts
  | textMap
  | object (kind : String)
  | objects (kind : String)

namespace MemberType

def drop (read : Decoder β) : Decoder Unit := fun json => (read json).map fun _ => ()

def check : MemberType → Decoder Unit
  | .text => drop Json.Decode.string
  | .flag => drop Json.Decode.boolean
  | .int32 => drop (Json.Decode.integer (-(Word.half32 : Int)) (Word.half32 - 1) "i32")
  | .int64 => drop Json.Decode.int64
  | .time => drop Instant.decode
  | .texts => drop (Json.Decode.list Json.Decode.string)
  | .textMap => drop (Json.Decode.map Json.Decode.string)
  | .object kind => Cluster.object kind () []
  | .objects kind => drop (Json.Decode.list (Cluster.object kind () []))

end MemberType

def checked (type : MemberType) (names : List String) : List (Json.Field α) :=
  names.map fun name => member name type.check fun value _ => value

structure ObjectMeta where
  name? : Option String
  ns? : Option String
  uid? : Option String
  version? : Option String
  created? : Option Instant
  labels? : Option Labels
  annotations? : Option Annotations
deriving DecidableEq, Inhabited

namespace ObjectMeta

def fields : List (Json.Field ObjectMeta) :=
  [member "name" Json.Decode.string fun m v => { m with name? := v },
    member "namespace" Json.Decode.string fun m v => { m with ns? := v },
    member "uid" Json.Decode.string fun m v => { m with uid? := v },
    member "resourceVersion" Json.Decode.string fun m v => { m with version? := v },
    member "creationTimestamp" Instant.decode fun m v => { m with created? := v },
    member "labels" (Json.Decode.map Json.Decode.string) fun m v => { m with labels? := v },
    member "annotations" (Json.Decode.map Json.Decode.string) fun m v =>
      { m with annotations? := v }] ++
  checked .text ["generateName", "selfLink"] ++
  checked .int64 ["deletionGracePeriodSeconds", "generation"] ++
  checked .time ["deletionTimestamp"] ++ checked .texts ["finalizers"] ++
  checked (.objects "ManagedFieldsEntry") ["managedFields"] ++
  checked (.objects "OwnerReference") ["ownerReferences"]

def decode : Decoder ObjectMeta := object "ObjectMeta" default fields

end ObjectMeta

structure ListMeta where
  version? : Option String
  continue? : Option String
deriving DecidableEq, Inhabited

namespace ListMeta

def decode : Decoder ListMeta :=
  object "ListMeta" default
    ([member "resourceVersion" Json.Decode.string fun m v => { m with version? := v },
      member "continue" Json.Decode.string fun m v => { m with continue? := v }] ++
      checked .text ["selfLink"] ++ checked .int64 ["remainingItemCount"])

end ListMeta

structure ObjectList (α : Type) where
  listMeta : ListMeta
  items : List α
deriving Inhabited

namespace ObjectList

def shape (read : Decoder α) : Json.Shape (ObjectList α) :=
  ⟨"ObjectList", default,
    [Json.field "metadata" .never ListMeta.decode fun list value => { list with listMeta := value },
      Json.field "items" .always (Json.Decode.optional (Json.Decode.list read)) fun list value =>
        { list with items := value.getD [] }]⟩

def decode (read : Decoder α) : Decoder (ObjectList α)
  | .obj members => (shape read).decode (.obj members)
  | other => .error (.wrongType other "struct ObjectList")

end ObjectList
end StartupLatency.Cluster
