import StartupLatency.Cluster.Store
import StartupLatency.Json.MergePatch
/-!
An API server that keeps the objects of one resource: what the stores behind `Link` may count on.
An object is created under a name that is free and changed on condition of its version, and every
write gives it a version that no object had before. A collection is read over one namespace or
over all, and selected by the labels in the metadata.
-/

namespace StartupLatency.Cluster

/-- The versions that a server gives to its writes, one after the other and none of them twice. -/
structure VersionSource where
  text : Nat → String
  fresh : ∀ first second, text first = text second → first = second

structure ObjectServer where
  resource : Resource
  versions : VersionSource
  objects : SortedMap ObjectName Json
  writes : Nat

namespace ObjectServer

def empty (resource : Resource) (versions : VersionSource) : ObjectServer :=
  ⟨resource, versions, ∅, 0⟩

inductive Target where
  | collection (ns? : Option String)
  | object (key : ObjectName)
deriving DecidableEq

def Target.path (resource : Resource) : Target → String
  | .collection ns? => resource.path ns?
  | .object key => resource.objectPath key

def targetOf? (resource : Resource) (path : String) : Option Target :=
  match ((Text.splitOn '/' path.toList).map String.ofList).reverse with
  | last :: second :: third :: _ =>
    [.collection none, .collection (some second), .object ⟨third, last⟩].find? fun target =>
      Target.path resource target == path
  | _ => none

def metadata (object : Json) : ObjectMeta :=
  match (object.member? "metadata").map ObjectMeta.decode with
  | some (.ok objectMeta) => objectMeta
  | _ => default

/-- Every piece of the text between commas names a label with its value. -/
def fulfils (labels : Labels) (text : String) : Bool :=
  (Text.splitOn ',' text.toList).all fun piece =>
    labels.find? (String.ofList (piece.takeWhile (· != '='))) ==
      some (String.ofList ((piece.dropWhile (· != '=')).drop 1))

def selectedBy (parameters : List (String × String)) (object : Json) : Bool :=
  match parameters.lookup "labelSelector" with
  | some text => fulfils ((metadata object).labels?.getD ∅) text
  | none => true

def refusal (status : Nat) (message reason : String) : Answer :=
  .replied status (.json (.obj
    [("kind", .str "Status"), ("apiVersion", .str "v1"), ("status", .str "Failure"),
      ("message", .str message), ("reason", .str reason), ("code", .nat status)]))

def notFound : Answer := refusal 404 "not found" "NotFound"

def found (status : Nat) (object : Json) : Answer := .replied status (.json object)

def write (server : ObjectServer) (status : Nat) (key : ObjectName) (object : Json) :
    Answer × ObjectServer :=
  let version := server.versions.text (server.writes + 1)
  let kept := object.patchedBy (.obj [("metadata", .obj [("resourceVersion", .str version)])])
  (found status kept,
    { server with objects := server.objects.insert key kept, writes := server.writes + 1 })

def list (server : ObjectServer) (ns? : Option String) (parameters : List (String × String)) :
    Answer :=
  let items := server.objects.entries.filter fun entry =>
    ns?.all (· == entry.1.ns) && selectedBy parameters entry.2
  found 200 (.obj
    [("metadata", .obj [("resourceVersion", .str (server.versions.text server.writes))]),
      ("items", .arr (items.map Prod.snd))])

def create (server : ObjectServer) (ns : String) (object : Json) : Answer × ObjectServer :=
  let key : ObjectName := ⟨ns, (metadata object).name?.getD ""⟩
  if server.objects.contains key then (refusal 409 "already exists" "AlreadyExists", server)
  else server.write 201 key object

-- A change that names another version than the stored one is a conflict.
def change (server : ObjectServer) (key : ObjectName) (patch : Json) : Answer × ObjectServer :=
  match server.objects.find? key with
  | none => (notFound, server)
  | some object =>
    let wanted? := (metadata patch).version?
    if wanted?.all fun version => (metadata object).version? = some version then
      server.write 200 key (object.patchedBy patch)
    else (refusal 409 "object has been modified" "Conflict", server)

def respond (server : ObjectServer) (target? : Option Target)
    (parameters : List (String × String)) (method : Method) (body? : Option Json) :
    Answer × ObjectServer :=
  match target?, method, body? with
  | some (.collection ns?), .get, _ => (server.list ns? parameters, server)
  | some (.collection (some ns)), .post, some object => server.create ns object
  | some (.object key), .get, _ =>
    (((server.objects.find? key).map (found 200)).getD notFound, server)
  | some (.object key), .patch, some patch => server.change key patch
  | _, _, _ => (notFound, server)

/-- The server as a link that its stores send their requests over. -/
def answer : Link ObjectServer := fun request server =>
  let uri := request.uri.toList
  let path := String.ofList (uri.takeWhile (· != '?'))
  let parameters := Url.Form.decode ((uri.dropWhile (· != '?')).drop 1)
  server.respond (targetOf? server.resource path) parameters request.method request.body?

-- A call over the server, beside which the pods are kept in memory.
def beside (call : ObjectServer → α × ObjectServer) (world : PodStore × ObjectServer) :
    α × PodStore × ObjectServer :=
  let (answer, server) := call world.2
  (answer, world.1, server)

def access : StoreAccess (PodStore × ObjectServer) where
  getPod key world := (world.1.get key, world)
  getRecord key := beside (Link.getRecord answer key)
  createRecord record := beside (Link.createRecord answer record)
  updateRecord record := beside (Link.updateRecord answer record)

end ObjectServer
end StartupLatency.Cluster
