import StartupLatency.Json
import StartupLatency.Record
import StartupLatency.Url.Form
/-!
Requests to a cluster's API server: resources and their paths, queries, bodies. Names are put into
a path as they are, so that a name with a character that no path may have makes no request.
-/

namespace StartupLatency.Cluster

structure Resource where
  group : String
  version : String
  kind : String
  plural : String
deriving DecidableEq

namespace Resource

-- Group and version; the core group has no name.
def apiVersion (resource : Resource) : String :=
  if resource.group = "" then resource.version else resource.group ++ "/" ++ resource.version

def pods : Resource := ⟨"", "v1", "Pod", "pods"⟩

def records : Resource := ⟨"perf.github.com", "v1", "DatapathResult", "datapathresults"⟩

def path (resource : Resource) (ns? : Option String) : String :=
  (if resource.group = "" then "/api/" else "/apis/") ++ resource.apiVersion ++ "/" ++
    (match ns? with
      | some ns => "namespaces/" ++ ns ++ "/"
      | none => "") ++ resource.plural

def objectPath (resource : Resource) (key : ObjectName) : String :=
  resource.path (some key.ns) ++ "/" ++ key.name

end Resource

inductive Method where
  | get
  | post
  | patch
deriving DecidableEq

def Method.text : Method → String
  | .get => "GET"
  | .post => "POST"
  | .patch => "PATCH"

structure Request where
  method : Method
  uri : String
  body? : Option Json

namespace Request

def contentType? (request : Request) : Option String :=
  match request.method with
  | .get => none
  | .post => some "application/json"
  | .patch => some "application/merge-patch+json"

end Request

def Request.members (request : Request) : List (String × Json) :=
  [("method", .str request.method.text), ("uri", .str request.uri)] ++
    request.body?.toList.map fun body => ("body", body)

inductive UriFault where
  | invalidCharacter
  | tooLong
deriving DecidableEq

def UriFault.message : UriFault → String
  | .invalidCharacter => "invalid uri character"
  | .tooLong => "uri too long"

namespace Uri

def inPath (c : Char) : Bool :=
  0x21 ≤ c.toNat && c.toNat ≤ 0x7E && !"#<>?`".toList.contains c

def inQuery (c : Char) : Bool :=
  0x21 ≤ c.toNat && c.toNat ≤ 0x7E && !"\"#<>".toList.contains c

def longest : Nat := 65534

-- A request target as it is sent: what follows a `#` is left off.
def ofText (text : String) : Except UriFault String :=
  let sent := text.toList.takeWhile (· != '#')
  if longest < text.utf8ByteSize then .error .tooLong
  else if (sent.takeWhile (· != '?')).all inPath &&
      ((sent.dropWhile (· != '?')).drop 1).all inQuery then
    .ok (String.ofList sent)
  else .error .invalidCharacter

end Uri

-- A path with a query; even without parameters the mark is written.
def withQuery (path : String) (parameters : List (String × String)) : String :=
  path ++ "?" ++ String.join (parameters.map fun pair =>
    "&" ++ String.ofList (Url.Form.encodePair pair))

def labelParameter (selector : Selector) : List (String × String) :=
  if selector.isEmpty then [] else [("labelSelector", selector.text)]

namespace Request

def make (method : Method) (uri : String) (body? : Option Json) : Except UriFault Request :=
  (Uri.ofText uri).map fun uri => ⟨method, uri, body?⟩

def get (resource : Resource) (key : ObjectName) : Except UriFault Request :=
  make .get (resource.objectPath key) none

def list (resource : Resource) (scope : Scope) : Except UriFault Request :=
  make .get (withQuery (resource.path scope.ns?) (labelParameter scope.selector)) none

def create (resource : Resource) (ns : String) (object : Json) : Except UriFault Request :=
  make .post (withQuery (resource.path (some ns)) []) (some object)

def patch (resource : Resource) (key : ObjectName) (change : Json) : Except UriFault Request :=
  make .patch (withQuery (resource.objectPath key) []) (some change)

end Request
end StartupLatency.Cluster
