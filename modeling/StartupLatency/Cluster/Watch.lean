import StartupLatency.Cluster.Answer
import StartupLatency.Cluster.Pod
import StartupLatency.Json.Truncated
import StartupLatency.Watch.Forward
/-!
The watch protocol of an API server: all pods are listed page by page, and from the version of the
list on every change is reported on a line of its own. A stream that ends is taken up again at the
last version seen; a version that the server does not know any more starts over with a list.
-/

namespace StartupLatency.Cluster

inductive WatchFault where
  | listing (fault : Fault)
  | opening (fault : Fault)
  | reported (report : StatusReport)
  | stream (fault : Fault)
  | noVersion
deriving DecidableEq

def WatchFault.message : WatchFault → String
  | .listing fault => "failed to perform initial object list: " ++ fault.message
  | .opening fault => "failed to start watching object: " ++ fault.message
  | .reported report => "error returned by apiserver during watch: " ++ report.summary
  | .stream fault => "watch stream failed: " ++ fault.message
  | .noVersion => "no metadata.resourceVersion in watch result (does resource support watch?)"

inductive WatchLine where
  | applied (pod : PodObject)
  | deleted (pod : PodObject)
  | bookmark (version : String)
  | error (report : StatusReport)

namespace WatchLine

def bookmarkMeta : Json.Shape String :=
  ⟨"BookmarkMeta", "",
    [Json.field "resourceVersion" .always Json.Decode.string fun _ version => version,
      Json.field "annotations" .never (Json.Decode.map Json.Decode.string) fun version _ =>
        version]⟩

def bookmarkShape : Json.Shape String :=
  ⟨"Bookmark", "",
    [Json.field "apiVersion" .always Json.Decode.string fun version _ => version,
      Json.field "kind" .always Json.Decode.string fun version _ => version,
      Json.field "metadata" .always bookmarkMeta.decode fun _ version => version]⟩

def ofObject (type : String) (object : Json) : Except Json.DecodeFault WatchLine :=
  if type = "ADDED" ∨ type = "MODIFIED" then (PodObject.decode object).map .applied
  else if type = "DELETED" then (PodObject.decode object).map .deleted
  else if type = "BOOKMARK" then (bookmarkShape.decode object).map .bookmark
  else if type = "ERROR" then (StatusReport.shape.decode object).map .error
  else
    .error (.unknownVariant type ["ADDED", "MODIFIED", "DELETED", "BOOKMARK", "ERROR"])

def shape : Json.Shape (String × Json) :=
  ⟨"WatchEvent", ("", .null),
    [Json.field "type" .always Json.Decode.string fun line type => (type, line.2),
      Json.field "object" .always .ok fun line object => (line.1, object)]⟩

def decode (json : Json) : Except Json.DecodeFault WatchLine :=
  (shape.decode json).bind fun line => ofObject line.1 line.2

/-- A line as it came; one that breaks off is passed over, and one that is no line of a stream may
be the report of a failure. -/
def ofText? (line : String) : Option (Except Fault WatchLine) :=
  match Json.ofText? line with
  | none => if Json.isTruncated line.toList then none else some (.error .unreadable)
  | some json =>
    match decode json, StatusReport.shape.decode json with
    | .ok line, _ => some (.ok line)
    | .error _, .ok report => some (.error (.refused report))
    | .error _, .error _ => some (.error .unreadable)

end WatchLine

inductive Watcher where
  -- The next page of a list is asked for.
  | listing (token? : Option String) (found : List Pod)
  -- The stream of changes is asked for, from a version on.
  | listed (version : String)
  -- Lines of the stream are read.
  | watching (version : String) (lines : List String)

namespace Watcher

def start : Watcher := .listing none []

def pageSize : Nat := 500

-- How long the server keeps a stream open, in seconds.
def streamSeconds : Nat := 290

def listParameters (selector : Selector) (token? : Option String) : List (String × String) :=
  labelParameter selector ++ [("limit", Text.Decimal.text pageSize)] ++
    token?.toList.map fun token => ("continue", token)

def watchParameters (selector : Selector) (version : String) : List (String × String) :=
  [("watch", "true"), ("timeoutSeconds", Text.Decimal.text streamSeconds)] ++
    labelParameter selector ++ [("allowWatchBookmarks", "true"), ("resourceVersion", version)]

def request? (scope : Scope) : Watcher → Option (Except UriFault Request)
  | .listing token? _ => some (ask (listParameters scope.selector token?))
  | .listed version => some (ask (watchParameters scope.selector version))
  | .watching _ _ => none
where
  ask (parameters : List (String × String)) : Except UriFault Request :=
    Request.make .get (withQuery (Resource.pods.path scope.ns?) parameters) none

def fault (fault : WatchFault) : Option WatchItem := some (.fault fault.message)

-- An empty text says nothing.
def given (text? : Option String) : Option String := text?.filter fun text => !text.isEmpty

-- A page of a list: the last one delivers them all.
def receivePage (found : List Pod) (list : ObjectList Pod) : Option WatchItem × Watcher :=
  let found := found ++ list.items
  match given list.listMeta.continue?, given list.listMeta.version? with
  | some token, _ => (none, .listing (some token) found)
  | none, some version => (some (.update (.restarted found [])), .listed version)
  | none, none => (fault .noVersion, start)

def linesOf (body : Body) : List String :=
  let pieces := Text.splitOn '\n' body.text.toList
  let pieces := if pieces.getLast? = some [] then pieces.dropLast else pieces
  pieces.map fun piece =>
    String.ofList (if piece.getLast? = some '\r' then piece.dropLast else piece)

/-- What becomes of an answer. A stream is read whatever its status. -/
def receive (answer : Answer) (watcher : Watcher) : Option WatchItem × Watcher :=
  match watcher with
  | .listing _ found =>
    match answer.read (ObjectList.decode podOf) with
    | .ok list => receivePage found list
    | .error cause => (fault (.listing cause), start)
  | .listed version =>
    match answer with
    | .failed text => (fault (.opening (.failed text)), .listed version)
    | .replied _ body => (none, .watching version (linesOf body))
  | .watching _ _ => (none, watcher)

def unsendable (cause : UriFault) : Watcher → Option WatchItem × Watcher
  | .listing _ _ => (fault (.listing (.unsendable cause)), start)
  | other => (fault (.opening (.unsendable cause)), other)

def change (update : Pod → WatchUpdate) (object : PodObject) (lines : List String) :
    Option WatchItem × Watcher :=
  match given object.objectMeta.version? with
  | some version => (some (.update (update object.pod)), .watching version lines)
  | none => (fault .noVersion, start)

def next : Watcher → Option WatchItem × Watcher
  | .watching version [] => (none, .listed version)
  | .watching version (line :: lines) =>
    match WatchLine.ofText? line with
    | none => (none, .watching version lines)
    | some (.error cause) => (fault (.stream cause), .watching version lines)
    | some (.ok (.applied object)) => change .applied object lines
    | some (.ok (.deleted object)) => change .deleted object lines
    | some (.ok (.bookmark version)) => (none, .watching version lines)
    | some (.ok (.error report)) =>
      (fault (.reported report), if report.code = 410 then start else .watching version lines)
  | other => (none, other)

end Watcher

/-- A watch whose events are forwarded, with the requests it made and the registry at each. -/
structure PodWatch (σ : Type) where
  watcher : Watcher
  forwarder : Forwarder
  world : σ
  requests : List (Request × HealthRegistry)

namespace PodWatch

def start (registry : HealthRegistry) (world : σ) : PodWatch σ :=
  ⟨.start, .start registry, world, []⟩

def deliver (open_ : Bool) (watch : PodWatch σ) (step : Option WatchItem × Watcher) :
    PodWatch σ :=
  let forwarder := match step.1 with
    | some item => ((watch.forwarder.step? (.take item)).getD watch.forwarder).handOver open_
    | none => watch.forwarder
  { watch with watcher := step.2, forwarder := forwarder }

/-- Go on as long as requests are answered and events are received; the fuel bounds the number of
steps. A request that cannot be made would fail for ever. -/
def run (link : Request → σ → Option Answer × σ) (scope : Scope) (open_ : Bool) (fuel : Nat)
    (watch : PodWatch σ) : PodWatch σ :=
  match fuel with
  | 0 => watch
  | fuel + 1 =>
    if !watch.forwarder.running then watch
    else
      match watch.watcher.request? scope with
      | none => run link scope open_ fuel (watch.deliver open_ watch.watcher.next)
      | some (.error cause) => watch.deliver open_ (watch.watcher.unsendable cause)
      | some (.ok request) =>
        let (answer?, world) := link request watch.world
        let asked := { watch with
          world := world
          requests := watch.requests ++ [(request, watch.forwarder.registry)] }
        match answer? with
        | none => asked
        | some answer =>
          run link scope open_ fuel (asked.deliver open_ (watch.watcher.receive answer))

end PodWatch
end StartupLatency.Cluster
