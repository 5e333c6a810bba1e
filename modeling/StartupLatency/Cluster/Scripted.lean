import StartupLatency.Cluster.Store
/-!
An API server that answers from a script: the requests to a path take its answers in turn, the
last one repeats, and a request may be left without an answer.
-/

namespace StartupLatency.Cluster

structure ScriptedServer where
  routes : SortedMap String (List (Option Answer))
  -- The requests that came, the latest first.
  received : List Request

namespace ScriptedServer

def noRoute : Answer :=
  .replied 404 (.json (.obj
    [("kind", .str "Status"), ("apiVersion", .str "v1"), ("metadata", .obj []),
      ("status", .str "Failure"), ("message", .str "no route"), ("reason", .str "NotFound"),
      ("code", .nat 404)]))

def route (request : Request) : String :=
  request.method.text ++ " " ++ String.ofList (request.uri.toList.takeWhile (· != '?'))

def ask (request : Request) (server : ScriptedServer) : Option Answer × ScriptedServer :=
  let name := route request
  let received := request :: server.received
  match server.routes.find? name with
  | none | some [] => (some noRoute, { server with received := received })
  | some [last] => (last, { server with received := received })
  | some (answer :: rest) =>
    (answer, { server with received := received, routes := server.routes.insert name rest })

end ScriptedServer

/-- A way to ask a server that may leave a request without an answer. -/
abbrev Inquiry (σ : Type) := Request → σ → Option Answer × σ

-- A link for callers that want some answer; the mark is set when there was none.
def Inquiry.link (inquiry : Inquiry σ) : Link (σ × Bool) := fun request world =>
  match inquiry request world.1 with
  | (some answer, next) => (answer, next, world.2)
  | (none, next) => (.failed "no answer", next, true)

end StartupLatency.Cluster
