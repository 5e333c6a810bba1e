import StartupLatency.Aggregate.Answer
import StartupLatency.Aggregate.Data
import StartupLatency.Health
import StartupLatency.Metrics
import StartupLatency.QueryPage
import StartupLatency.Store.Scripted
import StartupLatency.Url.Form
/-!
The query server: which page answers a request, and with what. Pages answer `GET`, and `HEAD` in
the same way without a body.
-/

namespace StartupLatency

structure Listings (σ : Type) where
  records : Scope → σ → Except StoreError (List Record) × σ
  pods : Scope → σ → Except StoreError (List Pod) × σ

def ScriptedStores.listings : Listings ScriptedStores := ⟨listRecords, listPods⟩

structure Request where
  method : String
  uri : String
deriving DecidableEq

inductive ResponseBody where
  | empty
  | json (value : Json)
  | text (value : String)
  | samples (metrics : Metrics)

structure Response where
  status : Nat
  contentType? : Option String
  -- The methods that a page answers, when it was asked by another one.
  allow? : Option String
  body : ResponseBody

inductive Page where
  | query (page : QueryPage)
  | health
  | readiness
  | metrics
deriving DecidableEq

namespace Page

def all : List Page := QueryPage.all.map query ++ [health, readiness, metrics]

def path : Page → String
  | .query page => "/" ++ page.path
  | .health => "/healthz"
  | .readiness => "/readyz"
  | .metrics => "/metrics"

def at? (path : String) : Option Page := all.find? fun page => page.path == path

end Page

structure Server (σ : Type) where
  world : σ
  registry : HealthRegistry
  metrics : Metrics

namespace Server

def plainText : String := "text/plain; charset=utf-8"

def ofJson (status : Nat) (value : Json) : Response :=
  ⟨status, some "application/json", none, .json value⟩

def ofAnswer (write : α → Json) : Except ListFault α → Response
  | .ok value => ofJson 200 (write value)
  | .error fault => ⟨500, some plainText, none, .text fault.message⟩

-- Path and query of a request target; a fragment belongs to neither.
def target (uri : String) : String × List Char :=
  let sent := uri.toList.takeWhile (· != '#')
  (String.ofList (sent.takeWhile (· != '?')), (sent.dropWhile (· != '?')).drop 1)

def queryOf (raw : List Char) : Query := (Query.Params.ofPairs (Url.Form.decode raw)).query

def countQuery (endpoint : String) (server : Server σ) : Server σ :=
  { server with metrics := server.metrics.observeQuery endpoint (.zero false) }

/-- What a page shows; `now` stands for the time of reports made on the registry's own clock. -/
def answer (now : Json) (listings : Listings σ) (page : Page) (query : Query)
    (server : Server σ) : Response × Server σ :=
  match page with
  | .query (.latency metric) =>
    let (listing, world) := listings.records query.scope server.world
    (ofAnswer LatencySummary.toJson (LatencySummary.answer metric query listing),
      countQuery metric.name { server with world := world })
  | .query .podHealth =>
    let (listing, world) := listings.pods query.scope server.world
    (ofAnswer PodHealth.toJson (PodHealth.answer query listing),
      countQuery QueryPage.podHealth.name { server with world := world })
  | .health =>
    let status := if server.registry.status = .unhealthy then 503 else 200
    (ofJson status (server.registry.toJson now), server)
  | .readiness =>
    let readiness := server.registry.readiness
    (ofJson (if readiness.ready then 200 else 503) readiness.toJson, server)
  | .metrics => (⟨200, some plainText, none, .samples server.metrics⟩, server)

def notFound : Response := ⟨404, none, none, .empty⟩

def methodNotAllowed : Response := ⟨405, none, some "GET,HEAD", .empty⟩

def respond (now : Json) (listings : Listings σ) (request : Request) (server : Server σ) :
    Response × Server σ :=
  let (path, query) := target request.uri
  match Page.at? path with
  | none => (notFound, server)
  | some page =>
    if request.method = "GET" then server.answer now listings page (queryOf query)
    else if request.method = "HEAD" then
      let (response, server) := server.answer now listings page (queryOf query)
      ({ response with body := .empty }, server)
    else (methodNotAllowed, server)

/-- Start to serve: reported once the port is taken into use, and not at all when another holds
it. -/
def serve (portTaken : Bool) (registry : HealthRegistry) : Option HealthRegistry :=
  if portTaken then none else some (registry.report HealthRegistry.queryServer .healthy)

end Server
end StartupLatency
