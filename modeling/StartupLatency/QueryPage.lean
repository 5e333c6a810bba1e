import StartupLatency.Record
/-!
The pages of the query server that aggregate records or pods. The server answers them and the
command line asks for them, by the same names.
-/

namespace StartupLatency

inductive QueryPage where
  | latency (metric : LatencyMetric)
  | podHealth
deriving DecidableEq

namespace QueryPage

def all : List QueryPage := [.latency .timeToStart, .latency .timeToReady, .podHealth]

def name : QueryPage → String
  | .latency metric => metric.name
  | .podHealth => "pod-health"

def named? (name : String) : Option QueryPage := all.find? fun page => page.name == name

def description : QueryPage → String
  | .latency .timeToStart => "Latency from pod creation to container start"
  | .latency .timeToReady => "Latency from pod creation to datapath readiness"
  | .podHealth => "Running, pending and failed pod counts"

def path (page : QueryPage) : String := "api/v1/" ++ page.name

end QueryPage
end StartupLatency
