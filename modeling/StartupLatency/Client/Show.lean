import StartupLatency.Aggregate.Data
import StartupLatency.Client.Exchange
import StartupLatency.CommandLine
import StartupLatency.Json.Reader
import StartupLatency.Json.Writer
import StartupLatency.QueryPage.Health
import StartupLatency.QueryPage.Latency
/-!
Showing a page of the query server: its data are read and printed again, as data or as a report.
-/

namespace StartupLatency

inductive PageContent where
  | latency (metric : LatencyMetric) (summary : LatencySummary)
  | health (health : PodHealth)
deriving DecidableEq

namespace PageContent

def decode (page : QueryPage) (json : Json) : Except Json.DecodeFault PageContent :=
  match page with
  | .latency metric => (LatencySummary.decode json).map (.latency metric)
  | .podHealth => (PodHealth.decode json).map .health

def toJson : PageContent → Json
  | .latency _ summary => summary.toJson
  | .health tally => tally.toJson

def report (terminal : Terminal) : PageContent → String
  | .latency metric summary => Cell.ofLines (summary.report terminal metric)
  | .health tally => Cell.ofLines (tally.report terminal)

def shown (terminal : Terminal) (format : OutputFormat) (content : PageContent) : String :=
  match format with
  | .json => content.toJson.indentedText ++ "\n"
  | .table => content.report terminal

end PageContent

namespace Invocation

def address (invocation : Invocation) : Except PageFault Url :=
  (pageAddress invocation.server invocation.page.path invocation.filters).mapError .address

def shown (terminal : Terminal) (invocation : Invocation) (text : String) :
    Except PageFault String :=
  match (Json.ofText? text).bind fun json => (PageContent.decode invocation.page json).toOption with
  | some content => pure (content.shown terminal invocation.format)
  | none => throw .unreadable

def run [Monad m] (transport : Transport m) (terminal : Terminal) (invocation : Invocation) :
    ExceptT PageFault m String := do
  let text ← transport.fetch (← liftExcept invocation.address)
  liftExcept (invocation.shown terminal text)
where
  liftExcept {α} (result : Except PageFault α) : ExceptT PageFault m α := ExceptT.mk (pure result)

end Invocation
end StartupLatency
