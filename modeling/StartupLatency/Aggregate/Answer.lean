import StartupLatency.Aggregate.Health
import StartupLatency.Aggregate.Latency
import StartupLatency.Store.Error
/-!
Answers to queries out of a listing. Nothing is kept between queries: each one is answered from
what the store lists at that time, or fails with the listing.
-/

namespace StartupLatency

structure ListFault where
  what : String
  error : StoreError
deriving DecidableEq

def ListFault.message (fault : ListFault) : String :=
  "failed to list " ++ fault.what ++ ": " ++ fault.error.message

def LatencySummary.answer (metric : LatencyMetric) (query : Query)
    (listing : Except StoreError (List Record)) : Except ListFault LatencySummary :=
  match listing with
  | .ok records => .ok (ofRecords metric records query.topN)
  | .error error => .error ⟨"datapath results", error⟩

def PodHealth.answer (query : Query) (listing : Except StoreError (List Pod)) :
    Except ListFault PodHealth :=
  match listing with
  | .ok pods => .ok (tally query pods)
  | .error error => .error ⟨"pods", error⟩

end StartupLatency
