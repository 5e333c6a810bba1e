import StartupLatency.Url.Parser
/-!
Addresses of the query server's pages: a path joined to the server's address, with the filters of
a query as pairs.
-/

namespace StartupLatency

structure Filters where
  ns? : Option String
  topN? : Option Nat
  selector? : Option String
deriving DecidableEq

def Filters.pairs (filters : Filters) : List (String × String) :=
  (filters.ns?.toList.map fun ns => ("namespace", ns)) ++
    (filters.topN?.toList.map fun n => ("topN", Text.Decimal.text n)) ++
    (filters.selector?.toList.map fun selector => ("labelSelector", selector))

inductive AddressFault where
  | invalidServer (fault : Url.Fault)
  | invalidPath (fault : Url.Fault)
deriving DecidableEq

namespace AddressFault

def headline : AddressFault → String
  | .invalidServer _ => "Invalid API URL"
  | .invalidPath _ => "Invalid path"

def cause : AddressFault → Url.Fault
  | .invalidServer fault => fault
  | .invalidPath fault => fault

def message (fault : AddressFault) : String := fault.headline ++ ": " ++ fault.cause.message

end AddressFault

def pageAddress (server path : String) (filters : Filters) : Except AddressFault Url :=
  match Url.parse server with
  | .error fault => .error (.invalidServer fault)
  | .ok base =>
    match base.join path with
    | .error fault => .error (.invalidPath fault)
    | .ok page => .ok (page.withPairs filters.pairs)

end StartupLatency
