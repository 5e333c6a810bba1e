import StartupLatency.Selector
import StartupLatency.Text.Decimal
import StartupLatency.Word
/-!
What a query asks for: a namespace, labels and the number of detail rows, read leniently from the
pairs of a query string.
-/

namespace StartupLatency

structure Query where
  ns? : Option String
  selector : Selector
  topN : Nat
deriving DecidableEq

namespace Query

def defaultTopN : Nat := 10

def everything : Query := ⟨none, .empty, defaultTopN⟩

def scope (query : Query) : Scope := .of query.ns? query.selector

structure Params where
  ns? : Option String
  topN? : Option String
  selector? : Option String
deriving DecidableEq, Inhabited

namespace Params

/-- Take one pair: the first occurrence of a name counts, unknown names do not. -/
def take (params : Params) (pair : String × String) : Params :=
  match pair.1 with
  | "namespace" => { params with ns? := params.ns?.or (some pair.2) }
  | "topN" => { params with topN? := params.topN?.or (some pair.2) }
  | "labelSelector" => { params with selector? := params.selector?.or (some pair.2) }
  | _ => params

def ofPairs (pairs : List (String × String)) : Params := pairs.foldl take ⟨none, none, none⟩

-- A row count: a positive number of 64 bits, blanks around it not counting.
def rowCount? (raw : String) : Option Nat :=
  (Text.Decimal.readBelow? Word.limit64 (Text.trim raw.toList)).filter fun n => 0 < n

/-- A row count that is none falls back to the default, and a missing selector asks for nothing. -/
def query (params : Params) : Query :=
  ⟨params.ns?,
    match params.selector? with
    | some raw => .parse raw
    | none => .empty,
    (params.topN?.bind rowCount?).getD defaultTopN⟩

end Params
end Query
end StartupLatency
