import StartupLatency.SortedMap
import StartupLatency.Text
/-!
Label selectors: exact `key=value` pairs, all of which have to be present. A selector text is a
comma-separated list of pairs; a piece that is not one key and one value is dropped, and of two
pairs with one key the later counts.
-/

namespace StartupLatency

abbrev Labels := SortedMap String String

structure Selector where
  pairs : Labels
deriving DecidableEq, Inhabited

namespace Selector

def empty : Selector := ⟨∅⟩

/-- The pair of one piece of a selector text: blanks around the piece do not count, blanks around
the `=` do. -/
def pairOf? (piece : List Char) : Option (String × String) :=
  match Text.splitOn '=' (Text.trim piece) with
  | [key, value] => if key.isEmpty then none else some (String.ofList key, String.ofList value)
  | _ => none

def parseChars (raw : List Char) : Selector :=
  ⟨SortedMap.ofList ((Text.splitOn ',' raw).filterMap pairOf?)⟩

def parse (raw : String) : Selector := parseChars raw.toList

-- Require one more pair, in place of one with the same key.
def require (selector : Selector) (key value : String) : Selector :=
  ⟨selector.pairs.insert key value⟩

def isEmpty (selector : Selector) : Bool := selector.pairs.isEmpty

def pairText (pair : String × String) : String := pair.1 ++ "=" ++ pair.2

def text (selector : Selector) : String := Text.join "," (selector.pairs.entries.map pairText)

def matchesLabels (selector : Selector) (labels : Labels) : Bool :=
  selector.pairs.all fun key value => labels.find? key == some value

end Selector

/-- What a listing covers: one namespace or all of them, and the labels that are asked for. -/
structure Scope where
  ns? : Option String
  selector : Selector
deriving DecidableEq, Inhabited

namespace Scope

def everything : Scope := ⟨none, .empty⟩

-- An empty namespace stands for all namespaces.
def of (ns? : Option String) (selector : Selector) : Scope :=
  ⟨ns?.filter fun ns => !ns.isEmpty, selector⟩

def covers (scope : Scope) (ns : String) (labels : Labels) : Bool :=
  (match scope.ns? with
    | some wanted => wanted == ns
    | none => true) && scope.selector.matchesLabels labels

end Scope
end StartupLatency
