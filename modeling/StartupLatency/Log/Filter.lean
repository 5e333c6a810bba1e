import StartupLatency.Log
/-!
Which log lines are written. A filter is a list of rules: the lines of one part of the program, or
all lines, up to a level. The rule with the longest matching name decides, and without a matching
rule nothing is written.
-/

namespace StartupLatency

structure LogRule where
  origin : String
  verbosity : Nat
deriving DecidableEq

structure LogFilter where
  rules : List LogRule
deriving DecidableEq

namespace LogFilter

def standard : LogFilter := ⟨[⟨"", LogLevel.info.verbosity⟩]⟩

-- A level by name in any case or by number; `off` is the lowest.
def verbosity? (word : List Char) : Option Nat :=
  match String.ofList (Text.lower word) with
  | "off" | "0" => some 0
  | "error" | "1" => some 1
  | "warn" | "2" => some 2
  | "info" | "3" => some 3
  | "debug" | "4" => some 4
  | "trace" | "5" => some 5
  | _ => none

def inName (c : Char) : Bool :=
  Text.isAlpha c || Text.isDigit c || c = '_' || c = ':' || c = '-'

/-- A level, a name, or a name with a level behind `=`. A name alone stands for all its lines. -/
def ruleOf? (piece : List Char) : Option LogRule :=
  match verbosity? piece with
  | some verbosity => some ⟨"", verbosity⟩
  | none =>
    let name := piece.takeWhile (· != '=')
    let everything := LogLevel.trace.verbosity
    if name.isEmpty || !name.all inName then none
    else
      match piece.dropWhile (· != '=') with
      | [] | ['='] => some ⟨String.ofList name, everything⟩
      | _ :: level => (verbosity? level).map fun verbosity => ⟨String.ofList name, verbosity⟩

/-- Rules between commas; without any, only errors are written. -/
def parse? (text : String) : Option LogFilter :=
  let pieces := (Text.splitOn ',' text.toList).filter fun piece => !piece.isEmpty
  (pieces.mapM ruleOf?).map fun rules =>
    if rules.isEmpty then ⟨[⟨"", LogLevel.error.verbosity⟩]⟩ else ⟨rules⟩

-- The filter that a variable asks for; one that cannot be read counts as not given.
def ofVariable (text? : Option String) : LogFilter := (text?.bind parse?).getD standard

/-- The more telling of two rules, and of two for the same name the later. -/
def better (a b : LogRule) : LogRule := if a.origin.length ≤ b.origin.length then b else a

def passes (filter : LogFilter) (line : LogLine) : Bool :=
  let matching := filter.rules.filter fun rule =>
    rule.origin.toList.isPrefixOf line.origin.toList
  match matching with
  | [] => false
  | rule :: more => line.level.verbosity ≤ (more.foldl better rule).verbosity

end LogFilter
end StartupLatency
