import StartupLatency.SortedMap
import StartupLatency.Text.Decimal
/-!
Settings out of environment variables. The case of a variable's name does not count; a program may
read only variables that begin with a mark of its own.
-/

namespace StartupLatency

abbrev Variables := SortedMap String String

/-- Texts by the names of settings, in lower case. -/
structure Environment where
  settings : SortedMap String String
deriving DecidableEq, Inhabited

namespace Environment

def settingOf? (mark : String) (variableEntry : String × String) : Option (String × String) :=
  (Text.strip? mark.toList (Text.lower variableEntry.1.toList)).map fun rest =>
    (String.ofList rest, variableEntry.2)

/-- Of two variables whose names differ in case only, the later in order of names counts. -/
def ofVariables (mark : String) (given : Variables) : Environment :=
  ⟨SortedMap.ofList (given.entries.filterMap (settingOf? mark))⟩

def text? (env : Environment) (name : String) : Option String := env.settings.find? name

-- A switch counts as one or zero; anything else is a decimal number below the limit.
def readCount? (limit : Nat) (raw : String) : Option Nat :=
  let word := Text.lowerText raw
  if ["true", "on", "yes"].contains word then some 1
  else if ["false", "off", "no"].contains word then some 0
  else Text.Decimal.readBelow? limit raw.toList

/-- A number with a default; the outer `none` is a text that is no number in range. -/
def count? (env : Environment) (name : String) (limit fallback : Nat) : Option Nat :=
  match env.text? name with
  | some raw => readCount? limit raw
  | none => some fallback

end Environment
end StartupLatency
