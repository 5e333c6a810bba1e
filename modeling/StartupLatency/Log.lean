import StartupLatency.Json
/-!
Log lines: a level, the part of the program that speaks, a message and named fields. Texts and
whole numbers are the values of fields.
-/

namespace StartupLatency

inductive LogLevel where
  | error
  | warn
  | info
  | debug
  | trace
deriving DecidableEq

namespace LogLevel

def name : LogLevel → String
  | .error => "ERROR"
  | .warn => "WARN"
  | .info => "INFO"
  | .debug => "DEBUG"
  | .trace => "TRACE"

def verbosity : LogLevel → Nat
  | .error => 1
  | .warn => 2
  | .info => 3
  | .debug => 4
  | .trace => 5

end LogLevel

structure LogLine where
  level : LogLevel
  origin : String
  message : String
  fields : List (String × Json)

namespace LogLine

def toJson (line : LogLine) : Json :=
  .obj (line.fields ++ [("level", .str line.level.name), ("message", .str line.message)])

/-- Everything; the origin takes the place of a field of the name `target`. -/
def toFullJson (line : LogLine) : Json :=
  .obj ((line.fields.filter fun field => field.1 != "target") ++
    [("level", .str line.level.name), ("message", .str line.message),
      ("target", .str line.origin)])

end LogLine
end StartupLatency
