import StartupLatency.Binary64
import StartupLatency.Terminal.Style
/-!
The pieces of reports: durations, shares, phases, notes, and a dash for what is not known.
-/

namespace StartupLatency.Cell

/-- Milliseconds for people: minutes and seconds from one minute on, seconds with two places from
one second on. -/
def durationText (ms : Int) : String :=
  let size := ms.natAbs
  let sign := if ms < 0 then "-" else ""
  if 60000 ≤ size then
    sign ++ Text.Decimal.text (size / 60000) ++ "m" ++
      String.ofList (Text.Decimal.writeFixed 2 (size % 60000 / 1000)) ++ "s"
  else if 1000 ≤ size then
    String.ofList ((Binary64.ofRatio (decide (ms < 0)) size 1000).fixed 2) ++ "s"
  else Text.Decimal.textInt ms ++ "ms"

-- Shares from 99 percent on are good, and those from 90 on fair.
def shareColour (percent : Binary64) : Colour :=
  if percent.atLeast 99 then .green else if percent.atLeast 90 then .yellow else .red

def shareText (terminal : Terminal) (percent : Binary64) : String :=
  terminal.paint (.plain (shareColour percent)) (String.ofList (percent.fixed 1) ++ "%")

def phaseColour? (phase : String) : Option Colour :=
  [("running", Colour.green), ("succeeded", .green), ("pending", .yellow), ("failed", .red)].lookup
    (Text.lowerText phase)

def phaseText (terminal : Terminal) (phase : String) : String :=
  (phaseColour? phase).elim phase fun colour => terminal.paint (.plain colour) phase

def orDash (text : String) : String := if text = "" then "-" else text

def warning (terminal : Terminal) (text : String) : String :=
  terminal.paint (.strong .yellow) "⚠" ++ " " ++ text

def note (terminal : Terminal) (text : String) : String :=
  terminal.paint (.strong .blue) "ℹ" ++ " " ++ text

def rule (sign : Char) : String := String.ofList (List.replicate 50 sign)

def ofLines (lines : List String) : String := String.join (lines.map fun line => line ++ "\n")

end StartupLatency.Cell
