import StartupLatency.Text
/-!
Bold and coloured text, by the escape sequences that terminals understand.
-/

namespace StartupLatency

inductive Colour where
  | red
  | green
  | yellow
  | blue
  | cyan
deriving DecidableEq

def Colour.code : Colour → String
  | .red => "31"
  | .green => "32"
  | .yellow => "33"
  | .blue => "34"
  | .cyan => "36"

structure Style where
  bold : Bool
  colour? : Option Colour
deriving DecidableEq

namespace Style

def title : Style := ⟨true, none⟩

def plain (colour : Colour) : Style := ⟨false, some colour⟩

def strong (colour : Colour) : Style := ⟨true, some colour⟩

def start (style : Style) : String :=
  let codes := (if style.bold then ["1"] else []) ++ style.colour?.toList.map Colour.code
  "\x1b[" ++ Text.join ";" codes ++ "m"

def reset : String := "\x1b[0m"

def wrap (style : Style) (text : String) : String :=
  style.start ++ text.replace reset (reset ++ style.start) ++ reset

end Style

/-- Where reports are shown: with colours or without. -/
structure Terminal where
  coloured : Bool
deriving DecidableEq

def Terminal.paint (terminal : Terminal) (style : Style) (text : String) : String :=
  if terminal.coloured then style.wrap text else text

end StartupLatency
