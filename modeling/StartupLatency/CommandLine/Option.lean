import StartupLatency.CommandLine
/-!
Options of a command and how the values given to them are taken. An option that was named but not
followed by a value waits for one; a value is judged when the next option is named, or at the end.
-/

namespace StartupLatency

/-- An option that takes one value, for settings of type `σ`. -/
structure ValueOption (σ : Type) where
  name : String
  letter? : Option Char
  placeholder : String
  description : String
  given : σ → Bool
  -- Judge a value; the option is named for the complaint.
  store : σ → (value option : String) → Except Refusal σ

def ValueOption.usage (option : ValueOption σ) : String :=
  "--" ++ option.name ++ " <" ++ option.placeholder ++ ">"

structure Switch where
  name : String
  letter : Char
  refusal : Refusal

def Switch.usage (switch : Switch) : String := "--" ++ switch.name

/-- The options of a command, and the commands below it. -/
structure Grammar (σ : Type) where
  options : List (ValueOption σ)
  switches : List Switch
  -- Switches by their letter: the answer may differ.
  letters : List Switch
  commands : List String

inductive Argument where
  | separator
  | long (name : String) (value? : Option String)
  | letters (letter : Char) (rest : List Char)
  | word

namespace Argument

def long.ofChars (cs : List Char) : Argument :=
  let (name, rest) := Text.breakAt (· = '=') cs
  .long (String.ofList name) (match rest with
    | [] => none
    | _ :: value => some (String.ofList value))

def ofText (text : String) : Argument :=
  match text.toList with
  | ['-', '-'] => .separator
  | '-' :: '-' :: rest => long.ofChars rest
  | '-' :: letter :: rest => .letters letter rest
  | _ => .word

end Argument

/-- Settings taken so far, with the option whose value is not judged yet. -/
structure Progress (σ : Type) where
  settings : σ
  pending? : Option (ValueOption σ × Option String)

namespace Progress

def settle (progress : Progress σ) : Except Refusal σ :=
  match progress.pending? with
  | none => pure progress.settings
  | some (option, none) => throw (.missingValue option.usage)
  | some (option, some value) =>
    if option.given progress.settings then throw (.repeatedOption option.usage)
    else option.store progress.settings value option.usage

def isWaiting (progress : Progress σ) : Bool :=
  match progress.pending? with
  | some (_, none) => true
  | _ => false

def supply (progress : Progress σ) (value : String) : Progress σ :=
  { progress with pending? := progress.pending?.map fun pending => (pending.1, some value) }

-- Name an option, with a value attached or still to come. An attached value is judged at once.
def name (progress : Progress σ) (option : ValueOption σ) (value? : Option String) :
    Except Refusal (Progress σ) := do
  let next : Progress σ := ⟨← progress.settle, some (option, value?)⟩
  if value?.isSome then pure ⟨← next.settle, none⟩ else pure next

def answer (progress : Progress σ) (switch : Switch) : Except Refusal α :=
  match progress.settle with
  | .ok _ => throw switch.refusal
  | .error refusal => throw refusal

end Progress

namespace Grammar

def takeLong (grammar : Grammar σ) (progress : Progress σ) (name : String)
    (value? : Option String) : Except Refusal (Progress σ) :=
  match grammar.options.find? (fun option => option.name == name),
      grammar.switches.find? (fun switch => switch.name == name), value? with
  | some option, _, _ => progress.name option value?
  | none, some switch, none => progress.answer switch
  | none, some switch, some value => throw (.unexpectedValue value switch.usage)
  | none, none, _ => throw (.unknownArgument ("--" ++ name))

-- An option takes the rest of its argument as its value, one `=` in front left out.
def takeLetters (grammar : Grammar σ) (progress : Progress σ) (letter : Char)
    (rest : List Char) : Except Refusal (Progress σ) :=
  match grammar.options.find? (fun option => option.letter? == some letter),
      grammar.letters.find? (fun switch => switch.letter == letter) with
  | some option, _ =>
    progress.name option (match rest with
      | [] => none
      | '=' :: value => some (String.ofList value)
      | value => some (String.ofList value))
  | none, some switch => progress.answer switch
  | none, none => throw (.unknownArgument (String.ofList ['-', letter]))

/-- Nothing takes a word on its own. Where a command is expected it is taken for one, unless it
names one that came too late. -/
def refuseWord (grammar : Grammar σ) (separated : Bool) (word : String) : Refusal :=
  if grammar.commands.isEmpty || (separated && grammar.commands.contains word) then
    .unknownArgument word
  else .unknownCommand word

/-- Read arguments up to the first command, or to the end: the progress, and the command with the
arguments behind it. -/
def read (grammar : Grammar σ) (progress : Progress σ) (separated : Bool) :
    List String → Except Refusal (Progress σ × Option (String × List String))
  | [] => pure (progress, none)
  | text :: rest =>
    if separated then throw (grammar.refuseWord true text)
    else if !progress.isWaiting && grammar.commands.contains text then
      pure (progress, some (text, rest))
    else
      match Argument.ofText text with
      | .separator => grammar.read progress true rest
      | .long name value? => do
        grammar.read (← grammar.takeLong progress name value?) false rest
      | .letters letter more => do
        grammar.read (← grammar.takeLetters progress letter more) false rest
      | .word =>
        if progress.isWaiting then grammar.read (progress.supply text) false rest
        else throw (grammar.refuseWord false text)

end Grammar
end StartupLatency
