import StartupLatency.CommandLine.Option
import StartupLatency.Word
/-!
The options of the program and of its pages, and reading an invocation. Values of the program's
own options are judged after the command behind them has been read.
-/

namespace StartupLatency

def readCountFrom (value : Nat) : List Char → Except CountFault Nat
  | [] => pure value
  | c :: rest =>
    match Text.Decimal.digit? c with
    | none => throw .invalidDigit
    | some digit =>
      if 10 * value + digit < Word.limit64 then readCountFrom (10 * value + digit) rest
      else throw .tooLarge

def readCount : List Char → Except CountFault Nat
  | [] => throw .empty
  | ['+'] => throw .invalidDigit
  | '+' :: digits => readCountFrom 0 digits
  | digits => readCountFrom 0 digits

structure ProgramSettings where
  server? : Option String
  format? : Option OutputFormat

def ProgramSettings.isEmpty (settings : ProgramSettings) : Bool :=
  settings.server?.isNone && settings.format?.isNone

namespace CommandLine

def defaultServer : String := "http://localhost:8080"

def defaultFormat : OutputFormat := .table

def serverVariable : String := "DPO_API_URL"

def server : ValueOption ProgramSettings where
  name := "api-url"
  letter? := none
  placeholder := "API_URL"
  description := "Query API URL (can also be set via " ++ serverVariable ++ " env var)"
  given settings := settings.server?.isSome
  store settings value _ := pure { settings with server? := some value }

def format : ValueOption ProgramSettings where
  name := "format"
  letter? := some 'f'
  placeholder := "FORMAT"
  description := "Output format"
  given settings := settings.format?.isSome
  store settings value option :=
    match OutputFormat.named? value with
    | some format => pure { settings with format? := some format }
    | none =>
      throw (if value = "" then .missingValue option else .invalidFormat value option)

def ns : ValueOption Filters where
  name := "namespace"
  letter? := some 'n'
  placeholder := "NAMESPACE"
  description := "Restrict to one namespace"
  given filters := filters.ns?.isSome
  store filters value _ := pure { filters with ns? := some value }

def topN : ValueOption Filters where
  name := "top-n"
  letter? := none
  placeholder := "TOP_N"
  description := "Number of detail rows to return (server default: 10)"
  given filters := filters.topN?.isSome
  store filters value option :=
    match readCount value.toList with
    | .ok n => pure { filters with topN? := some n }
    | .error fault => throw (.invalidCount value option fault)

def selector : ValueOption Filters where
  name := "selector"
  letter? := some 'l'
  placeholder := "SELECTOR"
  description := "Equality label selector, e.g. app=perf-sut,tier=web"
  given filters := filters.selector?.isSome
  store filters value _ := pure { filters with selector? := some value }

def helpSwitch (topic : HelpTopic) : Switch := ⟨"help", 'h', .helpWanted topic⟩

def versionSwitch : Switch := ⟨"version", 'V', .versionWanted⟩

def helpCommand : String := "help"

def programGrammar : Grammar ProgramSettings where
  options := [server, format]
  switches := [helpSwitch (.program true), versionSwitch]
  letters := [helpSwitch (.program false), versionSwitch]
  commands := QueryPage.all.map QueryPage.name ++ [helpCommand]

def pageGrammar (page : QueryPage) : Grammar Filters where
  options := [ns, topN, selector]
  switches := [helpSwitch (.page page)]
  letters := [helpSwitch (.page page)]
  commands := []

def readFilters (page : QueryPage) (arguments : List String) : Except Refusal Filters := do
  let (progress, _) ← (pageGrammar page).read ⟨⟨none, none, none⟩, none⟩ false arguments
  progress.settle

-- What help is asked about by names behind the help command. No topic has topics of its own.
def helpTopic : List String → Refusal
  | [] => .helpWanted (.program true)
  | name :: more =>
    let found := (QueryPage.named? name).map HelpTopic.page
    let found := if name = helpCommand then some .help else found
    match found, more with
    | none, _ => .unknownCommand name
    | some topic, [] => .helpWanted topic
    | some _, extra :: _ => .unknownCommand extra

end CommandLine

def Invocation.parse (environment? : Option String) (arguments : List String) :
    Except Refusal Invocation := do
  let (progress, command?) ← CommandLine.programGrammar.read ⟨⟨none, none⟩, none⟩ false arguments
  match command? with
  | none =>
    let settings ← progress.settle
    throw (if settings.isEmpty && environment?.isNone then .noArguments else .missingCommand)
  | some (name, rest) =>
    match QueryPage.named? name with
    | none => throw (CommandLine.helpTopic rest)
    | some page =>
      let filters ← CommandLine.readFilters page rest
      let settings ← progress.settle
      pure ⟨(settings.server?.or environment?).getD CommandLine.defaultServer,
        settings.format?.getD CommandLine.defaultFormat, page, filters⟩

end StartupLatency
