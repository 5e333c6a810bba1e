import StartupLatency.CommandLine.Parse
/-!
The help texts: what the program is for, how it is called, and its commands and options.
-/

namespace StartupLatency.CommandLine

def programName : String := "dpo"

def versionText : String := programName ++ " 0.1.0\n"

def about : String := "CLI for the Datapath Observer"

def helpDescription : String := "Print this message or the help of the given subcommand(s)"

def padded (width : Nat) (text : String) : String :=
  text ++ String.ofList (List.replicate (width - text.length) ' ')

def columns (entries : List (String × String)) : List String :=
  let width := entries.foldl (fun most entry => max most entry.1.length) 0
  entries.map fun entry => "  " ++ padded width entry.1 ++ "  " ++ entry.2

-- A letter if there is one, and the long form, aligned among themselves.
def optionTitle (letter? : Option Char) (usage : String) : String :=
  (letter?.elim "    " fun letter => String.ofList ['-', letter, ',', ' ']) ++ usage

def titled (option : ValueOption σ) : String := optionTitle option.letter? option.usage

def helpTitle : String := optionTitle (some 'h') "--help"

def versionTitle : String := optionTitle (some 'V') "--version"

def commandEntries : List (String × String) :=
  QueryPage.all.map (fun page => (page.name, page.description)) ++ [(helpCommand, helpDescription)]

def environmentNote (environment? : Option String) : String :=
  "[env: " ++ serverVariable ++ "=" ++ environment?.getD "" ++ "]"

def defaultNote (value : String) : String := "[default: " ++ value ++ "]"

def shortOptions (environment? : Option String) : List String :=
  columns
    [(titled server, server.description ++ " " ++ environmentNote environment? ++ " " ++
        defaultNote defaultServer),
      (titled format, format.description ++ " " ++ defaultNote defaultFormat.name ++
        " [possible values: table, json]"),
      (helpTitle, "Print help (see more with '--help')"),
      (versionTitle, "Print version")]

def longOptions (environment? : Option String) : List String :=
  let detail (text : String) := "          " ++ text
  ["  " ++ titled server, detail server.description, detail "",
    detail (environmentNote environment?), detail (defaultNote defaultServer), "",
    "  " ++ titled format, detail format.description, "", detail "Possible values:",
    detail "- table: Table format (default)", detail "- json:  JSON format", detail "",
    detail (defaultNote defaultFormat.name), "",
    "  " ++ helpTitle, detail "Print help (see a summary with '-h')", "",
    "  " ++ versionTitle, detail "Print version"]

def pageOptions : List String :=
  columns
    [(titled ns, ns.description), (titled topN, topN.description),
      (titled selector, selector.description), (helpTitle, "Print help")]

def page (purpose usage : String) (sections : List (String × List String)) : String :=
  let head := [purpose, "", "Usage: " ++ programName ++ " " ++ usage]
  let lines := head ++ sections.flatMap fun part => ["", part.1 ++ ":"] ++ part.2
  String.join (lines.map fun line => line ++ "\n")

def helpText (environment? : Option String) : HelpTopic → String
  | .program long =>
    page about "[OPTIONS] <COMMAND>"
      [("Commands", columns commandEntries),
        ("Options", if long then longOptions environment? else shortOptions environment?)]
  | .page subject =>
    page subject.description (subject.name ++ " [OPTIONS]") [("Options", pageOptions)]
  | .help =>
    page helpDescription "help [COMMAND]..."
      [("Arguments", columns [("[COMMAND]...", "Print help for the subcommand(s)")])]

end StartupLatency.CommandLine

namespace StartupLatency.Refusal

def outputText (environment? : Option String) : Refusal → String
  | .helpWanted topic => CommandLine.helpText environment? topic
  | .versionWanted => CommandLine.versionText
  | _ => ""

def errorText (environment? : Option String) (refusal : Refusal) : String :=
  match refusal with
  | .helpWanted _ | .versionWanted => ""
  | .noArguments => CommandLine.helpText environment? (.program false)
  | refusal =>
    "error: " ++ refusal.complaint ++ "\n\nFor more information, try '--help'.\n"

end StartupLatency.Refusal
