import StartupLatency.Client.Address
import StartupLatency.QueryPage
/-!
What a caller can ask for on the command line, and why arguments are refused.
-/

namespace StartupLatency

inductive OutputFormat where
  | table
  | json
deriving DecidableEq, Inhabited

namespace OutputFormat

def name : OutputFormat → String
  | .table => "table"
  | .json => "json"

def named? (name : String) : Option OutputFormat :=
  [OutputFormat.table, OutputFormat.json].find? fun format => format.name == name

end OutputFormat

structure Invocation where
  server : String
  format : OutputFormat
  page : QueryPage
  filters : Filters
deriving DecidableEq

inductive CountFault where
  | empty
  | invalidDigit
  | tooLarge
deriving DecidableEq

def CountFault.message : CountFault → String
  | .empty => "cannot parse integer from empty string"
  | .invalidDigit => "invalid digit found in string"
  | .tooLarge => "number too large to fit in target type"

inductive HelpTopic where
  | program (long : Bool)
  | page (page : QueryPage)
  | help
deriving DecidableEq

inductive Refusal where
  | helpWanted (topic : HelpTopic)
  | versionWanted
  | noArguments
  | missingCommand
  | unknownCommand (name : String)
  | unknownArgument (argument : String)
  | missingValue (option : String)
  | invalidFormat (value option : String)
  | invalidCount (value option : String) (fault : CountFault)
  | repeatedOption (option : String)
  | unexpectedValue (value option : String)
deriving DecidableEq

namespace Refusal

def kind : Refusal → String
  | .helpWanted _ => "DisplayHelp"
  | .versionWanted => "DisplayVersion"
  | .noArguments => "DisplayHelpOnMissingArgumentOrSubcommand"
  | .missingCommand => "MissingSubcommand"
  | .unknownCommand _ => "InvalidSubcommand"
  | .unknownArgument _ => "UnknownArgument"
  | .missingValue _ | .invalidFormat .. => "InvalidValue"
  | .invalidCount .. => "ValueValidation"
  | .repeatedOption _ => "ArgumentConflict"
  | .unexpectedValue .. => "TooManyValues"

-- Asking for help or for the version is no failure.
def exitCode : Refusal → Nat
  | .helpWanted _ | .versionWanted => 0
  | _ => 2

def quoted (text : String) : String := "'" ++ text ++ "'"

def complaint : Refusal → String
  | .helpWanted _ | .versionWanted | .noArguments => ""
  | .missingCommand => "'dpo' requires a subcommand but one was not provided"
  | .unknownCommand name => "unrecognized subcommand " ++ quoted name
  | .unknownArgument argument => "unexpected argument " ++ quoted argument ++ " found"
  | .missingValue option =>
    "a value is required for " ++ quoted option ++ " but none was supplied"
  | .invalidFormat value option =>
    "invalid value " ++ quoted value ++ " for " ++ quoted option
  | .invalidCount value option fault =>
    "invalid value " ++ quoted value ++ " for " ++ quoted option ++ ": " ++ fault.message
  | .repeatedOption option =>
    "the argument " ++ quoted option ++ " cannot be used multiple times"
  | .unexpectedValue value option =>
    "unexpected value " ++ quoted value ++ " for " ++ quoted option ++
      " found; no more were expected"

end Refusal
end StartupLatency
