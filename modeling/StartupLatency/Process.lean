import StartupLatency.Environment
import StartupLatency.Log.Event
import StartupLatency.Log.Filter
/-!
Processes by what can be seen from outside: the log, the exit code and the complaint.
-/

namespace StartupLatency

structure ProcessEnd (σ : Type) where
  logs : List LogLine
  complaint? : Option String
  world : σ

namespace ProcessEnd

def version : String := "0.1.0"

def exitCode (ended : ProcessEnd σ) : Nat := if ended.complaint?.isSome then 1 else 0

def errorText (ended : ProcessEnd σ) : String := ended.complaint?.elim "" ("Error: " ++ ·)

def written (given : Variables) (ended : ProcessEnd σ) : List LogLine :=
  ended.logs.filter (LogFilter.ofVariable (given.find? "RUST_LOG")).passes

end ProcessEnd
end StartupLatency
