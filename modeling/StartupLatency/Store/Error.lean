import StartupLatency.Record
/-!
What can go wrong in a store of pods or records, and how it is worded.
-/

namespace StartupLatency

inductive StoreError where
  | notFound (what : String)
  | alreadyExists (what : String)
  -- A conditional write met another version than the one it was based on.
  | conflict (what : String)
  | backend (what : String)
deriving DecidableEq

namespace StoreError

def message : StoreError → String
  | .notFound what => what ++ " not found"
  | .alreadyExists what => what ++ " already exists"
  | .conflict what => "conflict writing " ++ what ++ ": object has been modified"
  | .backend what => "store error: " ++ what

def isNotFound : StoreError → Bool
  | .notFound _ => true
  | _ => false

end StoreError

def Pod.title (key : ObjectName) : String := "pod " ++ key.text

def Record.title (key : ObjectName) : String := "datapathresult " ++ key.text

end StartupLatency
