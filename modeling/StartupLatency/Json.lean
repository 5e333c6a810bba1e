import StartupLatency.Binary64
/-!
JSON values. An object keeps its members in document order with repeated names, because a reader
of typed values has to see both.
-/

namespace StartupLatency

/-- A number is a whole number of 64 bits, signed or unsigned, or else a double. -/
inductive Json.Number where
  | int (value : Int)
  | real (value : Binary64)
deriving DecidableEq, Inhabited

inductive Json where
  | null
  | bool (value : Bool)
  | num (value : Json.Number)
  | str (value : String)
  | arr (items : List Json)
  | obj (members : List (String × Json))
  -- Well-formed text without a value: a number out of range or a lone surrogate. It may be passed
  -- over, but it cannot be read.
  | valueless
deriving Inhabited

namespace Json

def int (value : Int) : Json := .num (.int value)

def nat (value : Nat) : Json := .num (.int value)

-- The value of the last member of that name.
def member? (name : String) : Json → Option Json
  | .obj members => (members.reverse.find? fun member => member.1 == name).map Prod.snd
  | _ => none

def present? (name : String) (json : Json) : Option Json :=
  match json.member? name with
  | some .null => none
  | found => found

def str? : Json → Option String
  | .str value => some value
  | _ => none

def int? : Json → Option Int
  | .num (.int value) => some value
  | _ => none

def nat? (json : Json) : Option Nat :=
  match json.int? with
  | some (.ofNat n) => some n
  | _ => none

def bool? : Json → Option Bool
  | .bool value => some value
  | _ => none

def items? : Json → Option (List Json)
  | .arr items => some items
  | _ => none

def members? : Json → Option (List (String × Json))
  | .obj members => some members
  | _ => none

mutual

def isReadable : Json → Bool
  | .arr items => areReadable items
  | .obj members => haveReadableValues members
  | .valueless => false
  | _ => true

def areReadable : List Json → Bool
  | [] => true
  | item :: rest => item.isReadable && areReadable rest

def haveReadableValues : List (String × Json) → Bool
  | [] => true
  | member :: rest => member.2.isReadable && haveReadableValues rest

end

-- Put a member before the first larger name, in place of one of the same name.
def putMember (name : String) (value : Json) : List (String × Json) → List (String × Json)
  | [] => [(name, value)]
  | member :: rest =>
    match compare name member.1 with
    | .lt => (name, value) :: member :: rest
    | .eq => (name, value) :: rest
    | .gt => member :: putMember name value rest

mutual

/-- Members in ascending order of their names, each name once with its last value. -/
def canonical : Json → Json
  | .arr items => .arr (canonicalItems items)
  | .obj members => .obj (canonicalMembers members [])
  | other => other

def canonicalItems : List Json → List Json
  | [] => []
  | item :: rest => item.canonical :: canonicalItems rest

def canonicalMembers : List (String × Json) → List (String × Json) → List (String × Json)
  | [], done => done
  | member :: rest, done => canonicalMembers rest (putMember member.1 member.2.canonical done)

end

end Json
end StartupLatency
