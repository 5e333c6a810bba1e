import StartupLatency.Json
/-!
Merge patches. A member that is `null` in the patch is taken away, a member that is an object is
merged with what was there, and any other value takes its place.
-/

namespace StartupLatency.Json

def isNull : Json → Bool
  | .null => true
  | _ => false

def dropMember (name : String) (members : List (String × Json)) : List (String × Json) :=
  members.filter fun member => member.1 != name

-- Give the member of a name its value, at the place of the first one or else at the end.
def setMember (name : String) (value : Json) : List (String × Json) → List (String × Json)
  | [] => [(name, value)]
  | member :: rest =>
    if member.1 = name then (name, value) :: dropMember name rest
    else member :: setMember name value rest

def membersOf (target : Json) : List (String × Json) := target.members?.getD []

mutual

/-- What a patch makes of a value. An absent value is patched like `null`. -/
def patchedBy (target : Json) : Json → Json
  | .obj changes => .obj (membersPatchedBy (membersOf target) changes)
  | other => other

def membersPatchedBy (members : List (String × Json)) :
    List (String × Json) → List (String × Json)
  | [] => members
  | change :: rest =>
    if change.2.isNull then membersPatchedBy (dropMember change.1 members) rest
    else
      let found := ((Json.obj members).member? change.1).getD .null
      membersPatchedBy (setMember change.1 (patchedBy found change.2) members) rest

end

end StartupLatency.Json
