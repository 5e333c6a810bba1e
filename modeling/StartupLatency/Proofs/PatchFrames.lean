import StartupLatency.Proofs.JsonMembers

/-!
What a merge patch leaves alone. A path of names leads to a value through objects within objects.
A patch spares it if the path turns away from the patch, at any depth, to a member that the patch
does not name.
-/

namespace StartupLatency.Json

def at? : List String → Json → Option Json
  | [], json => some json
  | name :: rest, json => (json.member? name).bind (at? rest)

/-- Neither the value at the end of the path nor what is within it is named by the patch, and none
of the objects on the way is replaced as a whole. -/
def Spares : List String → Json → Prop
  | name :: rest, .obj changes => ∀ change ∈ changes, change.1 = name → Spares rest change.2
  | _, _ => False

theorem member_members_of (name : String) (target : Json) :
    target.member? name = lastIn name (membersOf target) := by
  cases target with
  | obj members => exact member_obj name members
  | _ => rfl

theorem at_null (path : List String) (patch : Json) (spared : patch.Spares path) :
    Json.null.at? path = none := by
  cases path with
  | nil => cases spared
  | cons name rest => rfl

/-- The induction is on the changes of one object; `below` is what is known of the patches within
it. -/
theorem at_members_patched (name : String) (rest : List String) (members changes : Members)
    (below : ∀ target change : Json, change.Spares rest →
      (target.patchedBy change).at? rest = target.at? rest)
    (spared : ∀ change ∈ changes, change.1 = name → change.2.Spares rest) :
    (lastIn name (membersPatchedBy members changes)).bind (at? rest) =
      (lastIn name members).bind (at? rest) := by
  induction changes generalizing members with
  | nil => rw [membersPatchedBy]
  | cons change others ih =>
    obtain ⟨here, later⟩ := List.forall_mem_cons.mp spared
    by_cases named : change.1 = name
    · have within := here named
      have whole : change.2.isNull = false := by
        cases value : change.2 with
        | null =>
          rw [value] at within
          cases rest <;> cases within
        | _ => rfl
      rw [membersPatchedBy, whole, if_neg Bool.false_ne_true, ih _ later, last_set,
        if_pos named.symm, Option.bind_some, below _ _ within, named, member_obj]
      -- A path that goes on leads nowhere from an absent member, which is patched like `null`.
      cases lastIn name members with
      | none => exact at_null rest change.2 within
      | some found => rfl
    · rw [membersPatchedBy]
      split
      · rw [ih _ later, last_drop, if_neg (Ne.symm named)]
      · rw [ih _ later, last_set, if_neg (Ne.symm named)]

/-- A patch leaves every value that it spares exactly as it was, and adds none. -/
theorem at_patched (path : List String) (target patch : Json) (spared : patch.Spares path) :
    (target.patchedBy patch).at? path = target.at? path := by
  induction path generalizing target patch with
  | nil => cases spared
  | cons name rest ih =>
    cases patch with
    | obj changes =>
      rw [patchedBy, at?, at?, member_obj, member_members_of]
      exact at_members_patched name rest (membersOf target) changes ih spared
    | _ => cases spared

end StartupLatency.Json
