import StartupLatency.Json.MergePatch
import StartupLatency.SortedMap

/-!
Members of JSON objects by their names. Of members of one name the last one counts, in an object
that is patched as well as in one that is brought into canonical form, so each of these operations
is described by what it does to that value.
-/

namespace StartupLatency.Json

abbrev Members := List (String × Json)

def lastIn (name : String) : Members → Option Json
  | [] => none
  | member :: rest => (lastIn name rest).or (if member.1 = name then some member.2 else none)

theorem last_append (name : String) (first second : Members) :
    lastIn name (first ++ second) = (lastIn name second).or (lastIn name first) := by
  induction first with
  | nil => simp [lastIn]
  | cons member rest ih => simp [lastIn, ih, Option.or_assoc]

theorem member_obj (name : String) (members : Members) :
    (Json.obj members).member? name = lastIn name members := by
  simp only [member?]
  induction members with
  | nil => rfl
  | cons member rest ih =>
    rw [List.reverse_cons, List.find?_append, lastIn, ← ih]
    by_cases same : member.1 = name
    · cases List.find? (fun member => member.1 == name) rest.reverse <;> simp [same]
    · simp [same]

theorem last_of_none (name : String) (members : Members) (absent : name ∉ members.map Prod.fst) :
    lastIn name members = none := by
  induction members with
  | nil => rfl
  | cons member rest ih =>
    simp only [List.map_cons, List.mem_cons, not_or] at absent
    simp [lastIn, ih absent.2, Ne.symm absent.1]

theorem last_mem (name : String) (members : Members) (json : Json)
    (found : lastIn name members = some json) : (name, json) ∈ members := by
  induction members with
  | nil => cases found
  | cons member rest ih =>
    simp only [lastIn, Option.or_eq_some_iff] at found
    rcases found with later | ⟨_, here⟩
    · exact List.mem_cons_of_mem member (ih later)
    · split at here
      · rename_i same
        cases here
        exact same ▸ List.mem_cons_self
      · cases here

/-! ## Patching -/

theorem last_drop (wanted name : String) (members : Members) :
    lastIn wanted (dropMember name members) =
      if wanted = name then none else lastIn wanted members := by
  induction members with
  | nil => simp [dropMember, lastIn]
  | cons member rest ih =>
    simp only [dropMember] at ih
    by_cases same : member.1 = name
    · simp only [dropMember, List.filter_cons, same, bne_self_eq_false, Bool.false_eq_true,
        if_false, ih, lastIn]
      by_cases here : wanted = name
      · simp [here]
      · simp [here, Ne.symm here]
    · simp only [dropMember, List.filter_cons, bne_iff_ne, ne_eq, same, not_false_eq_true, if_true,
        lastIn, ih]
      by_cases here : wanted = name
      · simp [here, same]
      · simp [here]

theorem last_set (wanted name : String) (value : Json) (members : Members) :
    lastIn wanted (setMember name value members) =
      if wanted = name then some value else lastIn wanted members := by
  induction members with
  | nil => simp [setMember, lastIn, eq_comm]
  | cons member rest ih =>
    by_cases same : member.1 = name
    · by_cases here : wanted = name
      · simp [setMember, same, lastIn, last_drop, here]
      · simp [setMember, same, lastIn, last_drop, here, Ne.symm here]
    · simp only [setMember, if_neg same, lastIn, ih]
      by_cases here : wanted = name
      · simp [here]
      · simp [here]

/-- What a patch makes of a member: one that it does not name stays, one that it makes `null`
goes, and any other is patched. -/
def patchedMember (found change : Option Json) : Option Json :=
  match change with
  | none => found
  | some change => if change.isNull then none else some (patchedBy (found.getD .null) change)

theorem last_patched (name : String) (members changes : Members)
    (distinct : (changes.map Prod.fst).Nodup) :
    lastIn name (membersPatchedBy members changes) =
      patchedMember (lastIn name members) (lastIn name changes) := by
  induction changes generalizing members with
  | nil => simp [membersPatchedBy, lastIn, patchedMember]
  | cons change rest ih =>
    obtain ⟨once, others⟩ := List.nodup_cons.mp distinct
    by_cases here : change.1 = name
    · have unnamed := last_of_none name rest (here ▸ once)
      subst here
      simp only [membersPatchedBy, lastIn, unnamed, Option.none_or, if_true, patchedMember]
      split
      · rw [ih _ others, unnamed, patchedMember, last_drop, if_pos rfl]
      · rw [ih _ others, unnamed, patchedMember, last_set, if_pos rfl, member_obj]
    · simp only [membersPatchedBy, lastIn, if_neg here, Option.or_none]
      split
      · rw [ih _ others, last_drop, if_neg (Ne.symm here)]
      · rw [ih _ others, last_set, if_neg (Ne.symm here)]

theorem mem_set (name : String) (value : Json) (members : Members) (member : String × Json)
    (present : member ∈ setMember name value members) :
    member = (name, value) ∨ member ∈ members := by
  induction members with
  | nil => exact Or.inl (List.mem_singleton.mp present)
  | cons head rest ih =>
    simp only [setMember] at present
    split at present
    · rcases List.mem_cons.mp present with same | kept
      · exact Or.inl same
      · exact Or.inr (List.mem_cons_of_mem head (List.mem_filter.mp kept).1)
    · rcases List.mem_cons.mp present with same | later
      · exact Or.inr (same ▸ List.mem_cons_self)
      · exact (ih later).imp_right (List.mem_cons_of_mem head)

/-- Members of a patched object were there, or the patch has put them there. -/
theorem mem_patched (members changes : Members) (member : String × Json)
    (distinct : (changes.map Prod.fst).Nodup)
    (present : member ∈ membersPatchedBy members changes) :
    member ∈ members ∨ ∃ change ∈ changes,
      member = (change.1, patchedBy ((lastIn change.1 members).getD .null) change.2) := by
  induction changes generalizing members with
  | nil => exact Or.inl present
  | cons change rest ih =>
    obtain ⟨once, others⟩ := List.nodup_cons.mp distinct
    have elsewhere (other : String × Json) (later : other ∈ rest) : other.1 ≠ change.1 :=
      fun same => once (same ▸ List.mem_map_of_mem later)
    rw [membersPatchedBy] at present
    split at present
    · rcases ih _ others present with old | ⟨other, later, same⟩
      · exact Or.inl (List.mem_filter.mp old).1
      · rw [last_drop, if_neg (elsewhere other later)] at same
        exact Or.inr ⟨other, List.mem_cons_of_mem change later, same⟩
    · rcases ih _ others present with old | ⟨other, later, same⟩
      · rcases mem_set _ _ _ member old with new | old
        · rw [member_obj] at new
          exact Or.inr ⟨change, List.mem_cons_self, new⟩
        · exact Or.inl old
      · rw [last_set, if_neg (elsewhere other later)] at same
        exact Or.inr ⟨other, List.mem_cons_of_mem change later, same⟩

def onlyMember (name : String) (members : Members) : Members :=
  members.filter fun member => member.1 = name

-- A member that is set is there once, and the others are as they were.
theorem only_set (name : String) (value : Json) (members : Members) :
    onlyMember name (setMember name value members) = [(name, value)] := by
  induction members with
  | nil => simp [setMember, onlyMember]
  | cons member rest ih =>
    rw [setMember]
    split
    · have none : onlyMember name (dropMember name rest) = [] := by
        simp [onlyMember, dropMember, List.filter_filter]
      simpa [onlyMember] using none
    · rename_i another
      simpa [onlyMember, another] using ih

theorem only_set_other (name other : String) (value : Json) (members : Members)
    (differ : other ≠ name) : onlyMember name (setMember other value members) =
      onlyMember name members := by
  induction members with
  | nil => simp [setMember, onlyMember, differ]
  | cons member rest ih =>
    rw [setMember]
    split
    · rename_i same
      have kept : onlyMember name (dropMember other rest) = onlyMember name rest := by
        rw [onlyMember, dropMember, List.filter_filter]
        refine List.filter_congr fun later _ => ?_
        by_cases named : later.1 = name
        · simp [named, Ne.symm differ]
        · simp [named]
      simpa [onlyMember, differ, same] using kept
    · by_cases named : member.1 = name
      · simpa [onlyMember, named] using ih
      · simpa [onlyMember, named] using ih

theorem last_only (name : String) (members : Members) :
    lastIn name (onlyMember name members) = lastIn name members := by
  induction members with
  | nil => rfl
  | cons member rest ih =>
    by_cases named : member.1 = name
    · simpa [onlyMember, named, lastIn] using congrArg (·.or (some member.2)) ih
    · simpa [onlyMember, named, lastIn] using ih

theorem patched_by_one (members : Members) (name : String) (change : Json)
    (whole : change.isNull = false) :
    membersPatchedBy members [(name, change)] =
      setMember name (((lastIn name members).getD .null).patchedBy change) members := by
  simp only [membersPatchedBy, whole, Bool.false_eq_true, if_false, member_obj]

theorem patched_by_two (members : Members) (first second : String) (x y : Json)
    (differ : second ≠ first) (first_whole : x.isNull = false) (second_whole : y.isNull = false) :
    membersPatchedBy members [(first, x), (second, y)] =
      setMember second (((lastIn second members).getD .null).patchedBy y)
        (setMember first (((lastIn first members).getD .null).patchedBy x) members) := by
  simp only [membersPatchedBy, first_whole, second_whole, Bool.false_eq_true, if_false, member_obj,
    last_set, if_neg differ]

/-! ## Canonical form -/

theorem put_member_eq (name : String) (value : Json) (members : Members) :
    putMember name value members = SortedMap.insertIn name value members := by
  induction members with
  | nil => rfl
  | cons member rest ih =>
    cases order : compare name member.1 <;> simp [putMember, SortedMap.insertIn, order, ih]

def Ascending (members : Members) : Prop :=
  members.Pairwise fun a b => compare a.1 b.1 = .lt

theorem ascending_canonical (members done : Members) (ascending : Ascending done) :
    Ascending (canonicalMembers members done) := by
  induction members generalizing done with
  | nil => exact ascending
  | cons member rest ih =>
    rw [canonicalMembers, put_member_eq]
    exact ih _ (SortedMap.ascending_insertIn _ _ ascending)

theorem lookup_canonical (name : String) (members done : Members) :
    SortedMap.lookupIn name (canonicalMembers members done) =
      ((lastIn name members).map canonical).or (SortedMap.lookupIn name done) := by
  induction members generalizing done with
  | nil => simp [canonicalMembers, lastIn]
  | cons member rest ih =>
    rw [canonicalMembers, ih, put_member_eq, SortedMap.lookupIn_insertIn, lastIn]
    by_cases here : member.1 = name
    · cases lastIn name rest <;> simp [here]
    · simp [here, Ne.symm here]

/-- Members in ascending order are what canonical form makes of any that have the same values by
their names. -/
theorem canonical_obj (members ordered : Members) (ascending : Ascending ordered)
    (same : ∀ name, (lastIn name members).map canonical = SortedMap.lookupIn name ordered) :
    (Json.obj members).canonical = .obj ordered := by
  rw [canonical]
  congr 1
  refine SortedMap.eq_of_lookupIn_eq (ascending_canonical members [] .nil) ascending fun name => ?_
  rw [lookup_canonical, same name]
  simp [SortedMap.lookupIn]

theorem canonical_eq_str (json : Json) (text : String) :
    json.canonical = .str text ↔ json = .str text := by
  cases json <;> simp [canonical]

/-! ## Readability -/

theorem readable_members (members : Members) :
    haveReadableValues members = true ↔ ∀ member ∈ members, member.2.isReadable = true := by
  induction members with
  | nil => simp [haveReadableValues]
  | cons member rest ih => simp [haveReadableValues, ih]

theorem readable_append (first second : Members) :
    haveReadableValues (first ++ second) =
      (haveReadableValues first && haveReadableValues second) := by
  induction first with
  | nil => rfl
  | cons member rest ih => simp [haveReadableValues, ih, Bool.and_assoc]

theorem readable_found (name : String) (members : Members)
    (readable : haveReadableValues members = true) :
    ((lastIn name members).getD .null).isReadable = true := by
  cases found : lastIn name members with
  | none => rfl
  | some json => exact (readable_members members).mp readable _ (last_mem name members json found)

mutual

/-- A patch without unreadable parts leaves a readable value readable. -/
theorem readable_patched (target : Json) : (change : Json) → target.isReadable = true →
    change.isReadable = true → (target.patchedBy change).isReadable = true
  | .obj changes, readable, clear => by
    rw [patchedBy, isReadable]
    refine readable_members_patched (membersOf target) changes ?_ clear
    cases target with
    | obj members => exact readable
    | _ => rfl
  | .null, _, clear => clear
  | .bool _, _, clear => clear
  | .num _, _, clear => clear
  | .str _, _, clear => clear
  | .arr _, _, clear => clear
  | .valueless, _, clear => clear

theorem readable_members_patched (members : Members) : (changes : Members) →
    haveReadableValues members = true → haveReadableValues changes = true →
    haveReadableValues (membersPatchedBy members changes) = true
  | [], readable, _ => readable
  | (name, change) :: rest, readable, clear => by
    rw [haveReadableValues, Bool.and_eq_true] at clear
    have values := (readable_members members).mp readable
    rw [membersPatchedBy]
    split
    · refine readable_members_patched _ rest ((readable_members _).mpr ?_) clear.2
      intro member kept
      exact values member (List.mem_filter.mp kept).1
    · refine readable_members_patched _ rest ((readable_members _).mpr ?_) clear.2
      intro member kept
      rcases mem_set name _ members member kept with new | old
      · rw [new, member_obj]
        exact readable_patched _ change (readable_found name members readable) clear.1
      · exact values member old

end

end StartupLatency.Json
