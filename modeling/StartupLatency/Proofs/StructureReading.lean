import StartupLatency.Json.Decode
import StartupLatency.Proofs.JsonMembers

/-!
Structures that are read from objects in canonical form. Unknown members are passed over, so what is
read depends on the last values under the names of the fields alone.
-/

namespace StartupLatency.Json

def pick (names : List String) (members : Members) : Members :=
  names.filterMap fun name => (lastIn name members).map fun json => (name, json.canonical)

theorem pick_nil (members : Members) : pick [] members = [] := rfl

theorem pick_cons (name : String) (names : List String) (members : Members) :
    pick (name :: names) members =
      ((lastIn name members).map fun json => (name, json.canonical)).toList ++
        pick names members := by
  cases found : lastIn name members <;> simp [pick, found]

theorem mem_pick (names : List String) (members : Members) (member : String × Json)
    (present : member ∈ pick names members) : member.1 ∈ names := by
  obtain ⟨name, known, found⟩ := List.mem_filterMap.mp present
  obtain ⟨json, _, same⟩ := Option.map_eq_some_iff.mp found
  exact same ▸ known

theorem ascending_pick (names : List String) (members : Members)
    (ascending : names.Pairwise fun a b => compare a b = .lt) : Ascending (pick names members) := by
  induction names with
  | nil => exact .nil
  | cons name rest ih =>
    obtain ⟨below, later⟩ := List.pairwise_cons.mp ascending
    rw [pick_cons]
    cases lastIn name members with
    | none => exact ih later
    | some json =>
      exact List.pairwise_cons.mpr
        ⟨fun member present => below _ (mem_pick rest members member present), ih later⟩

theorem lookup_pick (wanted : String) (names : List String) (members : Members) :
    SortedMap.lookupIn wanted (pick names members) =
      if wanted ∈ names then (lastIn wanted members).map canonical else none := by
  induction names with
  | nil => rfl
  | cons name rest ih =>
    rw [pick_cons]
    by_cases here : wanted = name
    · subst here
      cases found : lastIn wanted members with
      | none => simp [ih, found]
      | some json => simp [SortedMap.lookupIn]
    · cases lastIn name members with
      | none => simp [ih, here]
      | some json => simp [SortedMap.lookupIn, Std.LawfulEqCmp.compare_eq_iff_eq, ih, here]

namespace Shape

variable {α : Type} (shape : Shape α)

def names : List String := shape.fields.map Field.name

theorem find_none_iff (name : String) :
    (shape.fields.find? fun field => field.name == name) = none ↔ name ∉ shape.names := by
  simp [names, List.find?_eq_none]

theorem read_known (value : α) (seen : List String) (members : Members) :
    shape.readMembers value seen members =
      shape.readMembers value seen
        (members.filter fun member => shape.names.contains member.1) := by
  induction members generalizing value seen with
  | nil => rfl
  | cons member rest ih =>
    cases found : shape.fields.find? fun field => field.name == member.1 with
    | none =>
      have unknown : shape.names.contains member.1 = false := by
        simpa using (shape.find_none_iff member.1).mp found
      rw [List.filter_cons, unknown, readMembers, found]
      exact ih value seen
    | some field =>
      have known : shape.names.contains member.1 = true := by
        cases listed : shape.names.contains member.1 with
        | true => rfl
        | false =>
          rw [(shape.find_none_iff member.1).mpr (by simpa using listed)] at found
          cases found
      rw [List.filter_cons, known, if_pos rfl, readMembers, readMembers, found]
      dsimp only
      split
      · rfl
      · split
        · rfl
        · exact ih _ _

/-- What is read from an object is read from the last members of the fields' names. -/
theorem decode_canonical (names : List String) (members : Members)
    (ascending : names.Pairwise fun a b => compare a b = .lt) (all : names.Perm shape.names) :
    shape.decode (Json.obj members).canonical =
      shape.readMembers shape.start [] (pick names members) := by
  rw [canonical, decode, read_known]
  congr 1
  refine SortedMap.eq_of_lookupIn_eq ((ascending_canonical members [] .nil).filter _)
    (ascending_pick names members ascending) fun name => ?_
  rw [SortedMap.lookupIn_filter, lookup_canonical, lookup_pick]
  simp [SortedMap.lookupIn, all.mem_iff]

variable {β : Type}

/-- The field of that name puts what it reads where `project` finds it, and no other field puts
anything there. -/
def Reads (name : String) (read : Decoder β) (project : α → β) : Prop :=
  ∀ field ∈ shape.fields, ∀ json value next, field.read json value = .ok next →
    if field.name = name then read json = .ok (project next) else project next = project value

end Shape

@[simp] theorem field_name {α β : Type} (name : String) (required : Required) (read : Decoder β)
    (put : α → β → α) : (field name required read put).name = name := rfl

@[simp] theorem field_read {α β : Type} (name : String) (required : Required) (read : Decoder β)
    (put : α → β → α) (json : Json) (value next : α) :
    (field name required read put).read json value = .ok next ↔
      ∃ part, read json = .ok part ∧ put value part = next := by
  simp only [field]
  cases read json <;> simp [Except.map]

def Given {β : Type} (read : Decoder β) (start : β) (found : Option Json) (part : β) : Prop :=
  match found with
  | none => part = start
  | some json => read json = .ok part

namespace Shape

variable {α β : Type} (shape : Shape α) (name : String) (read : Decoder β) (project : α → β)

theorem read_members_given (reads : shape.Reads name read project) (known : name ∈ shape.names)
    (members : Members) (ascending : Ascending members) (value final : α) (seen : List String)
    (done : shape.readMembers value seen members = .ok final) :
    Given read (project value) (SortedMap.lookupIn name members) (project final) := by
  induction members generalizing value seen with
  | nil =>
    rw [readMembers] at done
    split at done
    · cases done
    · cases done
      rfl
  | cons member rest ih =>
    obtain ⟨below, later⟩ := List.pairwise_cons.mp ascending
    rw [readMembers] at done
    split at done
    · rename_i found
      have elsewhere : name ≠ member.1 := by
        rintro rfl
        exact (shape.find_none_iff member.1).mp found known
      simp only [SortedMap.lookupIn, Std.LawfulEqCmp.compare_eq_iff_eq, if_neg elsewhere]
      exact ih later value seen done
    · rename_i field found
      split at done
      · cases done
      · split at done
        · cases done
        · rename_i next put
          have kept := ih later next _ done
          have part := reads field (List.mem_of_find?_eq_some found) _ _ _ put
          have named : field.name = member.1 := by simpa using List.find?_some found
          by_cases here : name = member.1
          -- The name comes once, so that what is read here is not replaced.
          · rw [if_pos (named.trans here.symm)] at part
            rw [here, SortedMap.lookupIn_eq_none_of_lt below] at kept
            simp only [SortedMap.lookupIn, Std.LawfulEqCmp.compare_eq_iff_eq, if_pos here]
            rw [Given, kept]
            exact part
          · rw [if_neg (fun same => here (same.symm.trans named))] at part
            simp only [SortedMap.lookupIn, Std.LawfulEqCmp.compare_eq_iff_eq, if_neg here]
            rwa [part] at kept

/-- What has been read of a structure is, part by part, what its members give. -/
theorem decode_given (reads : shape.Reads name read project) (known : name ∈ shape.names)
    (members : Members) (final : α)
    (decoded : shape.decode (Json.obj members).canonical = .ok final) :
    Given read (project shape.start) ((lastIn name members).map canonical) (project final) := by
  rw [canonical, decode] at decoded
  have given := shape.read_members_given name read project reads known _
    (ascending_canonical members [] .nil) _ _ _ decoded
  rwa [lookup_canonical, SortedMap.lookupIn, Option.or_none] at given

/-- What a patch of a structure builds on: the structure as it is read from an object, or else
nothing, since any other form gives way to the patch. -/
def Beneath (target : Json) (old : α) : Prop :=
  match target with
  | .obj members => shape.decode (Json.obj members).canonical = .ok old
  | _ => old = shape.start

theorem beneath_given (reads : shape.Reads name read project) (known : name ∈ shape.names)
    (target : Json) (old : α) (beneath : shape.Beneath target old) :
    Given read (project shape.start) ((lastIn name (membersOf target)).map canonical)
      (project old) := by
  cases target with
  | obj members => exact shape.decode_given name read project reads known members old beneath
  | _ => exact congrArg project beneath

end Shape

-- A scalar takes the place of what it is merged into.
theorem given_patched {β : Type} [DecidableEq β] (read : Decoder β) (start old new : β)
    (found : Option Json) (form : Json) (whole : ∀ target, patchedBy target form = form)
    (present : form.isNull = false) (back : read form.canonical = .ok new)
    (given : Given read start (found.map canonical) old) :
    Given read start
      ((patchedMember found (if new = start then none else some form)).map canonical)
      (if new = start then old else new) := by
  by_cases omitted : new = start
  · simpa only [if_pos omitted, patchedMember] using given
  · simp only [if_neg omitted, patchedMember, present, Bool.false_eq_true, if_false, whole,
      Option.map_some]
    exact back

theorem given_string (found : Option Json) (text : String)
    (given : Given Decode.string "" (found.map canonical) text) :
    (found = none ∧ text = "") ∨ found = some (.str text) := by
  cases found with
  | none => exact Or.inl ⟨rfl, given⟩
  | some json =>
    cases json <;> cases given
    exact Or.inr rfl

theorem int64_read (json : Json) (value : Int) (read : Decode.int64 json = .ok value) :
    json = .int value := by
  cases json with
  | num number =>
    cases number with
    | int other =>
      simp only [Decode.int64, Decode.integer] at read
      split at read
      · rw [Except.ok.inj read]
        rfl
      · cases read
    | real other => cases read
  | _ => cases read

theorem given_int64 (found : Option Json) (value : Int)
    (given : Given Decode.int64 0 (found.map canonical) value) :
    (found = none ∧ value = 0) ∨
      (found = some (.int value) ∧ Decode.int64 (.int value) = .ok value) := by
  cases found with
  | none => exact Or.inl ⟨rfl, given⟩
  | some json =>
    have read : Decode.int64 json.canonical = .ok value := given
    have form := int64_read _ value read
    rw [form] at read
    refine Or.inr ⟨?_, read⟩
    cases json <;> cases form
    rfl

namespace Shape

variable {α : Type} (shape : Shape α) (keeps : α → Prop)

theorem read_members_keep (steps : ∀ field ∈ shape.fields, ∀ json value next, keeps value →
      field.read json value = .ok next → keeps next)
    (members : Members) (value final : α) (seen : List String) (kept : keeps value)
    (done : shape.readMembers value seen members = .ok final) : keeps final := by
  induction members generalizing value seen with
  | nil =>
    rw [readMembers] at done
    split at done
    · cases done
    · cases done
      exact kept
  | cons member rest ih =>
    rw [readMembers] at done
    split at done
    · exact ih value seen kept done
    · rename_i field found
      split at done
      · cases done
      · split at done
        · cases done
        · rename_i next put
          exact ih next _ (steps field (List.mem_of_find?_eq_some found) _ _ _ kept put) done

theorem read_items_keep (fields : List (Field α)) (steps : ∀ field ∈ fields,
      ∀ json value next, keeps value → field.read json value = .ok next → keeps next)
    (items : List Json) (value final : α) (position : Nat) (kept : keeps value)
    (done : shape.readItems value position fields items = .ok final) : keeps final := by
  induction fields generalizing items value position with
  | nil =>
    cases items with
    | nil =>
      cases done
      exact kept
    | cons item more => cases done
  | cons field fields ih =>
    have others := fun other member => steps other (List.mem_cons_of_mem field member)
    cases items with
    | nil =>
      rw [readItems] at done
      split at done
      · exact ih others [] value _ kept done
      · cases done
    | cons item items =>
      rw [readItems] at done
      split at done
      · cases done
      · rename_i next put
        exact ih others items next _ (steps field List.mem_cons_self _ _ _ kept put) done

/-- What every field keeps holds of all that is read, in either form. -/
theorem decode_keeps (steps : ∀ field ∈ shape.fields, ∀ json value next, keeps value →
      field.read json value = .ok next → keeps next)
    (json : Json) (final : α) (initial : keeps shape.start)
    (decoded : shape.decode json = .ok final) : keeps final := by
  cases json with
  | obj members => exact shape.read_members_keep keeps steps members _ _ _ initial decoded
  | arr items => exact shape.read_items_keep keeps _ steps items _ _ _ initial decoded
  | _ => cases decoded

def under (target : Json) (read : α) : α :=
  match target with
  | .obj _ => read
  | _ => shape.start

theorem under_part {β : Type} (project : α → β) (target : Json) (read : α) :
    project (shape.under target read) =
      if target.members?.isSome then project read else project shape.start := by
  cases target <;> rfl

theorem under_beneath (found : Option Json) (start value : α)
    (given : Given shape.decode start (found.map canonical) value) :
    shape.Beneath (found.getD .null) (shape.under (found.getD .null) value) := by
  cases found with
  | none => rfl
  | some json =>
    cases json with
    | obj members => exact given
    | _ => rfl

end Shape

/-! ## Maps of texts -/

def texts (pairs : List (String × String)) : Members := pairs.map fun pair => (pair.1, .str pair.2)

theorem ascending_texts (pairs : List (String × String)) :
    Ascending (texts pairs) ↔ pairs.Pairwise fun a b => compare a.1 b.1 = .lt :=
  List.pairwise_map

theorem lookup_texts (name : String) (pairs : List (String × String)) :
    SortedMap.lookupIn name (texts pairs) = (SortedMap.lookupIn name pairs).map .str :=
  SortedMap.lookupIn_map Json.str name pairs

theorem string_map_texts (map : SortedMap String String) :
    ofStringMap map = .obj (texts map.entries) := rfl

theorem read_texts (members : Members) (map result : SortedMap String String)
    (read : Decode.entries Decode.string map members = .ok result) :
    ∃ pairs, members = texts pairs := by
  induction members generalizing map with
  | nil => exact ⟨[], rfl⟩
  | cons member rest ih =>
    obtain ⟨name, json⟩ := member
    rw [Decode.entries] at read
    cases json with
    | str text =>
      obtain ⟨pairs, same⟩ := ih _ read
      exact ⟨(name, text) :: pairs, by rw [same]; rfl⟩
    | _ => cases read

theorem texts_read (members : Members) (map : SortedMap String String)
    (all : ∀ member ∈ members, ∃ text, member.2 = .str text) :
    ∃ result, Decode.entries Decode.string map members = .ok result := by
  induction members generalizing map with
  | nil => exact ⟨map, rfl⟩
  | cons member rest ih =>
    obtain ⟨here, later⟩ := List.forall_mem_cons.mp all
    obtain ⟨text, same⟩ := here
    rw [Decode.entries, same]
    exact ih _ later

theorem entries_texts (pairs : List (String × String)) (map : SortedMap String String)
    (ascending : pairs.Pairwise fun a b => compare a.1 b.1 = .lt) :
    ∃ result, Decode.entries Decode.string map (texts pairs) = .ok result ∧
      ∀ name, result.find? name = (SortedMap.lookupIn name pairs).or (map.find? name) := by
  induction pairs generalizing map with
  | nil => exact ⟨map, rfl, fun _ => rfl⟩
  | cons pair rest ih =>
    obtain ⟨below, later⟩ := List.pairwise_cons.mp ascending
    obtain ⟨result, read, found⟩ := ih (map.insert pair.1 pair.2) later
    refine ⟨result, read, fun name => ?_⟩
    rw [found, SortedMap.find?_insert]
    by_cases here : name = pair.1
    · rw [here, SortedMap.lookupIn_eq_none_of_lt below]
      simp [SortedMap.lookupIn]
    · simp [SortedMap.lookupIn, Std.LawfulEqCmp.compare_eq_iff_eq, here]

/-- A map of texts is read from an object exactly when it has the object's members. -/
theorem map_canonical (members : Members) (map : SortedMap String String) :
    Decode.map Decode.string (Json.obj members).canonical = .ok map ↔
      ∀ name, lastIn name members = (map.find? name).map .str := by
  constructor
  -- What can be read are texts in ascending order, so that the map has what the object has.
  · intro read name
    rw [canonical, Decode.map] at read
    obtain ⟨pairs, same⟩ := read_texts _ _ _ read
    have ascending := ascending_canonical members [] .nil
    have looked := lookup_canonical name members []
    rw [same] at read ascending looked
    obtain ⟨result, again, found⟩ := entries_texts pairs ∅ ((ascending_texts pairs).mp ascending)
    rw [read] at again
    cases again
    have here : map.find? name = SortedMap.lookupIn name pairs :=
      (found name).trans (Option.or_none)
    rw [lookup_texts, ← here, SortedMap.lookupIn, Option.or_none] at looked
    cases stored : lastIn name members with
    | none =>
      rw [stored] at looked
      exact looked.symm
    | some json =>
      rw [stored] at looked
      cases text : map.find? name with
      | none =>
        rw [text] at looked
        cases looked
      | some value =>
        rw [text, Option.map_some, Option.map_some, Option.some.injEq] at looked
        rw [Option.map_some, (canonical_eq_str json value).mp looked.symm]
  -- Two listings in ascending order with the same values are one.
  · intro same
    have ordered : (Json.obj members).canonical = .obj (texts map.entries) := by
      refine canonical_obj members _ ((ascending_texts _).mpr map.ascending) fun name => ?_
      rw [same, lookup_texts, SortedMap.find?]
      cases SortedMap.lookupIn name map.entries <;> rfl
    obtain ⟨result, read, found⟩ := entries_texts map.entries ∅ map.ascending
    rw [ordered, Decode.map, read]
    congr 1
    exact SortedMap.ext_find? fun name => (found name).trans Option.or_none

theorem last_ascending (name : String) (members : Members) (ascending : Ascending members) :
    lastIn name members = SortedMap.lookupIn name members := by
  induction members with
  | nil => rfl
  | cons member rest ih =>
    obtain ⟨below, later⟩ := List.pairwise_cons.mp ascending
    rw [lastIn, ih later, SortedMap.lookupIn]
    by_cases here : member.1 = name
    · subst here
      simp [SortedMap.lookupIn_eq_none_of_lt below]
    · simp [Std.LawfulEqCmp.compare_eq_iff_eq, here, Ne.symm here]

theorem ascending_distinct (members : Members) (ascending : Ascending members) :
    (members.map Prod.fst).Nodup := by
  refine List.pairwise_map.mpr (ascending.imp fun less same => ?_)
  rw [same, Std.ReflOrd.compare_self] at less
  cases less

/-- A map that is merged into a part of itself is read back. -/
theorem map_patched (target : Json) (map : SortedMap String String)
    (within : ∀ name, map.find? name = none → lastIn name (membersOf target) = none) :
    Decode.map Decode.string (target.patchedBy (ofStringMap map)).canonical = .ok map := by
  have ascending : Ascending (texts map.entries) := (ascending_texts _).mpr map.ascending
  rw [string_map_texts, patchedBy, map_canonical]
  intro name
  rw [last_patched _ _ _ (ascending_distinct _ ascending), last_ascending _ _ ascending,
    lookup_texts]
  change patchedMember _ ((map.find? name).map Json.str) = _
  cases found : map.find? name with
  | none => exact within name found
  | some text => rfl

end StartupLatency.Json
