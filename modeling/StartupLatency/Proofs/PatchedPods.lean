import StartupLatency.Cluster.Pod
import StartupLatency.Proofs.ServedUpdate

/-!
The object of a pod into which annotations are merged. Reading an object puts each member into the
part of the value that its field is about; a member that is set takes the place of what that part
had, wherever it stands among the others. So the pod is read as before but for its annotations.
-/

namespace StartupLatency

open Json

namespace Cluster

variable {α β : Type}

structure Part (α β : Type) where
  get : α → β
  put : β → α → α
  get_put : ∀ part value, get (put part value) = part
  put_get : ∀ value, put (get value) value = value
  put_put : ∀ part former value, put part (put former value) = put part value

-- A field for which it makes no difference what a part of the value has.
def Part.Apart (part : Part α β) (field : Json.Field α) : Prop :=
  ∀ new json value,
    field.read json (part.put new value) = (field.read json value).map (part.put new)

/-- The field of that name reads the part, and no other field has to do with it. -/
structure Part.ReadBy (part : Part α β) (fields : List (Json.Field α)) (name : String)
    (read : Decoder β) : Prop where
  known : ∃ field, (fields.find? fun field => field.name == name) = some field ∧
    ∀ json value, field.read json value = (read json).map fun new => part.put new value
  apart : ∀ field ∈ fields, field.name ≠ name → part.Apart field

namespace Part

variable {part : Part α β} {fields : List (Json.Field α)} {name : String} {read : Decoder β}

theorem apart_keeps {field : Json.Field α} (apart : part.Apart field) (json : Json)
    (value next : α) (done : field.read json value = .ok next) :
    part.get next = part.get value := by
  have same := apart (part.get value) json value
  rw [part.put_get, done, Except.map, Except.ok.injEq] at same
  rw [same, part.get_put]

theorem read_own (by_field : part.ReadBy fields name read) (json : Json) (rest : Members)
    (value : α) : readMembers fields value ((name, json) :: rest) =
      (read json).bind fun new => readMembers fields (part.put new value) rest := by
  obtain ⟨own, known, reads⟩ := by_field.known
  rw [readMembers, known]
  dsimp only
  rw [reads]
  cases read json <;> rfl

/-- A member of another name reads the same whatever the part has. -/
theorem read_other (by_field : part.ReadBy fields name read) (other : String) (json : Json)
    (apart : other ≠ name) (rest : Members) (value final : α)
    (done : readMembers fields value ((other, json) :: rest) = .ok final) :
    ∃ next, readMembers fields next rest = .ok final ∧ part.get next = part.get value ∧
      (∀ more, readMembers fields value ((other, json) :: more) = readMembers fields next more) ∧
      ∀ new more, readMembers fields (part.put new value) ((other, json) :: more) =
        readMembers fields (part.put new next) more := by
  rw [readMembers] at done
  cases found : fields.find? fun field => field.name == other with
  | none =>
    rw [found] at done
    exact ⟨value, done, rfl, fun more => by rw [readMembers, found],
      fun new more => by rw [readMembers, found]⟩
  | some field =>
    rw [found] at done
    have called : field.name = other := by simpa using List.find?_some found
    have blind := by_field.apart field (List.mem_of_find?_eq_some found) (called ▸ apart)
    cases put : field.read json value with
    | error fault => simp only [put, reduceCtorEq] at done
    | ok next =>
      simp only [put] at done
      refine ⟨next, done, apart_keeps blind _ _ _ put, fun more => ?_, fun new more => ?_⟩
      · rw [readMembers, found]
        simp only [put]
      · rw [readMembers, found]
        simp only [blind new json value, put, Except.map]

/-- Of the members of the part's name the last one counts. -/
theorem read_given (by_field : part.ReadBy fields name read) (members : Members) (value final : α)
    (done : readMembers fields value members = .ok final) :
    Given read (part.get value) (lastIn name members) (part.get final) := by
  induction members generalizing value with
  | nil =>
    cases done
    rfl
  | cons member rest ih =>
    obtain ⟨other, json⟩ := member
    by_cases named : other = name
    · subst named
      rw [read_own by_field] at done
      cases given : read json with
      | error fault =>
        rw [given] at done
        cases done
      | ok new =>
        rw [given] at done
        have later := ih _ done
        rw [part.get_put] at later
        rw [lastIn, if_pos rfl]
        cases last : lastIn other rest with
        | none =>
          rw [last] at later
          rw [Option.none_or, Given, given, later]
        | some latest => rwa [last] at later
    · obtain ⟨next, readRest, kept, _⟩ := read_other by_field other json named rest value final done
      rw [lastIn, if_neg named, Option.or_none, ← kept]
      exact ih next readRest

/-- Without the members of the part's name, what is read differs in the part alone. -/
theorem read_dropped (by_field : part.ReadBy fields name read) (new : β) (members : Members)
    (value final : α) (done : readMembers fields value members = .ok final) :
    readMembers fields (part.put new value) (dropMember name members) =
      .ok (part.put new final) := by
  induction members generalizing value with
  | nil =>
    cases done
    rfl
  | cons member rest ih =>
    obtain ⟨other, json⟩ := member
    by_cases named : other = name
    · subst named
      rw [read_own by_field] at done
      cases given : read json with
      | error fault =>
        rw [given] at done
        cases done
      | ok former =>
        rw [given] at done
        have later := ih _ done
        rw [part.put_put] at later
        simpa [dropMember] using later
    · obtain ⟨next, readRest, _, _, same⟩ :=
        read_other by_field other json named rest value final done
      have kept : dropMember name ((other, json) :: rest) =
          (other, json) :: dropMember name rest := by simp [dropMember, named]
      rw [kept, same]
      exact ih next readRest

/-- Where a member is set, what is read differs in the part alone, which has what was set. -/
theorem read_set (by_field : part.ReadBy fields name read) (json : Json) (new : β)
    (given : read json = .ok new) (members : Members) (value final : α)
    (done : readMembers fields value members = .ok final) :
    readMembers fields value (setMember name json members) = .ok (part.put new final) := by
  induction members generalizing value with
  | nil =>
    cases done
    rw [setMember, read_own by_field, given]
    rfl
  | cons member rest ih =>
    rw [setMember]
    split
    · rename_i named
      have dropped : dropMember name (member :: rest) = dropMember name rest := by
        simp [dropMember, named]
      rw [read_own by_field, given, ← dropped]
      exact read_dropped by_field new (member :: rest) value final done
    · rename_i named
      obtain ⟨next, readRest, _, same, _⟩ :=
        read_other by_field member.1 member.2 named rest value final done
      exact (same _).trans (ih next readRest)

/-- A member that is read by itself has to do with another part if the two can be put in either
order. -/
theorem member_apart {γ : Type} (part : Part α β) (name : String) (read : Decoder γ)
    (put : α → Option γ → α)
    (swap : ∀ new value given, put (part.put new value) given = part.put new (put value given)) :
    part.Apart (member name read put) := by
  intro new json value
  simp only [member]
  cases Decode.optional read json with
  | error fault => rfl
  | ok given => exact congrArg Except.ok (swap new value given)

theorem checked_apart (part : Part α β) (type : MemberType) (names : List String) :
    ∀ field ∈ checked type names, part.Apart field := by
  intro field listed
  obtain ⟨name, _, rfl⟩ := List.mem_map.mp listed
  exact member_apart part name type.check _ fun _ _ _ => rfl

end Part

namespace ObjectMeta

def annotationPart : Part ObjectMeta (Option Annotations) where
  get objectMeta := objectMeta.annotations?
  put annotations? objectMeta := { objectMeta with annotations? := annotations? }
  get_put _ _ := rfl
  put_get _ := rfl
  put_put _ _ _ := rfl

theorem annotations_read : annotationPart.ReadBy fields "annotations"
    (Decode.optional (Decode.map Decode.string)) where
  known := ⟨_, rfl, fun _ _ => rfl⟩
  apart := by
    intro field listed other
    simp only [fields, List.mem_append, List.mem_cons, List.not_mem_nil, or_false] at listed
    rcases listed with (((((kept | listed) | listed) | listed) | listed) | listed) | listed
    · rcases kept with rfl | rfl | rfl | rfl | rfl | rfl | rfl
      case inr.inr.inr.inr.inr.inr => exact absurd rfl other
      all_goals exact Part.member_apart _ _ _ _ fun _ _ _ => rfl
    all_goals exact Part.checked_apart _ _ _ field listed

end ObjectMeta

namespace PodObject

def metadataPart : Part PodObject ObjectMeta where
  get object := object.objectMeta
  put objectMeta object := { object with objectMeta := objectMeta }
  get_put _ _ := rfl
  put_get _ := rfl
  put_put _ _ _ := rfl

def readMetadata : Decoder ObjectMeta := fun json =>
  (Decode.optional ObjectMeta.decode json).map fun given => given.getD default

theorem fixed_apart (name wanted : String) : metadataPart.Apart (fixed name wanted) := by
  intro new json value
  simp only [fixed]
  cases Decode.string json with
  | error fault => rfl
  | ok given =>
    dsimp only
    split <;> rfl

theorem metadata_read : metadataPart.ReadBy fields "metadata" readMetadata where
  known := by
    refine ⟨_, rfl, fun json value => ?_⟩
    simp only [member, readMetadata]
    cases Decode.optional ObjectMeta.decode json <;> rfl
  apart := by
    intro field listed other
    simp only [fields, List.mem_cons, List.not_mem_nil, or_false] at listed
    rcases listed with rfl | rfl | rfl | rfl | rfl
    · exact fixed_apart _ _
    · exact fixed_apart _ _
    · exact absurd rfl other
    · exact Part.member_apart _ _ _ _ fun _ _ _ => rfl
    · exact Part.member_apart _ _ _ _ fun _ _ given => by cases given <;> rfl

end PodObject

/-! ## Annotations that are merged -/

/-- A map that has been read has the last text of each name. -/
theorem entries_last (members : Members) (map result : SortedMap String String)
    (read : Decode.entries Decode.string map members = .ok result) (name : String) :
    (result.find? name).map .str = (lastIn name members).or ((map.find? name).map .str) := by
  induction members generalizing map with
  | nil =>
    cases read
    rfl
  | cons member rest ih =>
    obtain ⟨key, json⟩ := member
    cases json with
    | str text =>
      rw [ih (map.insert key text) read, SortedMap.find?_insert, lastIn]
      by_cases here : key = name
      · cases lastIn name rest <;> simp [here]
      · simp [here, Ne.symm here]
    | _ => cases read

theorem held_last (found : Json) (held? : Option Annotations)
    (given : Decode.optional (Decode.map Decode.string) found = .ok held?) (name : String) :
    lastIn name (membersOf found) = ((held?.getD ∅).find? name).map .str := by
  cases found with
  | obj members =>
    simp only [Decode.optional, Decode.map] at given
    cases read : Decode.entries Decode.string ∅ members with
    | error fault =>
      rw [read] at given
      cases given
    | ok map =>
      rw [read] at given
      cases given
      exact ((entries_last members ∅ map read name).trans Option.or_none).symm
  | null =>
    cases given
    rfl
  | _ => cases given

/-- Annotations that are merged into others take their places and leave the rest. -/
theorem annotations_merged (found : Json) (held? : Option Annotations) (added : Annotations)
    (given : Decode.optional (Decode.map Decode.string) found = .ok held?) :
    Decode.optional (Decode.map Decode.string) (found.patchedBy (Json.ofStringMap added)) =
      .ok (some ((held?.getD ∅).override added)) := by
  obtain ⟨merged?, read⟩ := ObjectMeta.labels_readable (some found) added fun json same => by
    cases same
    exact ⟨held?, given⟩
  rw [Option.getD_some] at read
  have last := held_last _ merged? read
  have ascending : Ascending (texts added.entries) := (ascending_texts _).mpr added.ascending
  rw [string_map_texts, patchedBy] at read last ⊢
  rw [read]
  cases merged? with
  | none =>
    simp only [Decode.optional, Decode.map] at read
    generalize Decode.entries Decode.string ∅ _ = entries at read
    cases entries <;> cases read
  | some merged =>
    refine congrArg (fun map => Except.ok (some map)) (SortedMap.ext_find? fun name => ?_)
    have found_last := last name
    rw [membersOf, members?, Option.getD_some, Option.getD_some,
      last_patched _ _ _ (ascending_distinct _ ascending), held_last found held? given,
      last_ascending _ _ ascending, lookup_texts] at found_last
    rw [SortedMap.find?_override]
    change patchedMember _ ((added.find? name).map Json.str) = _ at found_last
    have injective : Function.Injective Json.str := fun _ _ same => Json.str.inj same
    refine Option.map_injective injective (found_last.symm.trans ?_)
    cases added.find? name with
    | none => rfl
    | some text => rfl

-- What is absent is read like `null`.
theorem given_or_null (read : Decoder β) (found : Option Json) (start part : β)
    (blank : read .null = .ok start) (given : Given read start found part) :
    read (found.getD .null) = .ok part := by
  cases found with
  | none =>
    cases given
    exact blank
  | some json => exact given

theorem members_of_metadata (found : Json) (objectMeta : ObjectMeta)
    (given : PodObject.readMetadata found = .ok objectMeta) :
    readMembers ObjectMeta.fields default (membersOf found) = .ok objectMeta := by
  cases found with
  | obj members =>
    simp only [PodObject.readMetadata, Decode.optional] at given
    cases read : ObjectMeta.decode (.obj members) with
    | error fault =>
      rw [read] at given
      cases given
    | ok former =>
      rw [read] at given
      cases given
      exact read
  | null =>
    cases given
    rfl
  | _ => cases given

theorem metadata_merged (found : Json) (former : ObjectMeta) (added : Annotations)
    (given : PodObject.readMetadata found = .ok former) :
    PodObject.readMetadata
        (found.patchedBy (.obj [("annotations", Json.ofStringMap added)])) =
      .ok { former with annotations? := some ((former.annotations?.getD ∅).override added) } := by
  have members := members_of_metadata found former given
  have held := Part.read_given ObjectMeta.annotations_read _ _ _ members
  have merged := annotations_merged _ _ added (given_or_null _ _ _ _ rfl held)
  have set := Part.read_set ObjectMeta.annotations_read _ _ merged _ _ _ members
  rw [patchedBy, patched_by_one _ _ _ rfl]
  simp only [PodObject.readMetadata, Decode.optional, ObjectMeta.decode, object, set]
  rfl

/-- The pod of an object into which annotations are merged. -/
theorem pod_patched (object : Json) (pod : Pod) (added : Annotations)
    (decoded : podOf object = .ok pod) :
    podOf (object.patchedBy (annotationChange added)) =
      .ok { pod with annotations := pod.annotations.override added } := by
  cases object with
  | obj members =>
    cases read : PodObject.decode (.obj members) with
    | error fault =>
      rw [podOf, read] at decoded
      cases decoded
    | ok former =>
      rw [podOf, read] at decoded
      cases decoded
      have given := Part.read_given PodObject.metadata_read members default former read
      have merged := metadata_merged _ _ added (given_or_null _ _ _ _ rfl given)
      have set := Part.read_set PodObject.metadata_read _ _ merged _ _ _ read
      rw [annotationChange, patchedBy, membersOf, members?, Option.getD_some,
        patched_by_one _ _ _ rfl, podOf, PodObject.decode, Cluster.object, set]
      rfl
  | _ => cases decoded

end Cluster
end StartupLatency
