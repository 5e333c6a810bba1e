import StartupLatency.Json.Decode
import StartupLatency.Proofs.JsonText
import StartupLatency.Proofs.StructureReading

/-!
Structures that are written field by field. Members that come in the order of the fields are read
one after the other, and a field whose member is left out keeps what the structure starts with. So
a structure whose parts can be read from their texts can be read from its own.
-/

namespace StartupLatency

namespace Json

/-- A form that its text tells and that the value is read from. -/
structure Conveys {β : Type} (read : Decoder β) (json : Json) (part : β) : Prop where
  plain : Plain json
  back : read json = .ok part

def readText {β : Type} (read : Decoder β) (text : String) : Option β :=
  (ofText? text).bind fun json => (read json).toOption

theorem Conveys.read_text {β : Type} {read : Decoder β} {json : Json} {part : β}
    (conveys : Conveys read json part) : readText read json.compactText = some part := by
  rw [readText, of_text_compact conveys.plain, Option.bind_some, conveys.back]
  rfl

namespace Shape

variable {α : Type}

/-- Members that are written for fields one after the other, from a value on to the value that is
read of them. -/
inductive Writes : List (Field α) → α → Members → α → Prop where
  | done (value : α) : Writes [] value [] value
  | given {field : Field α} {fields : List (Field α)} {value next final : α} {json : Json}
      {members : Members} (plain : Plain json) (put : field.read json value = .ok next)
      (later : Writes fields next members final) :
      Writes (field :: fields) value ((field.name, json) :: members) final
  | omitted {field : Field α} {fields : List (Field α)} {value final : α} {members : Members}
      (spared : field.required ≠ .always) (later : Writes fields value members final) :
      Writes (field :: fields) value members final

theorem find_named (fields : List (Field α)) (distinct : (fields.map Field.name).Nodup)
    (field : Field α) (member : field ∈ fields) :
    (fields.find? fun other => other.name == field.name) = some field := by
  induction fields with
  | nil => cases member
  | cons first rest ih =>
    obtain ⟨once, others⟩ := List.nodup_cons.mp distinct
    rcases List.mem_cons.mp member with rfl | later
    · exact List.find?_cons_of_pos (by simp)
    · have differ : first.name ≠ field.name := fun same =>
        once (same ▸ List.mem_map_of_mem later)
      rw [List.find?_cons_of_neg (by simpa using differ)]
      exact ih others later

variable (shape : Shape α)

/-- What fields have written is read by them, if those that are still to come have not been read
and all that have to be there have been read or are still to come. -/
theorem read_writes (distinct : shape.names.Nodup) {fields : List (Field α)} {value final : α}
    {members : Members} (writes : Writes fields value members final) (seen : List String)
    (known : ∀ field ∈ fields, field ∈ shape.fields)
    (apart : (fields.map Field.name).Nodup) (fresh : ∀ field ∈ fields, field.name ∉ seen)
    (needed : ∀ field ∈ shape.fields, field.required = .always →
      field.name ∈ seen ∨ field ∈ fields) :
    shape.readMembers value seen members = .ok final := by
  induction writes generalizing seen with
  | done value =>
    have none_missing : (shape.fields.find? fun field =>
        field.required = .always && !seen.contains field.name) = none := by
      rw [List.find?_eq_none]
      intro field among missing
      simp only [Bool.and_eq_true, decide_eq_true_eq, Bool.not_eq_eq_eq_not, Bool.not_true,
        List.contains_eq_mem, decide_eq_false_iff_not] at missing
      rcases needed field among missing.1 with read | left
      · exact missing.2 read
      · cases left
    rw [readMembers, none_missing]
  | @given field fields value next final json members plain put later ih =>
    obtain ⟨here, others⟩ := List.forall_mem_cons.mp known
    obtain ⟨once, rest⟩ := List.nodup_cons.mp apart
    obtain ⟨unread, new⟩ := List.forall_mem_cons.mp fresh
    have found := find_named shape.fields distinct field here
    have first : seen.contains field.name = false := by simpa using unread
    rw [readMembers, found]
    simp only [first, Bool.false_eq_true, if_false, put]
    refine ih (field.name :: seen) others rest ?_ ?_
    · intro other among again
      rcases List.mem_cons.mp again with same | old
      · exact once (same ▸ List.mem_map_of_mem among)
      · exact new other among old
    · intro other among always
      rcases needed other among always with read | left
      · exact Or.inl (List.mem_cons_of_mem _ read)
      · rcases List.mem_cons.mp left with rfl | later
        · exact Or.inl List.mem_cons_self
        · exact Or.inr later
  | @omitted field fields value final members spared later ih =>
    obtain ⟨_, others⟩ := List.forall_mem_cons.mp known
    obtain ⟨_, rest⟩ := List.nodup_cons.mp apart
    obtain ⟨_, new⟩ := List.forall_mem_cons.mp fresh
    refine ih seen others rest new fun other among always => ?_
    rcases needed other among always with read | left
    · exact Or.inl read
    · rcases List.mem_cons.mp left with rfl | later
      · exact absurd always spared
      · exact Or.inr later

theorem plain_writes {fields : List (Field α)} {value final : α} {members : Members}
    (writes : Writes fields value members final) : ∀ member ∈ members, Plain member.2 := by
  induction writes with
  | done value => exact fun _ none => absurd none List.not_mem_nil
  | given plain put later ih => exact List.forall_mem_cons.mpr ⟨plain, ih⟩
  | omitted spared later ih => exact ih

/-- A structure is read from what its fields have written. -/
theorem conveys_writes (distinct : shape.names.Nodup) {members : Members} {final : α}
    (writes : Writes shape.fields shape.start members final) :
    Conveys shape.decode (.obj members) final where
  plain := .obj members (plain_writes writes)
  back := shape.read_writes distinct writes [] (fun _ among => among) distinct
    (fun _ _ => List.not_mem_nil) fun _ among _ => Or.inr among

end Shape

def StandFor {β : Type} (name : String) (read : Decoder β) (start part : β) (own : Members) :
    Prop :=
  own = [] ∧ part = start ∨ ∃ json, own = [(name, json)] ∧ Conveys read json part

namespace Shape

variable {α β : Type} {name : String} {required : Required} {read : Decoder β}
  {put : α → β → α} {fields : List (Field α)} {value final : α} {part : β} {members : Members}

theorem writes_member {json : Json} (conveys : Conveys read json part)
    (later : Writes fields (put value part) members final) :
    Writes (field name required read put :: fields) value ((name, json) :: members) final :=
  .given conveys.plain
    ((field_read name required read put json value _).mpr ⟨part, conveys.back, rfl⟩) later

theorem writes_part {start : β} {own : Members} (stand : StandFor name read start part own)
    (blank : put value start = value) (spared : required ≠ .always)
    (later : Writes fields (put value part) members final) :
    Writes (field name required read put :: fields) value (own ++ members) final := by
  rcases stand with ⟨rfl, rfl⟩ | ⟨json, rfl, conveys⟩
  · rw [blank] at later
    exact .omitted spared later
  · exact writes_member conveys later

theorem writes_last {start : β} {own : Members} (stand : StandFor name read start part own)
    (blank : put value start = value) (spared : required ≠ .always) :
    Writes [field name required read put] value own (put value part) := by
  rw [← List.append_nil own]
  exact writes_part stand blank spared (.done _)

end Shape

/-! ## Parts and lists of parts -/

theorem conveys_string (text : String) : Conveys Decode.string (.str text) text :=
  ⟨.str text, rfl⟩

theorem stand_for_text (name text : String) :
    StandFor name Decode.string "" text (textMember name text) := by
  unfold textMember
  split
  · exact Or.inl ⟨rfl, ‹_›⟩
  · exact Or.inr ⟨_, rfl, conveys_string text⟩

theorem conveys_int64 (value : Int) (signed : Word.Signed64 value) :
    Conveys Decode.int64 (.int value) value := by
  obtain ⟨low, high⟩ := signed
  refine ⟨.int value low (Int.lt_trans high (by decide)), ?_⟩
  rw [Decode.int64, Json.int, Decode.integer, if_pos ⟨low, by omega⟩]

theorem conveys_count (n : Nat) (fits : n < Word.limit64) : Conveys Decode.count (.nat n) n := by
  have low : (0 : Int) ≤ n := by omega
  have high : (n : Int) ≤ Word.limit64 - 1 := by omega
  refine ⟨.int n (by omega) (by omega), ?_⟩
  rw [Decode.count, Json.nat, Decode.integer, if_pos ⟨low, high⟩]
  rfl

theorem conveys_list {β : Type} {read : Decoder β} {write : β → Json} (values : List β)
    (each : ∀ value ∈ values, Conveys read (write value) value) :
    Conveys (Decode.list read) (.arr (values.map write)) values := by
  constructor
  · refine .arr _ fun json written => ?_
    obtain ⟨value, listed, rfl⟩ := List.mem_map.mp written
    exact (each value listed).plain
  · rw [Decode.list]
    induction values with
    | nil => rfl
    | cons value rest ih =>
      obtain ⟨here, later⟩ := List.forall_mem_cons.mp each
      rw [List.map_cons, Decode.items, here.back]
      simp only [ih later]
      rfl

end Json
end StartupLatency
