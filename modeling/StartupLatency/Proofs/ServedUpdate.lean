import StartupLatency.Cluster.Record
import StartupLatency.Json.MergePatch
import StartupLatency.Proofs.MergedIntake

/-!
The update of a record by way of an API server, which merges the change into the object that it
keeps. The object can be read afterwards, and the record is what the update was to make of it unless
a latency was taken back.
-/

namespace StartupLatency.Cluster

open Json

def Accepts {α : Type} (field : Json.Field α) (json : Json) : Prop :=
  ∀ value, ∃ next, field.read json value = .ok next

def Steady {α : Type} (field : Json.Field α) : Prop :=
  ∀ json value next, field.read json value = .ok next → Accepts field json

theorem member_accepts {α β : Type} (name : String) (read : Decoder β) (put : α → Option β → α)
    (json : Json) (part : Option β) (done : Decode.optional read json = .ok part) :
    Accepts (member name read put) json :=
  fun value => ⟨put value part, by simp only [member, done]; rfl⟩

theorem member_reads {α β : Type} (name : String) (read : Decoder β) (put : α → Option β → α)
    (json : Json) (value next : α) (done : (member name read put).read json value = .ok next) :
    ∃ part, Decode.optional read json = .ok part := by
  simp only [member] at done
  cases read : Decode.optional read json with
  | ok part => exact ⟨part, rfl⟩
  | error fault =>
    rw [read] at done
    cases done

theorem member_steady {α β : Type} (name : String) (read : Decoder β) (put : α → Option β → α) :
    Steady (member name read put) := by
  intro json value next done
  obtain ⟨part, read⟩ := member_reads name _ put json value next done
  exact member_accepts name _ put json part read

theorem read_members_iff {α : Type} (fields : List (Json.Field α))
    (steady : ∀ field ∈ fields, Steady field) (members : Members) (value : α) :
    (∃ final, readMembers fields value members = .ok final) ↔
      ∀ member ∈ members, ∀ field,
        (fields.find? fun field => field.name == member.1) = some field →
          Accepts field member.2 := by
  induction members generalizing value with
  | nil => simp [readMembers]
  | cons member rest ih =>
    obtain ⟨name, json⟩ := member
    rw [readMembers, List.forall_mem_cons]
    cases found : fields.find? fun field => field.name == name with
    | none => simpa [found] using ih value
    | some field =>
      cases read : field.read json value with
      | ok next =>
        have accepts := steady field (List.mem_of_find?_eq_some found) _ _ _ read
        simpa [found, accepts, read] using ih next
      | error fault =>
        simp only [read, reduceCtorEq, exists_false, false_iff, not_and]
        intro accepts
        obtain ⟨next, done⟩ := accepts field rfl value
        rw [read] at done
        cases done

namespace ObjectMeta

theorem checked_steady {α : Type} (type : MemberType) (names : List String) :
    ∀ field ∈ checked (α := α) type names, Steady field := by
  intro field listed
  obtain ⟨name, _, rfl⟩ := List.mem_map.mp listed
  exact member_steady name type.check fun value _ => value

theorem fields_steady : ∀ field ∈ fields, Steady field := by
  unfold fields
  simp only [List.forall_mem_append, List.forall_mem_cons, List.not_mem_nil, false_implies,
    implies_true, member_steady, and_self]
  refine ⟨⟨⟨⟨⟨⟨trivial, ?_⟩, ?_⟩, ?_⟩, ?_⟩, ?_⟩, ?_⟩ <;> exact checked_steady _ _

-- What is merged into texts are texts.
theorem labels_readable (found : Option Json) (labels : Labels)
    (given : ∀ json, found = some json →
      ∃ part, Decode.optional (Decode.map Decode.string) json = .ok part) :
    ∃ part, Decode.optional (Decode.map Decode.string)
      ((found.getD .null).patchedBy (Json.ofStringMap labels)) = .ok part := by
  have old : ∀ member ∈ membersOf (found.getD .null), ∃ text, member.2 = .str text := by
    intro member present
    cases found with
    | none => cases present
    | some json =>
      obtain ⟨part, read⟩ := given json rfl
      cases json with
      | obj members =>
        cases entries : Decode.entries Decode.string ∅ members with
        | ok map =>
          obtain ⟨pairs, rfl⟩ := read_texts members ∅ map entries
          obtain ⟨pair, _, rfl⟩ := List.mem_map.mp present
          exact ⟨pair.2, rfl⟩
        | error fault =>
          simp only [Decode.optional, Decode.map, entries, Except.map] at read
          cases read
      | _ => cases present
  have ascending : Ascending (texts labels.entries) := (ascending_texts _).mpr labels.ascending
  have all : ∀ member ∈ membersPatchedBy (membersOf (found.getD .null)) (texts labels.entries),
      ∃ text, member.2 = .str text := by
    intro member present
    rcases mem_patched _ _ member (ascending_distinct _ ascending) present with
      former | ⟨change, put, rfl⟩
    · exact old member former
    · obtain ⟨pair, _, rfl⟩ := List.mem_map.mp put
      exact ⟨pair.2, rfl⟩
  obtain ⟨map, read⟩ := texts_read _ ∅ all
  refine ⟨some map, ?_⟩
  rw [string_map_texts, patchedBy]
  simp only [Decode.optional, Decode.map, read, Except.map]

/-- Metadata that can be read can be read with a version and with labels put in. -/
theorem decode_patched (json : Json) (former : ObjectMeta) (version : String) (labels : Labels)
    (decoded : decode json = .ok former) :
    ∃ next, decode (json.patchedBy (.obj ([("resourceVersion", .str version)] ++
      RecordObject.labelsMember labels))) = .ok next := by
  cases json with
  | obj members =>
    have accepted := (read_members_iff fields fields_steady members default).mp ⟨former, decoded⟩
    refine (read_members_iff fields fields_steady _ default).mpr ?_
    intro member present field found
    have distinct : (([("resourceVersion", Json.str version)] ++
        RecordObject.labelsMember labels).map Prod.fst).Nodup := by
      unfold RecordObject.labelsMember
      split <;> simp
    rcases mem_patched members _ member distinct present with old | ⟨change, put, rfl⟩
    · exact accepted member old field found
    · rcases List.mem_append.mp put with versioned | labelled
      · cases List.mem_singleton.mp versioned
        cases found
        exact member_accepts "resourceVersion" _ _ _ (some version) rfl
      · unfold RecordObject.labelsMember at labelled
        split at labelled
        · cases labelled
        · cases List.mem_singleton.mp labelled
          cases found
          have former (json : Json) (given : lastIn "labels" members = some json) :
              ∃ part, Decode.optional (Decode.map Decode.string) json = .ok part := by
            obtain ⟨next, done⟩ := accepted _ (last_mem _ _ _ given) _ rfl default
            exact member_reads "labels" _ _ json default next done
          obtain ⟨part, read⟩ := labels_readable (lastIn "labels" members) labels former
          exact member_accepts "labels" _ _ _ part read
  | _ => cases decoded

end ObjectMeta

namespace RecordObject

def MetadataIs (seen : Bool) (start : ObjectMeta) : Members → ObjectMeta → Prop
  | [], objectMeta => objectMeta = start
  | member :: rest, objectMeta =>
    seen = false ∧ ∃ first, ObjectMeta.decode member.2 = .ok first ∧
      MetadataIs true first rest objectMeta

theorem of_members_iff (members : Members) (parts result : Parts) (seen : Bool) :
    Parts.ofMembers parts seen members = .ok result ↔
      (∀ member ∈ members, member.1 ≠ "metadata" → member.2.isReadable = true) ∧
      result.rest = parts.rest ++ dropMember "metadata" members ∧
      MetadataIs seen parts.objectMeta (onlyMember "metadata" members) result.objectMeta := by
  induction members generalizing parts seen with
  | nil =>
    obtain ⟨objectMeta, rest⟩ := result
    obtain ⟨start, before⟩ := parts
    simp only [Parts.ofMembers, dropMember, onlyMember, MetadataIs, List.filter_nil,
      List.append_nil, List.not_mem_nil, false_implies, implies_true, true_and, Except.ok.injEq,
      Parts.mk.injEq]
    rw [eq_comm (a := start), eq_comm (a := before)]
    exact and_comm
  | cons member rest ih =>
    obtain ⟨name, json⟩ := member
    rw [Parts.ofMembers]
    by_cases here : name = "metadata"
    · subst here
      have only : onlyMember "metadata" (("metadata", json) :: rest) =
          ("metadata", json) :: onlyMember "metadata" rest := by simp [onlyMember]
      have dropped : dropMember "metadata" (("metadata", json) :: rest) =
          dropMember "metadata" rest := by simp [dropMember]
      rw [if_pos rfl, only, dropped, MetadataIs, List.forall_mem_cons]
      -- Metadata that come again are refused whatever they are.
      cases seen with
      | true => simp
      | false =>
        cases read : ObjectMeta.decode json with
        | error fault => simp
        | ok objectMeta => simp [ih]
    · have only : onlyMember "metadata" ((name, json) :: rest) = onlyMember "metadata" rest := by
        simp [onlyMember, here]
      have dropped : dropMember "metadata" ((name, json) :: rest) =
          (name, json) :: dropMember "metadata" rest := by simp [dropMember, here]
      rw [if_neg here, only, dropped, List.forall_mem_cons]
      cases readable : json.isReadable with
      | true => simp [ih]
      | false => simp [here]

-- An object with a version has its metadata, and has them once.
theorem metadata_once (members : Members) (objectMeta : ObjectMeta) (version : String)
    (given : MetadataIs false default (onlyMember "metadata" members) objectMeta)
    (versioned : objectMeta.version? = some version) :
    ∃ json, lastIn "metadata" members = some json ∧ ObjectMeta.decode json = .ok objectMeta := by
  cases only : onlyMember "metadata" members with
  | nil =>
    rw [only] at given
    cases given
    cases versioned
  | cons member more =>
    rw [only] at given
    obtain ⟨_, first, read, single⟩ := given
    cases more with
    | nil =>
      cases single
      have named : member ∈ onlyMember "metadata" members := only ▸ List.mem_cons_self
      have name : member.1 = "metadata" := by simpa using (List.mem_filter.mp named).2
      refine ⟨member.2, ?_, read⟩
      rw [← last_only, only]
      simp [lastIn, name]
    | cons second others => cases single.1

def specForm (object : Json) : Json := (object.member? "spec").getD .null

theorem spec_form_rest (object : Json) (parts : Parts) (decoded : Parts.decode object = .ok parts) :
    specForm (.obj parts.rest) = specForm object := by
  cases object with
  | obj members =>
    have rest := ((of_members_iff members default parts false).mp decoded).2.1
    rw [specForm, specForm, member_obj, member_obj, rest]
    exact congrArg (·.getD Json.null)
      ((last_drop "spec" "metadata" members).trans (if_neg (by decide)))
  | _ => cases decoded

/-- An object that can be read can be read after a change, which its specification has taken in. -/
theorem decode_changed (object : Json) (parts : Parts) (version : String) (labels : Labels)
    (spec : RecordSpec) (decoded : Parts.decode object = .ok parts)
    (versioned : parts.objectMeta.version? = some version)
    (clear : spec.toJson.isReadable = true) :
    ∃ stored, Parts.decode (object.patchedBy (.obj
        [("metadata", .obj ([("resourceVersion", .str version)] ++ labelsMember labels)),
          ("spec", spec.toJson)])) = .ok stored ∧
      specForm (.obj stored.rest) = (specForm object).patchedBy spec.toJson := by
  cases object with
  | obj members =>
    obtain ⟨readable, rest, given⟩ := (of_members_iff members default parts false).mp decoded
    obtain ⟨json, present, read⟩ := metadata_once members parts.objectMeta version given versioned
    obtain ⟨next, readNext⟩ := ObjectMeta.decode_patched json parts.objectMeta version labels read
    rw [patchedBy, membersOf, members?, Option.getD_some,
      patched_by_two members "metadata" "spec" _ spec.toJson (by decide) rfl rfl, present,
      Option.getD_some]
    refine ⟨⟨next, dropMember "metadata" _⟩, (of_members_iff _ default _ false).mpr
      ⟨fun member listed other => ?_, rfl, ?_⟩, ?_⟩
    -- Every part can still be read: it was there, or it is the patched specification.
    · rcases mem_set _ _ _ member listed with changed | listed
      · rw [changed]
        refine readable_patched _ spec.toJson ?_ clear
        cases spec : lastIn "spec" members with
        | none => rfl
        | some form => exact readable _ (last_mem "spec" members form spec) (by simp)
      · rcases mem_set _ _ _ member listed with replaced | old
        · exact absurd (congrArg Prod.fst replaced) other
        · exact readable member old other
    · rw [only_set_other _ _ _ _ (by decide), only_set]
      exact ⟨rfl, next, readNext, rfl⟩
    · rw [specForm, specForm, member_obj, member_obj, last_drop, if_neg (by decide), last_set,
        if_pos rfl, Option.getD_some]
  | _ => cases decoded

theorem spec_of_record (parts : Parts) (record : Record) (held : parts.record = .ok record) :
    RecordSpec.decode (specForm (.obj parts.rest)).canonical = .ok record.spec ∧
      parts.objectMeta.version? = record.version := by
  simp only [Parts.record] at held
  split at held
  · rename_i spec decoded
    cases held
    exact ⟨decoded, rfl⟩
  · cases held

theorem record_of_spec (parts : Parts) (spec : RecordSpec)
    (decoded : RecordSpec.decode (specForm (.obj parts.rest)).canonical = .ok spec) :
    ∃ record, parts.record = .ok record ∧ record.spec = spec := by
  unfold specForm at decoded
  simp only [Parts.record, decoded]
  exact ⟨_, rfl, rfl⟩

/-- An update by way of an API server stores the record that it was given, unless an overwriting
observation takes a latency back that is a member of an object: that latency stays as it was. -/
theorem update_exact_iff (object : Json) (parts : Parts) (record : Record) (version : String)
    (seen : Observation) (policy : Policy) (decoded : Parts.decode object = .ok parts)
    (held : parts.record = .ok record) (versioned : record.version = some version)
    (derived : record.spec.Derived) :
    ∃ patch stored updated,
      change { record with spec := record.spec.apply seen policy } = .ok patch ∧
      Parts.decode (object.patchedBy patch) = .ok stored ∧ stored.record = .ok updated ∧
      updated.spec.podRef = (record.spec.apply seen policy).podRef ∧
      updated.spec.timestamps = (record.spec.apply seen policy).timestamps ∧
      updated.spec.labels = (record.spec.apply seen policy).labels ∧
      (updated.spec = record.spec.apply seen policy ↔
        ¬ (RecordSpec.NamesLatencies (specForm object) ∧
          ∃ metric, record.spec.TakesBack seen policy metric)) := by
  obtain ⟨spec, given⟩ := spec_of_record parts record held
  rw [spec_form_rest object parts decoded] at spec
  obtain ⟨merged, read, ref, stamps, labels, exact_iff⟩ :=
    RecordSpec.intake_merged (specForm object) record.spec seen policy spec derived
  obtain ⟨stored, readBack, form⟩ := decode_changed object parts version
    (record.spec.apply seen policy).labels (record.spec.apply seen policy) decoded
    (given.trans versioned) (RecordSpec.form_readable _)
  rw [← form] at read
  obtain ⟨updated, readRecord, same⟩ := record_of_spec stored merged read
  subst same
  exact ⟨_, stored, updated, by simp only [change, versioned], readBack, readRecord, ref, stamps,
    labels, exact_iff⟩

def startedRecord : Record := { Record.ofPod earlyPod .overwriteOnChange with version := some "7" }

-- A start in a form that names no instant.
def garbledStart : Observation :=
  .ofPod (.annotated [(startKey, "two seconds past midnight")])

theorem started_derived : startedRecord.spec.Derived := by
  intro metric
  cases metric with
  | timeToStart => exact Or.inr ⟨by decide, .epoch, by decide⟩
  | timeToReady => exact Or.inl (by decide)

theorem garbled_start_update :
    ∃ patch stored updated,
      change { startedRecord with
        spec := startedRecord.spec.apply garbledStart .overwriteOnChange } = .ok patch ∧
      Parts.decode ((ofRecord startedRecord).patchedBy patch) = .ok stored ∧
      stored.record = .ok updated ∧
      updated.spec.podRef =
        (startedRecord.spec.apply garbledStart .overwriteOnChange).podRef ∧
      updated.spec.timestamps =
        (startedRecord.spec.apply garbledStart .overwriteOnChange).timestamps ∧
      updated.spec.labels =
        (startedRecord.spec.apply garbledStart .overwriteOnChange).labels ∧
      (updated.spec = startedRecord.spec.apply garbledStart .overwriteOnChange ↔
        ¬ (RecordSpec.NamesLatencies (specForm (ofRecord startedRecord)) ∧
          ∃ metric, startedRecord.spec.TakesBack garbledStart .overwriteOnChange metric)) :=
  update_exact_iff (ofRecord startedRecord) _ startedRecord "7" garbledStart .overwriteOnChange rfl
    rfl rfl started_derived

/-- The server keeps the latency of the start that has been replaced. -/
theorem garbled_start_keeps_latency :
    ∃ patch stored updated,
      change { startedRecord with
        spec := startedRecord.spec.apply garbledStart .overwriteOnChange } = .ok patch ∧
      Parts.decode ((ofRecord startedRecord).patchedBy patch) = .ok stored ∧
      stored.record = .ok updated ∧
      updated.spec.timestamps.start = "two seconds past midnight" ∧
      updated.spec.latencies.start = 2000 ∧
      updated.spec ≠ startedRecord.spec.apply garbledStart .overwriteOnChange := by
  refine ⟨_, _, _, rfl, rfl, rfl, rfl, rfl, fun same => ?_⟩
  have start := congrArg (fun spec => spec.latencies.start) same
  exact absurd (show (2000 : Int) = 0 from start) (by decide)

end RecordObject
end StartupLatency.Cluster
