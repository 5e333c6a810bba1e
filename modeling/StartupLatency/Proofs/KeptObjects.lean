import StartupLatency.Cluster.ObjectServer
import StartupLatency.Proofs.ServedUpdate

/-!
The objects that a server keeps of records. All of them have one shape: a write changes the version
and the form of the specification, and in the form there may be members that no written form has.
`Holds` ties an object to the record that is read from it, whatever the form.
-/

namespace StartupLatency

/-! ## Patches that change nothing -/

namespace Json

theorem patched_by_text (target : Json) (text : String) :
    target.patchedBy (.str text) = .str text := rfl

theorem text_whole (text : String) : (Json.str text).isNull = false := rfl

theorem object_whole (members : Members) : (Json.obj members).isNull = false := rfl

theorem map_whole (map : SortedMap String String) : (ofStringMap map).isNull = false := rfl

theorem drop_absent (name : String) (members : Members) (absent : name ∉ members.map Prod.fst) :
    dropMember name members = members := by
  refine List.filter_eq_self.mpr fun member listed => ?_
  rw [bne_iff_ne]
  rintro rfl
  exact absent (List.mem_map_of_mem listed)

theorem set_same (name : String) (value : Json) (members : Members)
    (distinct : (members.map Prod.fst).Nodup) (present : (name, value) ∈ members) :
    setMember name value members = members := by
  induction members with
  | nil => cases present
  | cons member rest ih =>
    obtain ⟨once, others⟩ := List.nodup_cons.mp distinct
    rcases List.mem_cons.mp present with rfl | later
    · rw [setMember, if_pos rfl, drop_absent name rest once]
    · have elsewhere : member.1 ≠ name := fun same => once (same ▸ List.mem_map_of_mem later)
      rw [setMember, if_neg elsewhere, ih others later]

/-- A patch with texts that an object has leaves it as it is. -/
theorem patched_same (members changes : Members) (distinct : (members.map Prod.fst).Nodup)
    (within : ∀ change ∈ changes, change ∈ members ∧ ∃ text, change.2 = .str text) :
    membersPatchedBy members changes = members := by
  induction changes with
  | nil => rw [membersPatchedBy]
  | cons change rest ih =>
    obtain ⟨⟨present, text, value⟩, later⟩ := List.forall_mem_cons.mp within
    obtain ⟨name, json⟩ := change
    subst value
    rw [membersPatchedBy, if_neg (by simp [isNull])]
    change membersPatchedBy (setMember name (.str text) members) rest = members
    rw [set_same name _ members distinct present, ih later]

theorem map_patched_same (map : SortedMap String String) :
    (ofStringMap map).patchedBy (ofStringMap map) = ofStringMap map := by
  rw [string_map_texts, patchedBy]
  refine congrArg Json.obj (patched_same _ _ (ascending_distinct _ ?_) fun change listed => ?_)
  · exact (ascending_texts _).mpr map.ascending
  · obtain ⟨pair, _, rfl⟩ := List.mem_map.mp listed
    exact ⟨listed, pair.2, rfl⟩

theorem map_read (map : SortedMap String String) :
    Decode.map Decode.string (ofStringMap map) = .ok map := by
  obtain ⟨result, read, found⟩ := entries_texts map.entries ∅ map.ascending
  rw [string_map_texts, Decode.map, read]
  exact congrArg Except.ok (SortedMap.ext_find? fun name => (found name).trans Option.or_none)

end Json

/-! ## Specifications that are read back -/

section Written

open Json

theorem given_text (text : String) :
    Given Decode.string "" ((if text = "" then none else some (Json.str text)).map canonical)
      text := by
  split
  · assumption
  · rfl

theorem given_latency (value : Int) (fits : Decode.int64 (.int value) = .ok value) :
    Given Decode.int64 0 ((if value = 0 then none else some (Json.int value)).map canonical)
      value := by
  split
  · assumption
  · exact fits

theorem given_labels (labels : Labels) :
    Given (Decode.map Decode.string) ∅
      ((lastIn "labels" (RecordSpec.labelsMember labels)).map canonical) labels := by
  unfold RecordSpec.labelsMember
  split
  · rename_i empty
    exact SortedMap.eq_empty_of_isEmpty empty
  · refine (map_canonical (texts labels.entries) labels).mpr fun name => ?_
    rw [last_ascending _ _ ((ascending_texts _).mpr labels.ascending), lookup_texts,
      SortedMap.find?]

theorem PodRef.decode_written (ref : PodRef) :
    PodRef.shape.decode ref.toJson.canonical = .ok ref := by
  have node := given_text ref.node
  refine PodRef.decode_parts _ ref ?_ ?_ ?_ ?_ <;> rw [last_append, last_text_member]
  · rfl
  · rfl
  · rfl
  · simpa [lastIn] using node

theorem Timestamps.decode_written (stamps : Timestamps) :
    Timestamps.shape.decode stamps.toJson.canonical = .ok stamps := by
  have start := given_text stamps.start
  have ready := given_text stamps.ready
  refine Timestamps.decode_parts _ stamps ?_ ?_ ?_ <;>
    rw [last_append, last_append, last_text_member, last_text_member]
  · rfl
  · simpa [lastIn] using start
  · simpa [lastIn] using ready

theorem Latencies.decode_written (latencies : Latencies)
    (startFits : Decode.int64 (.int latencies.start) = .ok latencies.start)
    (readyFits : Decode.int64 (.int latencies.ready) = .ok latencies.ready) :
    Latencies.shape.decode latencies.toJson.canonical = .ok latencies := by
  have start := given_latency latencies.start startFits
  have ready := given_latency latencies.ready readyFits
  refine Latencies.decode_parts _ latencies ?_ ?_ <;>
    rw [last_append, last_latency_member, last_latency_member]
  · simpa using start
  · simpa using ready

/-- What is written of a specification is what is read of it. -/
theorem RecordSpec.decode_written (spec : RecordSpec) (fits : spec.Fits) :
    RecordSpec.decode spec.toJson.canonical = .ok spec := by
  have labels := given_labels spec.labels
  refine decode_parts _ spec _ _ _ ?_ ?_ ?_ spec.podRef.decode_written
    spec.timestamps.decode_written
    (spec.latencies.decode_written (fits .timeToStart) (fits .timeToReady)) ?_ <;>
    rw [last_append]
  · rw [last_unlabelled _ _ (by decide)]
    rfl
  · rw [last_unlabelled _ _ (by decide)]
    rfl
  · rw [last_unlabelled _ _ (by decide)]
    rfl
  · simpa [lastIn] using labels

end Written

/-! ## The shape of an object -/

namespace Cluster.RecordObject

open Json

def metadataOf (record : Record) : Members :=
  labelsMember record.spec.labels ++ [("name", .str record.name), ("namespace", .str record.ns)] ++
    versionMember record.version

def inForm (record : Record) (form : Json) : Json :=
  .obj [("apiVersion", .str Resource.records.apiVersion), ("kind", .str Resource.records.kind),
    ("metadata", .obj (metadataOf record)), ("spec", form)]

theorem of_record_form (record : Record) : ofRecord record = inForm record record.spec.toJson := rfl

theorem metadata_versioned (record : Record) (version : String) :
    membersPatchedBy (metadataOf record) [("resourceVersion", .str version)] =
      metadataOf { record with version := some version } := by
  unfold metadataOf labelsMember versionMember
  cases record.version <;> split <;>
    simp [membersPatchedBy, setMember, dropMember, text_whole, patched_by_text]

theorem form_versioned (record : Record) (form : Json) (version : String) :
    (inForm record form).patchedBy (.obj [("metadata", .obj [("resourceVersion", .str version)])]) =
      inForm { record with version := some version } form := by
  have metadata := metadata_versioned record version
  simp [inForm, patchedBy, membersOf, members?, membersPatchedBy, object_whole, member_obj, lastIn,
    setMember, dropMember] at metadata ⊢
  exact metadata

theorem metadata_changed (old new : Record) (version : String) (ns : new.ns = old.ns)
    (name : new.name = old.name) (labels : new.spec.labels = old.spec.labels)
    (before : old.version = some version) (after : new.version = some version) :
    membersPatchedBy (metadataOf old)
        ([("resourceVersion", .str version)] ++ labelsMember new.spec.labels) = metadataOf new := by
  have same := map_patched_same old.spec.labels
  unfold metadataOf
  rw [ns, name, labels, before, after]
  unfold labelsMember versionMember
  split <;>
    simp [membersPatchedBy, setMember, dropMember, member_obj, lastIn, text_whole, patched_by_text,
      map_whole, same]

def patchOf (new : Record) (version : String) : Json :=
  .obj [("metadata", .obj ([("resourceVersion", .str version)] ++ labelsMember new.spec.labels)),
    ("spec", new.spec.toJson)]

theorem change_versioned (new : Record) (version : String)
    (versioned : new.version = some version) : change new = .ok (patchOf new version) := by
  simp only [change, versioned, patchOf]

theorem form_changed (old new : Record) (form : Json) (version : String) (ns : new.ns = old.ns)
    (name : new.name = old.name) (labels : new.spec.labels = old.spec.labels)
    (before : old.version = some version) (after : new.version = some version) :
    (inForm old form).patchedBy (patchOf new version) =
      inForm new (form.patchedBy new.spec.toJson) := by
  have metadata := metadata_changed old new version ns name labels before after
  have whole : new.spec.toJson.isNull = false := rfl
  rw [inForm, patchOf, patchedBy, membersOf, members?, Option.getD_some,
    patched_by_two _ "metadata" "spec" _ _ (by decide) rfl whole]
  simp [inForm, patchedBy, membersOf, members?, lastIn, setMember, dropMember] at metadata ⊢
  exact metadata

def metaOf (record : Record) : ObjectMeta :=
  { (default : ObjectMeta) with
    name? := some record.name
    ns? := some record.ns
    version? := record.version
    labels? := if record.spec.labels.isEmpty then none else some record.spec.labels }

theorem read_known {α : Type} (fields : List (Json.Field α)) (field : Json.Field α)
    (value next : α) (name : String) (json : Json) (rest : Members)
    (found : (fields.find? fun field => field.name == name) = some field)
    (put : field.read json value = .ok next) :
    readMembers fields value ((name, json) :: rest) = readMembers fields next rest := by
  rw [readMembers, found]
  simp only [put]

theorem read_labels (former : ObjectMeta) (labels : Labels) (rest : Members) :
    readMembers ObjectMeta.fields former (labelsMember labels ++ rest) =
      readMembers ObjectMeta.fields
        (if labels.isEmpty then former else { former with labels? := some labels }) rest := by
  unfold labelsMember
  split
  · rfl
  · have read : Decode.optional (Decode.map Decode.string) (ofStringMap labels) =
        .ok (some labels) := by
      change (Decode.map Decode.string (ofStringMap labels)).map some = _
      rw [map_read]
      rfl
    refine read_known ObjectMeta.fields _ former _ "labels" _ rest rfl ?_
    simp only [member, read]
    rfl

theorem metadata_read (record : Record) :
    ObjectMeta.decode (.obj (metadataOf record)) = .ok (metaOf record) := by
  change readMembers ObjectMeta.fields default (metadataOf record) = _
  unfold metadataOf metaOf versionMember
  rw [List.append_assoc, read_labels]
  cases record.version <;> split <;> rfl

theorem patch_version (new : Record) (version : String) :
    (ObjectServer.metadata (patchOf new version)).version? = some version := by
  have read : ObjectMeta.decode (.obj ([("resourceVersion", .str version)] ++
      labelsMember new.spec.labels)) = .ok { (default : ObjectMeta) with
        version? := some version
        labels? := (metaOf new).labels? } := by
    change readMembers ObjectMeta.fields default
      (("resourceVersion", .str version) :: labelsMember new.spec.labels) = _
    rw [read_known ObjectMeta.fields _ default
      { (default : ObjectMeta) with version? := some version } "resourceVersion" _ _ rfl rfl,
      ← List.append_nil (labelsMember _), read_labels]
    unfold metaOf
    split <;> rfl
  have present : (patchOf new version).member? "metadata" =
      some (.obj ([("resourceVersion", .str version)] ++ labelsMember new.spec.labels)) := rfl
  rw [ObjectServer.metadata, present, Option.map_some, read]

theorem decode_form (record : Record) (form : Json) (readable : form.isReadable = true) :
    Parts.decode (inForm record form) = .ok ⟨metaOf record,
      [("apiVersion", .str Resource.records.apiVersion), ("kind", .str Resource.records.kind),
        ("spec", form)]⟩ := by
  rw [inForm, Parts.decode, of_members_iff]
  refine ⟨?_, rfl, rfl, metaOf record, metadata_read record, rfl⟩
  intro member listed other
  simp only [List.mem_cons, List.not_mem_nil, or_false] at listed
  rcases listed with rfl | rfl | rfl | rfl
  · rfl
  · rfl
  · exact absurd rfl other
  · exact readable

def Holds (object : Json) (record : Record) : Prop :=
  ∃ form, object = inForm record form ∧ form.isReadable = true ∧
    RecordSpec.decode form.canonical = .ok record.spec

variable {object : Json} {record : Record}

theorem holds_written (record : Record) (fits : record.spec.Fits) :
    Holds (ofRecord record) record :=
  ⟨record.spec.toJson, of_record_form record, record.spec.form_readable, record.spec.decode_written fits⟩

theorem holds_versioned (version : String) (holds : Holds object record) :
    Holds (object.patchedBy (.obj [("metadata", .obj [("resourceVersion", .str version)])]))
      { record with version := some version } := by
  obtain ⟨form, rfl, readable, decoded⟩ := holds
  exact ⟨form, form_versioned record form version, readable, decoded⟩

/-- An object takes in a change of its record exactly, where the first write wins. -/
theorem holds_changed (new : Record) (version : String) (seen : Observation)
    (holds : Holds object record) (derived : record.spec.Derived) (ns : new.ns = record.ns)
    (name : new.name = record.name) (before : record.version = some version)
    (after : new.version = some version)
    (taken : new.spec = record.spec.apply seen .firstWriteWins) :
    Holds (object.patchedBy (patchOf new version)) new := by
  obtain ⟨form, rfl, readable, decoded⟩ := holds
  obtain ⟨_, _, _, _, labels⟩ := RecordSpec.identity_apply record.spec seen .firstWriteWins
  obtain ⟨merged, read, _, _, _, exact_iff⟩ :=
    RecordSpec.intake_merged form record.spec seen .firstWriteWins decoded derived
  have same : merged = record.spec.apply seen .firstWriteWins := by
    -- The one case in which a merge is not exact needs the other policy.
    refine exact_iff.mpr ?_
    rintro ⟨_, metric, overwrites, _⟩
    cases overwrites
  rw [same, ← taken] at read
  have patched := form_changed record new form version ns name
    ((congrArg RecordSpec.labels taken).trans labels) before after
  exact ⟨_, patched, readable_patched form _ readable new.spec.form_readable, read⟩

theorem holds_read (holds : Holds object record) :
    ∃ parts, Parts.decode object = .ok parts ∧ parts.record = .ok record := by
  obtain ⟨form, rfl, readable, decoded⟩ := holds
  refine ⟨_, decode_form record form readable, ?_⟩
  have given : RecordSpec.decode (specForm (.obj [("apiVersion", .str Resource.records.apiVersion),
      ("kind", .str Resource.records.kind), ("spec", form)])).canonical = .ok record.spec := decoded
  unfold specForm at given
  simp only [Parts.record, given]
  rfl

theorem holds_metadata (holds : Holds object record) :
    ObjectServer.metadata object = metaOf record := by
  obtain ⟨form, rfl, _, _⟩ := holds
  have read := metadata_read record
  simp [ObjectServer.metadata, inForm, member_obj, lastIn, read]

theorem labels_of_metadata (record : Record) :
    (metaOf record).labels?.getD ∅ = record.spec.labels := by
  unfold metaOf
  dsimp only
  split
  · rename_i empty
    exact (SortedMap.eq_empty_of_isEmpty empty).symm
  · rfl

def record? (object : Json) : Option Record :=
  (Parts.decode object).toOption.bind fun parts => parts.record.toOption

theorem holds_record (holds : Holds object record) : record? object = some record := by
  obtain ⟨parts, decoded, read⟩ := holds_read holds
  rw [record?, decoded]
  simp [Except.toOption, read]

end Cluster.RecordObject
end StartupLatency
