import StartupLatency.Proofs.KeptObjects
import StartupLatency.Proofs.PassMoves
import StartupLatency.Proofs.SelectorText
import StartupLatency.Proofs.ServerRequests

/-!
Records behind a server beside the same records in memory. As long as both have made the same
writes, every call gets the same answer from both, but for the texts of versions, and leaves them
with the same writes again.
-/

namespace StartupLatency

def Record.revised (tell : String → String) (record : Record) : Record :=
  { record with version := record.version.map tell }

namespace Cluster

/-- The version that a write has on the server, by the one that it has in memory. -/
def VersionSource.counterpart (source : VersionSource) (version : String) : String :=
  ((Text.Decimal.readFrom 0 version.toList).map source.text).getD version

theorem VersionSource.counterpart_text (source : VersionSource) (n : Nat) :
    source.counterpart (Text.Decimal.text n) = source.text n := by
  rw [counterpart, Text.Decimal.text, String.toList_ofList, Text.Decimal.read_write]
  rfl

open RecordObject ObjectServer

/-! ## What a store makes of answers -/

section Answers

variable {α : Type} (decode : Json.Decoder α) (what : String)

theorem not_found_read :
    (notFound.read decode).mapError (Fault.storeError what) = .error (.notFound what) := rfl

theorem taken_read :
    ((refusal 409 "already exists" "AlreadyExists").read decode).mapError
      (Fault.storeError what) = .error (.alreadyExists what) := rfl

theorem outrun_read :
    ((refusal 409 "object has been modified" "Conflict").read decode).mapError
      (Fault.storeError what) = .error (.conflict what) := rfl

theorem found_read (status : Nat) (object : Json) (value : α)
    (fine : Http.isError status = false) (decoded : decode object = .ok value) :
    (found status object).read decode = .ok value := by
  simp [found, Answer.read, Answer.content, fine, Body.read?, decoded]

end Answers

theorem record_read (status : Nat) (object : Json) (record : Record) (what : String)
    (fine : Http.isError status = false) (holds : Holds object record) :
    (((found status object).read Parts.decode).mapError (Fault.storeError what)).bind Parts.record =
      .ok record := by
  obtain ⟨parts, decoded, read⟩ := holds_read holds
  rw [found_read Parts.decode status object parts fine decoded]
  exact read

theorem record_call (key : ObjectName) (request : Except UriFault Request)
    (server after : ObjectServer) (read : Except StoreError Parts)
    (called : Link.call answer (Record.title key) Parts.decode request server = (read, after)) :
    Link.recordCall answer key request server = (read.bind Parts.record, after) := by
  rw [Link.recordCall, called]

/-! ## The same writes on both sides -/

/-- The server keeps an object for every record in memory, and none besides. -/
structure Mirrors (source : VersionSource) (store : RecordStore) (server : ObjectServer) :
    Prop where
  resource : server.resource = .records
  versions : server.versions = source
  writes : server.writes = store.version
  absent : ∀ key, store.records.find? key = none → server.objects.find? key = none
  present : ∀ key record, store.records.find? key = some record →
    ∃ object, server.objects.find? key = some object ∧
      Holds object (record.revised source.counterpart)

theorem mirrors_empty (source : VersionSource) :
    Mirrors source .empty (.empty .records source) :=
  ⟨rfl, rfl, rfl, fun _ _ => rfl, fun _ _ found => by cases found⟩

variable {source : VersionSource} {store : RecordStore} {server : ObjectServer}

/-- A write on both sides, of an object that holds the record in whatever version. -/
theorem write_mirrored (mirrors : Mirrors source store server) (record : Record)
    (before : Option String) (object : Json) (status : Nat) (what : String)
    (fine : Http.isError status = false)
    (holds : Holds object { record with version := before }) :
    (((server.write status record.key object).1.read Parts.decode).mapError
        (Fault.storeError what)).bind Parts.record =
      .ok ((store.commit record).1.revised source.counterpart) ∧
    Mirrors source (store.commit record).2 (server.write status record.key object).2 := by
  have version : (store.commit record).1.revised source.counterpart =
      { record with version := some (source.text (store.version + 1)) } := by
    simp [Record.revised, RecordStore.commit, RecordStore.nextVersion, source.counterpart_text]
  have kept := holds_versioned (server.versions.text (server.writes + 1)) holds
  rw [mirrors.versions, mirrors.writes] at kept
  have written : server.write status record.key object =
      (found status (object.patchedBy (.obj [("metadata", .obj [("resourceVersion",
        .str (source.text (store.version + 1)))])])),
        { server with
          objects := server.objects.insert record.key (object.patchedBy (.obj [("metadata",
            .obj [("resourceVersion", .str (source.text (store.version + 1)))])]))
          writes := server.writes + 1 }) := by
    rw [write, mirrors.versions, mirrors.writes]
  rw [written, version]
  refine ⟨record_read status _ _ what fine kept, mirrors.resource, mirrors.versions,
    congrArg (· + 1) mirrors.writes, fun key missing => ?_, fun key stored found => ?_⟩
  · rw [RecordStore.find_commit] at missing
    split at missing
    · cases missing
    · rename_i elsewhere
      simpa [elsewhere] using mirrors.absent key missing
  · rw [RecordStore.find_commit] at found
    split at found
    · rename_i here
      cases found
      rw [version]
      exact ⟨_, by simp [here], kept⟩
    · rename_i elsewhere
      simpa [elsewhere] using mirrors.present key stored found

theorem get_mirrored (mirrors : Mirrors source store server) (key : ObjectName)
    (sendable : Sendable key) :
    Link.getRecord answer key server =
      ((store.get key).map (Record.revised source.counterpart), server) := by
  rw [Link.getRecord, Link.recordCall, call_get server mirrors.resource _ _ key sendable]
  unfold RecordStore.get
  cases stored : store.records.find? key with
  | none =>
    rw [mirrors.absent key stored, Option.map_none, Option.getD_none, not_found_read]
    rfl
  | some record =>
    obtain ⟨object, kept, holds⟩ := mirrors.present key record stored
    rw [kept]
    exact congrArg (·, server) (record_read 200 object _ _ rfl holds)

theorem create_mirrored (mirrors : Mirrors source store server) (record : Record)
    (sendable : Sendable record.key) (fits : record.spec.Fits) :
    ∃ after, Link.createRecord answer record server =
        ((store.create record).1.map (Record.revised source.counterpart), after) ∧
      Mirrors source (store.create record).2 after := by
  have holds : Holds (ofRecord { record with version := none }) { record with version := none } :=
    holds_written { record with version := none } fits
  have name : (metadata (ofRecord { record with version := none })).name? = some record.name := by
    rw [holds_metadata holds]
    rfl
  have called : Link.createRecord answer record server = _ := record_call _ _ _ _ _
    (call_create server mirrors.resource _ _ record.key sendable _)
  rw [called, create]
  simp only [name, Option.getD_some, SortedMap.contains]
  unfold RecordStore.create
  cases stored : store.records.find? record.key with
  | some current =>
    obtain ⟨object, kept, _⟩ := mirrors.present record.key current stored
    refine ⟨server, ?_, mirrors⟩
    change server.objects.find? ⟨record.key.ns, record.name⟩ = some object at kept
    rw [kept, Option.isSome_some, if_pos rfl, taken_read]
    rfl
  | none =>
    have missing := mirrors.absent record.key stored
    change server.objects.find? ⟨record.key.ns, record.name⟩ = none at missing
    rw [missing]
    obtain ⟨read, after⟩ :=
      write_mirrored mirrors record none _ 201 (Record.title record.key) rfl holds
    exact ⟨_, congrArg (·, _) read, after⟩

/-- An update goes through on both sides or on neither, and what it stores is the same, as long as
it was made of the record that it meets. -/
theorem update_mirrored (mirrors : Mirrors source store server) (record : Record)
    (sendable : Sendable record.key) (sound : store.Sound) (drew : store.Drew record.version)
    (tied : ∀ current, store.records.find? record.key = some current →
      current.version = record.version → current.spec.Derived ∧
        ∃ seen, record.spec = current.spec.apply seen .firstWriteWins) :
    ∃ after, Link.updateRecord answer (record.revised source.counterpart) server =
        ((store.update record).1.map (Record.revised source.counterpart), after) ∧
      Mirrors source (store.update record).2 after := by
  obtain ⟨n, _, versioned⟩ := drew
  have told : (record.revised source.counterpart).version = some (source.text n) := by
    simp [Record.revised, versioned, source.counterpart_text]
  let patch := patchOf (record.revised source.counterpart) (source.text n)
  have called : Link.updateRecord answer (record.revised source.counterpart) server =
      ((((server.change record.key patch).1.read Parts.decode).mapError
        (Fault.storeError (Record.title record.key))).bind Parts.record,
        (server.change record.key patch).2) := by
    rw [Link.updateRecord, change_versioned _ _ told]
    exact record_call _ _ _ _ _ (call_patch server mirrors.resource _ _ record.key sendable _)
  rw [called, ObjectServer.change]
  unfold RecordStore.update
  cases stored : store.records.find? record.key with
  | none =>
    rw [mirrors.absent record.key stored]
    dsimp only
    rw [not_found_read]
    exact ⟨server, rfl, mirrors⟩
  | some current =>
    obtain ⟨object, kept, holds⟩ := mirrors.present record.key current stored
    obtain ⟨m, _, drawn⟩ := sound.drawn record.key current stored
    have held : (metadata object).version? = some (source.text m) := by
      rw [holds_metadata holds]
      simp [metaOf, Record.revised, drawn, source.counterpart_text]
    simp only [kept, patch, patch_version, held, Option.all_some, Option.some.injEq,
      decide_eq_true_eq]
    -- Versions are equal on both sides or on neither, as both are told by the number of the write.
    by_cases same : m = n
    · subst same
      have met : current.version = record.version := drawn.trans versioned.symm
      obtain ⟨derived, seen, taken⟩ := tied current stored met
      have named := sound.filed record.key current stored
      have changed := holds_changed (record.revised source.counterpart) (source.text m) seen holds
        derived (congrArg ObjectName.ns named).symm (congrArg ObjectName.name named).symm
        (by simp [Record.revised, drawn, source.counterpart_text]) told taken
      obtain ⟨read, after⟩ :=
        write_mirrored mirrors record _ _ 200 (Record.title record.key) rfl changed
      rw [if_pos rfl, if_pos met]
      exact ⟨_, congrArg (·, _) read, after⟩
    · have differs : source.text m ≠ source.text n := fun equal => same (source.fresh m n equal)
      have conflict : current.version ≠ record.version := by
        rw [drawn, versioned]
        intro equal
        exact same (Text.Decimal.text_injective m n (Option.some.inj equal))
      rw [if_neg differs, if_neg conflict, outrun_read]
      exact ⟨server, rfl, mirrors⟩

end Cluster
end StartupLatency
