import StartupLatency.Cluster.Store
import StartupLatency.Proofs.KeptObjects
import StartupLatency.Proofs.PatchFrames
import StartupLatency.Proofs.PatchedPods
import StartupLatency.Store.Pods

/-!
What the observer's writes leave alone. Objects of a cluster have other owners as well, and hold
what no type of the observer knows. A path into an object is foreign to a write if it leads there,
and a server that merges the write keeps what lies at the end of every foreign path.
-/

namespace StartupLatency

open Json

namespace Json

theorem spares_unnamed (name : String) (rest : List String) (changes : Members)
    (unnamed : name ∉ changes.map Prod.fst) : (Json.obj changes).Spares (name :: rest) :=
  fun _ present named => absurd (named ▸ List.mem_map_of_mem present) unnamed

theorem spares_single (name : String) (rest : List String) (change : Json)
    (spared : change.Spares rest) : (Json.obj [(name, change)]).Spares (name :: rest) := by
  intro only present _
  cases List.mem_singleton.mp present
  exact spared

theorem string_map_spares (map : SortedMap String String) (key : String) (rest : List String)
    (absent : map.find? key = none) : (ofStringMap map).Spares (key :: rest) := by
  rw [string_map_texts]
  refine spares_unnamed key rest _ fun present => ?_
  obtain ⟨member, listed, rfl⟩ := List.mem_map.mp present
  obtain ⟨entry, held, rfl⟩ := List.mem_map.mp listed
  rw [SortedMap.find?_of_mem held] at absent
  cases absent

-- A member that a patch gives a value is patched, or else put there.
theorem member_patched (name : String) (target : Json) (changes : Members) (change : Json)
    (distinct : (changes.map Prod.fst).Nodup) (given : lastIn name changes = some change)
    (whole : change.isNull = false) :
    (target.patchedBy (.obj changes)).member? name =
      some (((target.member? name).getD .null).patchedBy change) := by
  rw [patchedBy, member_obj, last_patched _ _ _ distinct, given, member_members_of]
  simp only [patchedMember, whole, Bool.false_eq_true, if_false]

end Json

namespace Cluster

/-- Paths into the object of a pod that have nothing to do with these annotations. -/
inductive PodObject.Foreign (annotations : Annotations) : List String → Prop
  | beside {name : String} (rest : List String) (other : name ≠ "metadata") :
      Foreign annotations (name :: rest)
  | inMetadata {name : String} (rest : List String) (other : name ≠ "annotations") :
      Foreign annotations ("metadata" :: name :: rest)
  | annotation {key : String} (rest : List String) (absent : annotations.find? key = none) :
      Foreign annotations ("metadata" :: "annotations" :: key :: rest)

theorem PodObject.foreign_spared (annotations : Annotations) (path : List String)
    (foreign : Foreign annotations path) : (annotationChange annotations).Spares path := by
  cases foreign with
  | beside rest other => exact spares_unnamed _ _ _ (by simpa using other)
  | inMetadata rest other =>
    exact spares_single _ _ _ (spares_unnamed _ _ _ (by simpa using other))
  | annotation rest absent =>
    exact spares_single _ _ _ (spares_single _ _ _ (string_map_spares _ _ _ absent))

namespace RecordObject

def specParts : List (String × List String) :=
  [("podRef", PodRef.shape.names), ("timestamps", Timestamps.shape.names),
    ("metrics", Latencies.shape.names)]

/-- Paths into the object of a record that lead to other owners' metadata or to members that no
record has. -/
inductive Foreign (record : Record) : List String → Prop
  | beside {name : String} (rest : List String) (metadata : name ≠ "metadata")
      (spec : name ≠ "spec") : Foreign record (name :: rest)
  | inMetadata {name : String} (rest : List String) (version : name ≠ "resourceVersion")
      (labels : name ≠ "labels") : Foreign record ("metadata" :: name :: rest)
  | label {key : String} (rest : List String) (absent : record.spec.labels.find? key = none) :
      Foreign record ("metadata" :: "labels" :: key :: rest)
  | unlabelled (rest : List String) (none : record.spec.labels.isEmpty = true) :
      Foreign record ("metadata" :: "labels" :: rest)
  | inSpec {name : String} (rest : List String) (unknown : name ∉ RecordSpec.shape.names) :
      Foreign record ("spec" :: name :: rest)
  | inPart {part name : String} {names : List String} (rest : List String)
      (listed : (part, names) ∈ specParts) (unknown : name ∉ names) :
      Foreign record ("spec" :: part :: name :: rest)

/-! ## Names that are written -/

theorem text_member_named (name text : String) (member : String × Json)
    (written : member ∈ textMember name text) : member.1 = name := by
  unfold textMember at written
  split at written
  · cases written
  · cases List.mem_singleton.mp written
    rfl

theorem latency_member_named (name : String) (value : Int) (member : String × Json)
    (written : member ∈ Latencies.latencyMember name value) : member.1 = name := by
  unfold Latencies.latencyMember at written
  split at written
  · cases written
  · cases List.mem_singleton.mp written
    rfl

theorem labels_member_named (labels : Labels) (member : String × Json)
    (written : member ∈ labelsMember labels) :
    member = ("labels", ofStringMap labels) ∧ labels.isEmpty = false := by
  unfold labelsMember at written
  split at written
  · cases written
  · rename_i given
    exact ⟨List.mem_singleton.mp written, by simpa using given⟩

theorem spec_member_cases (spec : RecordSpec) (member : String × Json)
    (written : member ∈ membersOf spec.toJson) :
    member = ("podRef", spec.podRef.toJson) ∨ member = ("timestamps", spec.timestamps.toJson) ∨
      member = ("metrics", spec.latencies.toJson) ∨
      member = ("labels", ofStringMap spec.labels) := by
  rcases List.mem_append.mp written with part | labels
  · simpa [or_assoc] using Or.inl part
  · exact .inr (.inr (.inr (labels_member_named spec.labels member labels).1))

theorem pod_ref_named (ref : PodRef) (member : String × Json)
    (written : member ∈ membersOf ref.toJson) : member.1 ∈ PodRef.shape.names := by
  rcases List.mem_append.mp written with fixed | node
  · simp only [List.mem_cons, List.not_mem_nil, or_false] at fixed
    rcases fixed with rfl | rfl | rfl <;> simp [Shape.names, PodRef.shape]
  · rw [text_member_named _ _ member node]
    decide

theorem timestamps_named (stamps : Timestamps) (member : String × Json)
    (written : member ∈ membersOf stamps.toJson) : member.1 ∈ Timestamps.shape.names := by
  rcases List.mem_append.mp written with early | ready
  · rcases List.mem_append.mp early with fixed | start
    · cases List.mem_singleton.mp fixed
      simp [Shape.names, Timestamps.shape]
    · rw [text_member_named _ _ member start]
      decide
  · rw [text_member_named _ _ member ready]
    decide

theorem latencies_named (latencies : Latencies) (member : String × Json)
    (written : member ∈ membersOf latencies.toJson) : member.1 ∈ Latencies.shape.names := by
  rcases List.mem_append.mp written with start | ready
  · rw [latency_member_named _ _ member start]
    decide
  · rw [latency_member_named _ _ member ready]
    decide

theorem spec_unnamed (spec : RecordSpec) (name : String)
    (unknown : name ∉ RecordSpec.shape.names) : name ∉ (membersOf spec.toJson).map Prod.fst := by
  intro present
  obtain ⟨member, written, rfl⟩ := List.mem_map.mp present
  refine unknown ?_
  rcases spec_member_cases spec member written with rfl | rfl | rfl | rfl <;>
    simp [Shape.names, RecordSpec.shape]

theorem part_spared (spec : RecordSpec) (part name : String) (names rest : List String)
    (listed : (part, names) ∈ specParts) (unknown : name ∉ names) :
    spec.toJson.Spares (part :: name :: rest) := by
  have beneath (json : Json) (members : Members) (form : json = .obj members)
      (named : ∀ member ∈ members, member.1 ∈ names) : json.Spares (name :: rest) := by
    subst form
    refine spares_unnamed name rest members fun present => ?_
    obtain ⟨member, written, rfl⟩ := List.mem_map.mp present
    exact unknown (named member written)
  simp only [specParts, List.mem_cons, Prod.mk.injEq, List.not_mem_nil, or_false] at listed
  intro member written called
  rcases spec_member_cases spec member written with rfl | rfl | rfl | rfl <;>
    rcases listed with ⟨rfl, rfl⟩ | ⟨rfl, rfl⟩ | ⟨rfl, rfl⟩
  case inl.inl => exact beneath _ _ rfl (pod_ref_named spec.podRef)
  case inr.inl.inr.inl => exact beneath _ _ rfl (timestamps_named spec.timestamps)
  case inr.inr.inl.inr.inr => exact beneath _ _ rfl (latencies_named spec.latencies)
  all_goals exact absurd called (by simp)

/-! ## The patch of a record -/

theorem metadata_spared (record : Record) (version : String) (rest : List String)
    (spared : (Json.obj ([("resourceVersion", .str version)] ++
      labelsMember record.spec.labels)).Spares rest) :
    (patchOf record version).Spares ("metadata" :: rest) := by
  intro member written called
  simp only [List.mem_cons, List.not_mem_nil, or_false] at written
  rcases written with rfl | rfl
  · exact spared
  · exact absurd called (by simp)

theorem spec_spared (record : Record) (version : String) (rest : List String)
    (spared : record.spec.toJson.Spares rest) :
    (patchOf record version).Spares ("spec" :: rest) := by
  intro member written called
  simp only [List.mem_cons, List.not_mem_nil, or_false] at written
  rcases written with rfl | rfl
  · exact absurd called (by simp)
  · exact spared

theorem foreign_spared (record : Record) (version : String) (path : List String)
    (foreign : Foreign record path) : (patchOf record version).Spares path := by
  cases foreign with
  | beside rest metadata spec => exact spares_unnamed _ _ _ (by simp [metadata, spec])
  | inMetadata rest versioned labels =>
    refine metadata_spared record version _ fun member written called => ?_
    rcases List.mem_append.mp written with own | labelled
    · cases List.mem_singleton.mp own
      exact absurd called.symm versioned
    · rw [(labels_member_named _ member labelled).1] at called
      exact absurd called.symm labels
  | label rest absent =>
    refine metadata_spared record version _ fun member written called => ?_
    rcases List.mem_append.mp written with own | labelled
    · cases List.mem_singleton.mp own
      exact absurd called (by simp)
    · rw [(labels_member_named _ member labelled).1]
      exact string_map_spares _ _ rest absent
  | unlabelled rest none =>
    refine metadata_spared record version _ fun member written called => ?_
    rcases List.mem_append.mp written with own | labelled
    · cases List.mem_singleton.mp own
      exact absurd called (by simp)
    · rw [(labels_member_named _ member labelled).2] at none
      cases none
  | inSpec rest unknown =>
    exact spec_spared record version _ (spares_unnamed _ _ _ (spec_unnamed record.spec _ unknown))
  | inPart rest listed unknown =>
    exact spec_spared record version _ (part_spared record.spec _ _ _ rest listed unknown)

theorem metadata_patched (record : Record) (version : String) (object : Json) :
    (object.patchedBy (patchOf record version)).member? "metadata" =
      some (((object.member? "metadata").getD .null).patchedBy
        (.obj ([("resourceVersion", .str version)] ++ labelsMember record.spec.labels))) :=
  member_patched "metadata" object _ _ (by simp) rfl rfl

theorem metadata_distinct (labels : Labels) (version : Json) :
    (([("resourceVersion", version)] ++ labelsMember labels).map Prod.fst).Nodup := by
  unfold labelsMember
  split <;> simp

theorem version_patched (record : Record) (version : String) (object : Json) :
    (object.patchedBy (patchOf record version)).at? ["metadata", "resourceVersion"] =
      some (.str version) := by
  have given : lastIn "resourceVersion"
      ([("resourceVersion", Json.str version)] ++ labelsMember record.spec.labels) =
        some (.str version) := by
    unfold labelsMember
    split <;> rfl
  rw [at?, metadata_patched, Option.bind_some, at?,
    member_patched _ _ _ _ (metadata_distinct _ _) given rfl, Option.bind_some]
  rfl

theorem label_patched (record : Record) (version : String) (object : Json) (name text : String)
    (labelled : record.spec.labels.find? name = some text) :
    (object.patchedBy (patchOf record version)).at? ["metadata", "labels", name] =
      some (.str text) := by
  have given : lastIn "labels"
      ([("resourceVersion", Json.str version)] ++ labelsMember record.spec.labels) =
        some (ofStringMap record.spec.labels) := by
    unfold labelsMember
    split
    · rename_i empty
      rw [(SortedMap.isEmpty_iff _).mp empty name] at labelled
      cases labelled
    · rfl
  have ascending : Ascending (texts record.spec.labels.entries) :=
    (ascending_texts _).mpr record.spec.labels.ascending
  have text_given : lastIn name (texts record.spec.labels.entries) = some (.str text) := by
    rw [last_ascending _ _ ascending, lookup_texts]
    exact congrArg (Option.map Json.str) labelled
  rw [at?, metadata_patched, Option.bind_some, at?,
    member_patched _ _ _ _ (metadata_distinct _ _) given rfl, Option.bind_some, at?,
    string_map_texts, member_patched _ _ _ _ (ascending_distinct _ ascending) text_given rfl,
    Option.bind_some]
  rfl

end RecordObject

/-! ## What is sent and what becomes of it -/

def Link.keeping (answer : Request → Answer) : Link (List Request) :=
  fun request sent => (answer request, sent ++ [request])

theorem patch_pod_world {σ : Type} (link : Link σ) (key : ObjectName) (annotations : Annotations)
    (world : σ) :
    (link.patchPod key annotations world).2 =
      (link.call (Pod.title key) podOf
        (Request.patch .pods key (annotationChange annotations)) world).2 := by
  unfold Link.patchPod
  generalize link.call (Pod.title key) podOf _ world = called
  rfl

theorem record_call_world {σ : Type} (link : Link σ) (key : ObjectName)
    (request : Except UriFault Request) (world : σ) :
    (link.recordCall key request world).2 =
      (link.call (Record.title key) RecordObject.Parts.decode request world).2 := by
  unfold Link.recordCall
  generalize link.call (Record.title key) RecordObject.Parts.decode request world = called
  rfl

theorem patch_sent {α : Type} (answer : Request → Answer) (what : String) (decode : Decoder α)
    (resource : Resource) (key : ObjectName) (change : Json) (request : Request)
    (sent : request ∈
      (Link.call (.keeping answer) what decode (Request.patch resource key change) []).2) :
    request.method = .patch ∧ request.body? = some change := by
  unfold Link.call Request.patch Request.make at sent
  cases target : Uri.ofText (withQuery (resource.objectPath key) []) with
  | error fault =>
    rw [target] at sent
    cases sent
  | ok uri =>
    rw [target] at sent
    cases List.mem_singleton.mp sent
    exact ⟨rfl, rfl⟩

theorem change_sent (answer : Request → Answer) (record : Record) (version : String)
    (versioned : record.version = some version) (request : Request)
    (sent : request ∈ (Link.updateRecord (.keeping answer) record []).2) :
    request.method = .patch ∧ request.body? = some (RecordObject.patchOf record version) := by
  rw [Link.updateRecord, RecordObject.change_versioned record version versioned] at sent
  dsimp only at sent
  rw [record_call_world] at sent
  exact patch_sent answer _ _ _ _ _ request sent

theorem store_patched (store : PodStore) (pod : Pod) (annotations : Annotations)
    (held : store.pods.find? pod.key = some pod) :
    (store.patch pod.key annotations).1 = .ok () ∧
      (store.patch pod.key annotations).2.pods.find? pod.key =
        some { pod with annotations := pod.annotations.override annotations } := by
  simp [PodStore.patch, held]

/-- What the observer writes changes nothing that is foreign to the write. The pod of an object
into which annotations are merged is the same with these annotations put in, as a store in memory
has it, and the patch of a record that has a version can always be made. -/
theorem writes_keep_foreign (answer : Request → Answer) (key : ObjectName)
    (annotations : Annotations) (record : Record) (version : String)
    (versioned : record.version = some version) :
    (∀ request ∈ (Link.patchPod (.keeping answer) key annotations []).2,
        request.method = .patch ∧ request.body? = some (annotationChange annotations)) ∧
      (∀ (object : Json) path, PodObject.Foreign annotations path →
        (object.patchedBy (annotationChange annotations)).at? path = object.at? path) ∧
      (∀ object pod, podOf object = .ok pod →
        ∃ next, podOf (object.patchedBy (annotationChange annotations)) = .ok next ∧
          next = { pod with annotations := next.annotations } ∧
          (∀ name, next.annotations.find? name =
            (annotations.find? name).or (pod.annotations.find? name)) ∧
          ∀ store : PodStore, store.pods.find? pod.key = some pod →
            (store.patch pod.key annotations).1 = .ok () ∧
              (store.patch pod.key annotations).2.pods.find? pod.key = some next) ∧
      ∃ patch, RecordObject.change record = .ok patch ∧
        (∀ request ∈ (Link.updateRecord (.keeping answer) record []).2,
          request.method = .patch ∧ request.body? = some patch) ∧
        ∀ object : Json,
          (∀ path, RecordObject.Foreign record path →
            (object.patchedBy patch).at? path = object.at? path) ∧
          (object.patchedBy patch).at? ["metadata", "resourceVersion"] = some (.str version) ∧
          ∀ name text, record.spec.labels.find? name = some text →
            (object.patchedBy patch).at? ["metadata", "labels", name] = some (.str text) := by
  refine ⟨fun request sent => ?_, fun object path foreign => ?_,
    fun object pod decoded => ?_, RecordObject.patchOf record version,
    RecordObject.change_versioned record version versioned,
    change_sent answer record version versioned, fun object => ⟨fun path foreign => ?_,
      RecordObject.version_patched record version object,
      RecordObject.label_patched record version object⟩⟩
  · rw [patch_pod_world] at sent
    exact patch_sent answer _ _ _ key _ request sent
  · exact at_patched path object _ (PodObject.foreign_spared annotations path foreign)
  · exact ⟨_, pod_patched object pod annotations decoded, rfl,
      SortedMap.find?_override pod.annotations annotations,
      fun store held => store_patched store pod annotations held⟩
  · exact at_patched path object _ (RecordObject.foreign_spared record version path foreign)

-- A pod that others have put a finalizer, an annotation and an unknown member into.
def sharedPodObject : Json :=
  .obj [("metadata", .obj [("name", .str "web"), ("namespace", .str "perf"),
      ("annotations", .obj [("team", .str "storage"), (startKey, .str "soon")]),
      ("finalizers", .arr [.str "storage/guard"])]),
    ("spec", .obj [("nodeName", .str "node-a"), ("added", .obj [("kept", .null)])])]

def startStamp : Annotations := .ofList [(startKey, "1970-01-01T00:00:02Z")]

def labelledRecord : Record :=
  ⟨"perf", "dpresult-uid-a", some "42", ⟨⟨"perf", "web", "uid-a", "node-a"⟩,
    ⟨"1970-01-01T00:00:00Z", "", ""⟩, ⟨0, 0⟩, .ofList [("app", "sut")]⟩⟩

theorem shared_pod_keeps_foreign :
    (Link.patchPod (.keeping fun _ => .failed "") ⟨"perf", "web"⟩ startStamp []).2.length = 1 ∧
      (∃ next, podOf (sharedPodObject.patchedBy (annotationChange startStamp)) = .ok next ∧
        next.annotations.find? "team" = some "storage" ∧
        next.annotations.find? startKey = some "1970-01-01T00:00:02Z" ∧
        ∃ pod, podOf sharedPodObject = .ok pod ∧
          ((PodStore.ofPods [pod]).patch pod.key startStamp).2.pods.find? pod.key = some next) ∧
      (sharedPodObject.patchedBy (annotationChange startStamp)).at? ["metadata", "finalizers"] =
        some (.arr [.str "storage/guard"]) ∧
      ∃ patch, RecordObject.change labelledRecord = .ok patch ∧
        (sharedPodObject.patchedBy patch).at? ["metadata", "finalizers"] =
          some (.arr [.str "storage/guard"]) ∧
        (sharedPodObject.patchedBy patch).at? ["spec", "added", "kept"] = some .null := by
  obtain ⟨_, foreign, annotated, patch, made, _, merged⟩ :=
    writes_keep_foreign (fun _ => .failed "") ⟨"perf", "web"⟩ startStamp labelledRecord "42" rfl
  obtain ⟨pod, read⟩ : ∃ pod, podOf sharedPodObject = .ok pod := ⟨_, rfl⟩
  obtain ⟨next, decoded, _, found, stored⟩ := annotated sharedPodObject pod read
  have held : (PodStore.ofPods [pod]).pods.find? pod.key = some pod := by
    simp [PodStore.ofPods, PodStore.upsert]
  have team : pod.annotations.find? "team" = some "storage" := by
    cases read
    decide +kernel
  refine ⟨by decide +kernel, ⟨next, decoded, ?_, ?_, pod, read, (stored _ held).2⟩, ?_, patch,
    made, ?_, ?_⟩
  · rw [found, team]
    decide +kernel
  · have stamped : startStamp.find? startKey = some "1970-01-01T00:00:02Z" := by decide +kernel
    rw [found, stamped, Option.some_or]
  · rw [foreign _ _ (.inMetadata [] (by decide))]
    rfl
  · rw [(merged sharedPodObject).1 _ (.inMetadata [] (by decide) (by decide))]
    rfl
  · rw [(merged sharedPodObject).1 _ (.inSpec ["kept"] (by decide))]
    rfl

end Cluster
end StartupLatency
