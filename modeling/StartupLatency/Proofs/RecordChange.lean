import StartupLatency.Record.Data
import StartupLatency.Proofs.StructureReading

/-!
What a merge patch with the written form of a record leaves of the form that it meets. Members that
the written form leaves out stay as they are, so a text that is empty or a latency that is zero in
the patch lets the old value stand.
-/

namespace StartupLatency

open Json

/-! ## Fields and the parts that they are read into -/

theorem PodRef.reads_node : PodRef.shape.Reads "nodeName" Decode.string PodRef.node := by
  simp [Shape.Reads, PodRef.shape]

theorem Timestamps.reads_start :
    Timestamps.shape.Reads "startTs" Decode.string Timestamps.start := by
  simp [Shape.Reads, Timestamps.shape]

theorem Timestamps.reads_ready :
    Timestamps.shape.Reads "dpReadyTs" Decode.string Timestamps.ready := by
  simp [Shape.Reads, Timestamps.shape]

theorem Latencies.reads_start :
    Latencies.shape.Reads "latStartMs" Decode.int64 Latencies.start := by
  simp [Shape.Reads, Latencies.shape]

theorem Latencies.reads_ready :
    Latencies.shape.Reads "latDpReadyMs" Decode.int64 Latencies.ready := by
  simp [Shape.Reads, Latencies.shape]

theorem RecordSpec.reads_pod_ref :
    RecordSpec.shape.Reads "podRef" PodRef.shape.decode RecordSpec.podRef := by
  simp [Shape.Reads, RecordSpec.shape]

theorem RecordSpec.reads_timestamps :
    RecordSpec.shape.Reads "timestamps" Timestamps.shape.decode RecordSpec.timestamps := by
  simp [Shape.Reads, RecordSpec.shape]

theorem RecordSpec.reads_latencies :
    RecordSpec.shape.Reads "metrics" Latencies.shape.decode RecordSpec.latencies := by
  simp [Shape.Reads, RecordSpec.shape]

theorem RecordSpec.reads_labels :
    RecordSpec.shape.Reads "labels" (Decode.map Decode.string) RecordSpec.labels := by
  simp [Shape.Reads, RecordSpec.shape]

/-! ## Written forms -/

theorem last_text_member (wanted name text : String) :
    lastIn wanted (textMember name text) =
      if name = wanted then (if text = "" then none else some (.str text)) else none := by
  unfold textMember
  split <;> simp_all [lastIn]

theorem last_latency_member (wanted name : String) (value : Int) :
    lastIn wanted (Latencies.latencyMember name value) =
      if name = wanted then (if value = 0 then none else some (.int value)) else none := by
  unfold Latencies.latencyMember
  split <;> simp_all [lastIn]

theorem last_unlabelled (name : String) (labels : Labels) (other : name ≠ "labels") :
    lastIn name (RecordSpec.labelsMember labels) = none := by
  unfold RecordSpec.labelsMember
  split <;> simp [lastIn, Ne.symm other]

theorem text_member_readable (name text : String) :
    haveReadableValues (textMember name text) = true := by
  unfold textMember
  split <;> rfl

theorem latency_member_readable (name : String) (value : Int) :
    haveReadableValues (Latencies.latencyMember name value) = true := by
  unfold Latencies.latencyMember
  split <;> rfl

theorem texts_readable (pairs : List (String × String)) :
    haveReadableValues (texts pairs) = true := by
  rw [readable_members]
  intro member listed
  obtain ⟨pair, _, rfl⟩ := List.mem_map.mp listed
  rfl

theorem RecordSpec.form_readable (spec : RecordSpec) : spec.toJson.isReadable = true := by
  have labels : haveReadableValues (labelsMember spec.labels) = true := by
    unfold labelsMember
    split
    · rfl
    · simp [string_map_texts, haveReadableValues, isReadable, texts_readable]
  simp [toJson, PodRef.toJson, Timestamps.toJson, Latencies.toJson, isReadable,
    haveReadableValues, readable_append, text_member_readable, latency_member_readable, labels]

/-! ## Structures out of their parts -/

theorem PodRef.start_blank : PodRef.shape.start = ⟨"", "", "", ""⟩ := rfl

theorem Timestamps.start_blank : Timestamps.shape.start = ⟨"", "", ""⟩ := rfl

theorem PodRef.decode_parts (members : Members) (ref : PodRef)
    (ns : lastIn "namespace" members = some (.str ref.ns))
    (name : lastIn "name" members = some (.str ref.name))
    (uid : lastIn "uid" members = some (.str ref.uid))
    (node : Given Decode.string "" ((lastIn "nodeName" members).map canonical) ref.node) :
    PodRef.shape.decode (Json.obj members).canonical = .ok ref := by
  rw [PodRef.shape.decode_canonical ["name", "namespace", "nodeName", "uid"] members (by decide)
    (by decide), PodRef.start_blank]
  obtain ⟨_, _, _, text⟩ := ref
  rcases given_string _ _ node with ⟨absent, rfl⟩ | found
  · simp [pick_cons, pick_nil, ns, name, uid, absent, canonical, Shape.readMembers, PodRef.shape,
      field, Decode.string, Except.map]
  · simp [pick_cons, pick_nil, ns, name, uid, found, canonical, Shape.readMembers, PodRef.shape,
      field, Decode.string, Except.map]

theorem Timestamps.decode_parts (members : Members) (stamps : Timestamps)
    (created : lastIn "createdAt" members = some (.str stamps.created))
    (start : Given Decode.string "" ((lastIn "startTs" members).map canonical) stamps.start)
    (ready : Given Decode.string "" ((lastIn "dpReadyTs" members).map canonical) stamps.ready) :
    Timestamps.shape.decode (Json.obj members).canonical = .ok stamps := by
  rw [Timestamps.shape.decode_canonical ["createdAt", "dpReadyTs", "startTs"] members (by decide)
    (by decide), Timestamps.start_blank]
  obtain ⟨_, _, _⟩ := stamps
  rcases given_string _ _ start with ⟨startAt, rfl⟩ | startAt <;>
    rcases given_string _ _ ready with ⟨readyAt, rfl⟩ | readyAt <;>
    simp [pick_cons, pick_nil, created, startAt, readyAt, canonical, Shape.readMembers,
      Timestamps.shape, field, Decode.string, Except.map]

theorem Latencies.decode_parts (members : Members) (latencies : Latencies)
    (start : Given Decode.int64 0 ((lastIn "latStartMs" members).map canonical) latencies.start)
    (ready : Given Decode.int64 0 ((lastIn "latDpReadyMs" members).map canonical)
      latencies.ready) :
    Latencies.shape.decode (Json.obj members).canonical = .ok latencies := by
  rw [Latencies.shape.decode_canonical ["latDpReadyMs", "latStartMs"] members (by decide)
    (by decide)]
  obtain ⟨_, _⟩ := latencies
  rcases given_int64 _ _ start with ⟨startAt, rfl⟩ | ⟨startAt, startRead⟩ <;>
    rcases given_int64 _ _ ready with ⟨readyAt, rfl⟩ | ⟨readyAt, readyRead⟩ <;>
    simp_all [pick_cons, pick_nil, canonical, Json.int, Shape.readMembers, Latencies.shape, field,
      Except.map]

/-! ## Patched structures -/

-- The reference after a patch with another: a node that the patch leaves out stays.
def PodRef.overlaid (old new : PodRef) : PodRef :=
  { new with node := if new.node = "" then old.node else new.node }

theorem PodRef.decode_patched (target : Json) (old new : PodRef)
    (beneath : PodRef.shape.Beneath target old) :
    PodRef.shape.decode (target.patchedBy new.toJson).canonical = .ok (old.overlaid new) := by
  have given := PodRef.shape.beneath_given _ _ _ PodRef.reads_node (by decide) target old beneath
  have node := given_patched Decode.string "" old.node new.node _ (.str new.node) (fun _ => rfl) rfl
    rfl given
  have distinct : (([("namespace", Json.str new.ns), ("name", .str new.name),
      ("uid", .str new.uid)] ++ textMember "nodeName" new.node).map Prod.fst).Nodup := by
    unfold textMember
    split <;> simp
  rw [toJson, patchedBy]
  refine PodRef.decode_parts _ (old.overlaid new) ?_ ?_ ?_ ?_ <;>
    rw [last_patched _ _ _ distinct, last_append, last_text_member]
  · rfl
  · rfl
  · rfl
  · simpa [lastIn, overlaid] using node

def Timestamps.overlaid (old new : Timestamps) : Timestamps :=
  { new with
    start := if new.start = "" then old.start else new.start
    ready := if new.ready = "" then old.ready else new.ready }

theorem Timestamps.decode_patched (target : Json) (old new : Timestamps)
    (beneath : Timestamps.shape.Beneath target old) :
    Timestamps.shape.decode (target.patchedBy new.toJson).canonical = .ok (old.overlaid new) := by
  have start := given_patched Decode.string "" old.start new.start _ (.str new.start) (fun _ => rfl)
    rfl rfl (Timestamps.shape.beneath_given _ _ _ Timestamps.reads_start (by decide) target old
      beneath)
  have ready := given_patched Decode.string "" old.ready new.ready _ (.str new.ready) (fun _ => rfl)
    rfl rfl (Timestamps.shape.beneath_given _ _ _ Timestamps.reads_ready (by decide) target old
      beneath)
  have distinct : (([("createdAt", Json.str new.created)] ++ textMember "startTs" new.start ++
      textMember "dpReadyTs" new.ready).map Prod.fst).Nodup := by
    unfold textMember
    split <;> split <;> simp
  rw [toJson, patchedBy]
  refine Timestamps.decode_parts _ (old.overlaid new) ?_ ?_ ?_ <;>
    rw [last_patched _ _ _ distinct, last_append, last_append, last_text_member, last_text_member]
  · rfl
  · simpa [lastIn, overlaid] using start
  · simpa [lastIn, overlaid] using ready

def Latencies.overlaid (old new : Latencies) : Latencies :=
  { start := if new.start = 0 then old.start else new.start
    ready := if new.ready = 0 then old.ready else new.ready }

theorem Latencies.decode_patched (target : Json) (old new : Latencies)
    (beneath : Latencies.shape.Beneath target old)
    (startFits : Decode.int64 (.int new.start) = .ok new.start)
    (readyFits : Decode.int64 (.int new.ready) = .ok new.ready) :
    Latencies.shape.decode (target.patchedBy new.toJson).canonical = .ok (old.overlaid new) := by
  have start := given_patched Decode.int64 0 old.start new.start _ (.int new.start) (fun _ => rfl)
    rfl startFits (Latencies.shape.beneath_given _ _ _ Latencies.reads_start (by decide) target old
      beneath)
  have ready := given_patched Decode.int64 0 old.ready new.ready _ (.int new.ready) (fun _ => rfl)
    rfl readyFits (Latencies.shape.beneath_given _ _ _ Latencies.reads_ready (by decide) target old
      beneath)
  have distinct : ((latencyMember "latStartMs" new.start ++
      latencyMember "latDpReadyMs" new.ready).map Prod.fst).Nodup := by
    unfold latencyMember
    split <;> split <;> simp
  rw [toJson, patchedBy]
  refine Latencies.decode_parts _ (old.overlaid new) ?_ ?_ <;>
    rw [last_patched _ _ _ distinct, last_append, last_latency_member, last_latency_member]
  · simpa [overlaid] using start
  · simpa [overlaid] using ready

/-! ## Patched specifications -/

theorem RecordSpec.decode_parts (members : Members) (spec : RecordSpec)
    (ref stamps latencies : Json)
    (refAt : lastIn "podRef" members = some ref)
    (stampsAt : lastIn "timestamps" members = some stamps)
    (latenciesAt : lastIn "metrics" members = some latencies)
    (refRead : PodRef.shape.decode ref.canonical = .ok spec.podRef)
    (stampsRead : Timestamps.shape.decode stamps.canonical = .ok spec.timestamps)
    (latenciesRead : Latencies.shape.decode latencies.canonical = .ok spec.latencies)
    (labels : Given (Decode.map Decode.string) ∅ ((lastIn "labels" members).map canonical)
      spec.labels) :
    RecordSpec.decode (Json.obj members).canonical = .ok spec := by
  rw [RecordSpec.decode, RecordSpec.shape.decode_canonical
    ["labels", "metrics", "podRef", "timestamps"] members (by decide) (by decide)]
  obtain ⟨_, _, _, map⟩ := spec
  cases labelsAt : lastIn "labels" members with
  | none =>
    rw [labelsAt] at labels
    cases labels
    simp [pick_cons, pick_nil, refAt, stampsAt, latenciesAt, labelsAt, refRead, stampsRead,
      latenciesRead, Shape.readMembers, RecordSpec.shape, field, Except.map]
    rfl
  | some json =>
    rw [labelsAt] at labels
    have labelsRead : Decode.map Decode.string json.canonical = .ok map := labels
    simp [pick_cons, pick_nil, refAt, stampsAt, latenciesAt, labelsAt, refRead, stampsRead,
      latenciesRead, labelsRead, Shape.readMembers, RecordSpec.shape, field, Except.map]

def part (name : String) (target : Json) : Json := (lastIn name (membersOf target)).getD .null

-- Labels that are in a patch are those that it meets, or it meets none.
theorem labels_patched (found : Option Json) (labels : Labels)
    (given : Given (Decode.map Decode.string) ∅ (found.map canonical) labels ∨ found = none) :
    Given (Decode.map Decode.string) ∅
      ((patchedMember found (lastIn "labels" (RecordSpec.labelsMember labels))).map canonical)
      labels := by
  unfold RecordSpec.labelsMember
  split
  · rename_i empty
    rcases given with given | absent
    · exact given
    · rw [absent]
      exact SortedMap.eq_empty_of_isEmpty empty
  · refine map_patched (found.getD .null) labels fun name missing => ?_
    cases found with
    | none => rfl
    | some json =>
      rcases given with given | absent
      · cases json with
        | obj members =>
          have same := (map_canonical members labels).mp given name
          rw [missing] at same
          exact same
        | _ => rfl
      · cases absent

theorem RecordSpec.decode_patched (target : Json) (new : RecordSpec) (ref : PodRef)
    (stamps : Timestamps) (latencies : Latencies)
    (refBeneath : PodRef.shape.Beneath (part "podRef" target) ref)
    (stampsBeneath : Timestamps.shape.Beneath (part "timestamps" target) stamps)
    (latenciesBeneath : Latencies.shape.Beneath (part "metrics" target) latencies)
    (fits : ∀ metric : LatencyMetric,
      Decode.int64 (.int (metric.value new)) = .ok (metric.value new))
    (labels : Given (Decode.map Decode.string) ∅
        ((lastIn "labels" (membersOf target)).map canonical) new.labels ∨
      lastIn "labels" (membersOf target) = none) :
    RecordSpec.decode (target.patchedBy new.toJson).canonical =
      .ok ⟨ref.overlaid new.podRef, stamps.overlaid new.timestamps,
        latencies.overlaid new.latencies, new.labels⟩ := by
  have distinct : (([("podRef", new.podRef.toJson), ("timestamps", new.timestamps.toJson),
      ("metrics", new.latencies.toJson)] ++ labelsMember new.labels).map Prod.fst).Nodup := by
    unfold labelsMember
    split <;> simp
  have named (name : String) : lastIn name (membersPatchedBy (membersOf target)
      ([("podRef", new.podRef.toJson), ("timestamps", new.timestamps.toJson),
        ("metrics", new.latencies.toJson)] ++ labelsMember new.labels)) =
      patchedMember (lastIn name (membersOf target))
        ((lastIn name (labelsMember new.labels)).or (lastIn name
          [("podRef", new.podRef.toJson), ("timestamps", new.timestamps.toJson),
            ("metrics", new.latencies.toJson)])) := by
    rw [last_patched _ _ _ distinct, last_append]
  rw [toJson, patchedBy]
  refine decode_parts _ ⟨ref.overlaid new.podRef, _, _, _⟩ _ _ _ ?_ ?_ ?_
    (PodRef.decode_patched _ ref new.podRef refBeneath)
    (Timestamps.decode_patched _ stamps new.timestamps stampsBeneath)
    (Latencies.decode_patched _ latencies new.latencies latenciesBeneath (fits .timeToStart)
      (fits .timeToReady)) ?_
  · rw [named, last_unlabelled _ _ (by decide)]
    rfl
  · rw [named, last_unlabelled _ _ (by decide)]
    rfl
  · rw [named, last_unlabelled _ _ (by decide)]
    rfl
  · rw [named]
    simpa [lastIn] using labels_patched _ new.labels labels

/-- A specification of the same labels that is merged into the form of another. -/
theorem RecordSpec.decode_merged (target : Json) (old new : RecordSpec)
    (decoded : RecordSpec.decode target.canonical = .ok old) (same : new.labels = old.labels)
    (fits : ∀ metric : LatencyMetric,
      Decode.int64 (.int (metric.value new)) = .ok (metric.value new)) :
    RecordSpec.decode (target.patchedBy new.toJson).canonical =
      .ok ⟨(PodRef.shape.under (part "podRef" target) old.podRef).overlaid new.podRef,
        (Timestamps.shape.under (part "timestamps" target) old.timestamps).overlaid new.timestamps,
        (Latencies.shape.under (part "metrics" target) old.latencies).overlaid new.latencies,
        new.labels⟩ := by
  cases target with
  | obj members =>
    have ref := shape.decode_given _ _ _ reads_pod_ref (by decide) members old decoded
    have stamps := shape.decode_given _ _ _ reads_timestamps (by decide) members old decoded
    have latencies := shape.decode_given _ _ _ reads_latencies (by decide) members old decoded
    have labels := shape.decode_given _ _ _ reads_labels (by decide) members old decoded
    rw [← same] at labels
    exact decode_patched (.obj members) new _ _ _ (PodRef.shape.under_beneath _ _ _ ref)
      (Timestamps.shape.under_beneath _ _ _ stamps) (Latencies.shape.under_beneath _ _ _ latencies)
      fits (Or.inl labels)
  | _ => exact decode_patched _ new _ _ _ rfl rfl rfl fits (Or.inr rfl)

-- A text that is never taken back is left out of a patch only where there is none.
theorem text_left_out (present : Bool) (old new : String) (kept : old ≠ "" → new ≠ "") :
    (if new = "" then (if present then old else "") else new) = new := by
  by_cases empty : new = ""
  · have blank : old = "" := Decidable.byContradiction fun set => kept set empty
    simp [empty, blank]
  · exact if_neg empty

theorem PodRef.overlaid_under (target : Json) (old new : PodRef)
    (kept : old.node ≠ "" → new.node ≠ "") :
    (PodRef.shape.under target old).overlaid new = new := by
  have node := PodRef.shape.under_part PodRef.node target old
  rw [PodRef.start_blank] at node
  rw [overlaid, node, text_left_out _ _ _ kept]

theorem Timestamps.overlaid_under (target : Json) (old new : Timestamps)
    (startKept : old.start ≠ "" → new.start ≠ "") (readyKept : old.ready ≠ "" → new.ready ≠ "") :
    (Timestamps.shape.under target old).overlaid new = new := by
  have start := Timestamps.shape.under_part Timestamps.start target old
  have ready := Timestamps.shape.under_part Timestamps.ready target old
  rw [Timestamps.start_blank] at start ready
  rw [overlaid, start, ready, text_left_out _ _ _ startKept, text_left_out _ _ _ readyKept]

theorem Latencies.overlaid_under_iff (target : Json) (old new : Latencies) :
    (Latencies.shape.under target old).overlaid new = new ↔
      ¬ (target.members?.isSome = true ∧
        (new.start = 0 ∧ old.start ≠ 0 ∨ new.ready = 0 ∧ old.ready ≠ 0)) := by
  have start := Latencies.shape.under_part Latencies.start target old
  have ready := Latencies.shape.under_part Latencies.ready target old
  have blank : Latencies.shape.start = ⟨0, 0⟩ := rfl
  rw [blank] at start ready
  obtain ⟨newStart, newReady⟩ := new
  rw [overlaid, start, ready]
  cases target.members?.isSome with
  | true => simp only [if_true, Latencies.mk.injEq, true_and]; omega
  | false => simp [eq_comm]

end StartupLatency
