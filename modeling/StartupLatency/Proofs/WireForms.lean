import StartupLatency.Aggregate.Data
import StartupLatency.Proofs.KeptObjects
import StartupLatency.Proofs.StructureWriting

/-!
Records and summaries in transit. What is left out of their texts is what a reader starts with, so
that every part of a record or of a summary is read back from its JSON text, and a record is read
back from the object that it is kept in.
-/

namespace StartupLatency

open Json Json.Shape

/-! ## The parts of a record -/

theorem PodRef.conveyed (ref : PodRef) : Conveys PodRef.shape.decode ref.toJson ref := by
  apply PodRef.shape.conveys_writes (by decide)
  apply writes_member (conveys_string _)
  apply writes_member (conveys_string _)
  apply writes_member (conveys_string _)
  exact writes_last (stand_for_text _ ref.node) rfl (by decide)

theorem Timestamps.conveyed (stamps : Timestamps) :
    Conveys Timestamps.shape.decode stamps.toJson stamps := by
  apply Timestamps.shape.conveys_writes (by decide)
  apply writes_member (conveys_string _)
  apply writes_part (stand_for_text _ stamps.start) rfl (by decide)
  exact writes_last (stand_for_text _ stamps.ready) rfl (by decide)

namespace Latencies

theorem stand_for_latency (name : String) (value : Int) (signed : Word.Signed64 value) :
    StandFor name Decode.int64 0 value (latencyMember name value) := by
  unfold latencyMember
  split
  · exact Or.inl ⟨rfl, ‹_›⟩
  · exact Or.inr ⟨_, rfl, conveys_int64 value signed⟩

theorem conveyed (latencies : Latencies) (start : Word.Signed64 latencies.start)
    (ready : Word.Signed64 latencies.ready) :
    Conveys shape.decode latencies.toJson latencies := by
  apply shape.conveys_writes (by decide)
  apply writes_part (stand_for_latency _ _ start) rfl (by decide)
  exact writes_last (stand_for_latency _ _ ready) rfl (by decide)

end Latencies

namespace RecordSpec

theorem conveys_texts (map : SortedMap String String) :
    Conveys (Decode.map Decode.string) (ofStringMap map) map := by
  refine ⟨.obj _ fun member written => ?_, map_read map⟩
  obtain ⟨entry, _, rfl⟩ := List.mem_map.mp written
  exact .str entry.2

theorem stand_for_labels (labels : Labels) :
    StandFor "labels" (Decode.map Decode.string) ∅ labels (labelsMember labels) := by
  unfold labelsMember
  split
  · rename_i blank
    exact Or.inl ⟨rfl, SortedMap.eq_empty_of_isEmpty blank⟩
  · exact Or.inr ⟨_, rfl, conveys_texts labels⟩

structure InRange (spec : RecordSpec) : Prop where
  start : Word.Signed64 spec.latencies.start
  ready : Word.Signed64 spec.latencies.ready

theorem conveyed (spec : RecordSpec) (range : spec.InRange) :
    Conveys decode spec.toJson spec := by
  apply shape.conveys_writes (by decide)
  apply writes_member spec.podRef.conveyed
  apply writes_member spec.timestamps.conveyed
  apply writes_member (spec.latencies.conveyed range.start range.ready)
  exact writes_last (stand_for_labels spec.labels) rfl (by decide)

theorem fits_of_range (spec : RecordSpec) (range : spec.InRange) : spec.Fits := by
  intro metric
  cases metric with
  | timeToStart => exact (conveys_int64 _ range.start).back
  | timeToReady => exact (conveys_int64 _ range.ready).back

end RecordSpec

theorem Record.conveyed (record : Record) (range : record.spec.InRange) :
    Conveys Record.decode record.toJson record := by
  apply Record.shape.conveys_writes (by decide)
  apply writes_member (conveys_string _)
  apply writes_member (conveys_string _)
  refine writes_part (?_ : StandFor "resource_version" (Decode.optional Decode.string) none
    record.version _) rfl (by decide) ?_
  · cases record.version with
    | none => exact Or.inl ⟨rfl, rfl⟩
    | some text => exact Or.inr ⟨_, rfl, .str text, rfl⟩
  · exact writes_member (record.spec.conveyed range) (.done record)

/-! ## The parts of a summary -/

theorem SlowPod.conveyed (pod : SlowPod) (signed : Word.Signed64 pod.value) :
    Conveys SlowPod.shape.decode pod.toJson pod := by
  simp only [SlowPod.toJson, List.append_assoc, List.cons_append, List.nil_append]
  apply SlowPod.shape.conveys_writes (by decide)
  apply writes_member (conveys_string _)
  apply writes_member (conveys_string _)
  apply writes_member (conveys_string _)
  apply writes_part (stand_for_text _ pod.node) rfl (by decide)
  apply writes_part (stand_for_text _ pod.created) rfl (by decide)
  apply writes_part (stand_for_text _ pod.measured) rfl (by decide)
  exact writes_member (conveys_int64 pod.value signed) (.done pod)

theorem UnmeasuredPod.conveyed (pod : UnmeasuredPod) :
    Conveys UnmeasuredPod.shape.decode pod.toJson pod := by
  apply UnmeasuredPod.shape.conveys_writes (by decide)
  apply writes_member (conveys_string _)
  apply writes_member (conveys_string _)
  apply writes_member (conveys_string _)
  exact writes_last (stand_for_text _ pod.node) rfl (by decide)

namespace LatencySummary

structure InRange (summary : LatencySummary) : Prop where
  count : summary.count < Word.limit64
  successful : summary.successful < Word.limit64
  failed : summary.failed < Word.limit64
  p50 : Word.Signed64 summary.p50
  p90 : Word.Signed64 summary.p90
  p99 : Word.Signed64 summary.p99
  worstPods : ∀ pod ∈ summary.worstPods, Word.Signed64 pod.value

theorem conveyed (summary : LatencySummary) (range : summary.InRange) :
    Conveys decode summary.toJson summary := by
  apply shape.conveys_writes (by decide)
  apply writes_member (conveys_string _)
  apply writes_member (conveys_string _)
  apply writes_member (conveys_count _ range.count)
  apply writes_member (conveys_count _ range.successful)
  apply writes_member (conveys_count _ range.failed)
  apply writes_member (conveys_int64 _ range.p50)
  apply writes_member (conveys_int64 _ range.p90)
  apply writes_member (conveys_int64 _ range.p99)
  apply writes_member (conveys_list _ fun pod listed =>
    pod.conveyed (range.worstPods pod listed))
  apply writes_member (conveys_list _ fun pod _ => pod.conveyed)
  exact .done summary

end LatencySummary

/-! ## What is left out -/

/-- Members of a record that are there exactly when there is something to tell. -/
structure Record.LeavesOut (record : Record) : Prop where
  version : record.toJson.member? "resource_version" = none ↔ record.version = none
  labels : record.spec.toJson.member? "labels" = none ↔ record.spec.labels = ∅
  node : record.spec.podRef.toJson.member? "nodeName" = none ↔ record.spec.podRef.node = ""
  start : record.spec.timestamps.toJson.member? "startTs" = none ↔
    record.spec.timestamps.start = ""
  ready : record.spec.timestamps.toJson.member? "dpReadyTs" = none ↔
    record.spec.timestamps.ready = ""
  startLatency : record.spec.latencies.toJson.member? "latStartMs" = none ↔
    record.spec.latencies.start = 0
  readyLatency : record.spec.latencies.toJson.member? "latDpReadyMs" = none ↔
    record.spec.latencies.ready = 0

structure LatencySummary.LeavesOut (summary : LatencySummary) : Prop where
  slow : ∀ pod ∈ summary.worstPods,
    (pod.toJson.member? "nodeName" = none ↔ pod.node = "") ∧
      (pod.toJson.member? "createdAt" = none ↔ pod.created = "") ∧
      (pod.toJson.member? "measuredTs" = none ↔ pod.measured = "")
  unmeasured : ∀ pod ∈ summary.failedPods,
    (pod.toJson.member? "nodeName" = none ↔ pod.node = "")

theorem Record.leaves_out (record : Record) : record.LeavesOut := by
  have labels : lastIn "labels" (RecordSpec.labelsMember record.spec.labels) = none ↔
      record.spec.labels = ∅ := by
    unfold RecordSpec.labelsMember
    split
    · rename_i blank
      exact ⟨fun _ => SortedMap.eq_empty_of_isEmpty blank, fun _ => rfl⟩
    · rename_i some_label
      constructor
      · intro absent
        cases absent
      · intro blank
        rw [blank] at some_label
        exact absurd rfl some_label
  constructor
  · rw [toJson, member_obj]
    cases record.version <;> simp [lastIn]
  · rw [RecordSpec.toJson, member_obj, last_append, ← labels]
    simp [lastIn]
  · rw [PodRef.toJson, member_obj, last_append, last_text_member]
    simp [lastIn]
  · rw [Timestamps.toJson, member_obj, last_append, last_append, last_text_member,
      last_text_member]
    simp [lastIn]
  · rw [Timestamps.toJson, member_obj, last_append, last_append, last_text_member,
      last_text_member]
    simp [lastIn]
  · rw [Latencies.toJson, member_obj, last_append, last_latency_member, last_latency_member]
    simp
  · rw [Latencies.toJson, member_obj, last_append, last_latency_member, last_latency_member]
    simp

theorem LatencySummary.leaves_out (summary : LatencySummary) : summary.LeavesOut := by
  constructor
  · intro pod _
    simp only [SlowPod.toJson, member_obj, last_append, last_text_member]
    simp [lastIn]
  · intro pod _
    rw [UnmeasuredPod.toJson, member_obj, last_append, last_text_member]
    simp [lastIn]

/-- Records and summaries of 64-bit numbers come back from their texts, and a record from the
object it is kept in, although what is blank is left out. -/
theorem forms_come_back :
    (∀ record : Record, record.spec.InRange →
      Cluster.RecordObject.record? (Cluster.RecordObject.ofRecord record) = some record ∧
        readText Record.decode record.toJson.compactText = some record ∧
        readText RecordSpec.decode record.spec.toJson.compactText = some record.spec ∧
        record.LeavesOut) ∧
      ∀ summary : LatencySummary, summary.InRange →
        readText LatencySummary.decode summary.toJson.compactText = some summary ∧
          summary.LeavesOut := by
  constructor
  · intro record range
    have fits := record.spec.fits_of_range range
    exact ⟨Cluster.RecordObject.holds_record (Cluster.RecordObject.holds_written record fits),
      (record.conveyed range).read_text, (record.spec.conveyed range).read_text,
      record.leaves_out⟩
  · intro summary range
    exact ⟨(summary.conveyed range).read_text, summary.leaves_out⟩

-- The least and the largest latency, texts to be escaped and parts to be left out.
def edgeRecord : Record :=
  ⟨"a\"\\/", "", none, ⟨"", "\n\x01", "é\x7f", ""⟩, ⟨"", "2026-01-01T00:00:00Z", ""⟩,
    ⟨-9223372036854775808, 9223372036854775807⟩, .ofList [("", "\t"), ("app", "")]⟩

def edgeSummary : LatencySummary :=
  ⟨"", "ms", 18446744073709551615, 0, 1, -9223372036854775808, 0, 9223372036854775807,
    [⟨"", "a", "", "", "\r", "", -1⟩], [⟨"", "", "u", "𝄞"⟩]⟩

theorem edge_forms_come_back :
    (Cluster.RecordObject.record? (Cluster.RecordObject.ofRecord edgeRecord) = some edgeRecord ∧
      readText Record.decode edgeRecord.toJson.compactText = some edgeRecord ∧
      readText RecordSpec.decode edgeRecord.spec.toJson.compactText = some edgeRecord.spec ∧
      edgeRecord.LeavesOut) ∧
      readText LatencySummary.decode edgeSummary.toJson.compactText = some edgeSummary ∧
        edgeSummary.LeavesOut := by
  have record : edgeRecord.spec.InRange := ⟨by decide, by decide⟩
  have summary : edgeSummary.InRange :=
    ⟨by decide, by decide, by decide, by decide, by decide, by decide, by decide⟩
  exact ⟨forms_come_back.1 edgeRecord record, forms_come_back.2 edgeSummary summary⟩

end StartupLatency
