import StartupLatency.Proofs.ElapsedTime
import StartupLatency.Proofs.Intake
import StartupLatency.Proofs.RecordChange

/-!
Records that take in an observation behind a merge patch. Texts are never taken back, so the patch
says all of them that matter; a latency may go back to zero, which the patch does not say.
-/

namespace StartupLatency

open Json

/-- A latency is a number of 64 bits. -/
theorem Observation.latency_fits (created : Instant) (raw : String) :
    Decode.int64 (.int (Observation.latency created raw)) =
      .ok (Observation.latency created raw) := by
  have fits : Word.Signed64 (Observation.latency created raw) := by
    cases read : Instant.parse? raw with
    | none =>
      rw [latency_of_none created raw read]
      decide
    | some t =>
      rw [latency_of_some created t raw read]
      exact t.millis_fits created
  have bounds : -(Word.half64 : Int) ≤ Observation.latency created raw ∧
      Observation.latency created raw ≤ Word.half64 - 1 :=
    ⟨fits.1, Int.le_sub_one_of_lt fits.2⟩
  simp only [Decode.int64, Decode.integer, Json.int, bounds, and_self, if_true]

namespace RecordSpec

def Fits (spec : RecordSpec) : Prop :=
  ∀ metric : LatencyMetric, Decode.int64 (.int (metric.value spec)) = .ok (metric.value spec)

theorem latencies_fit (json : Json) (latencies : Latencies)
    (decoded : Latencies.shape.decode json = .ok latencies) :
    Decode.int64 (.int latencies.start) = .ok latencies.start ∧
      Decode.int64 (.int latencies.ready) = .ok latencies.ready := by
  refine Latencies.shape.decode_keeps (fun latencies =>
    Decode.int64 (.int latencies.start) = .ok latencies.start ∧
      Decode.int64 (.int latencies.ready) = .ok latencies.ready)
    ?_ json latencies ⟨rfl, rfl⟩ decoded
  intro field member form value next kept put
  simp only [Latencies.shape, List.mem_cons, List.not_mem_nil, or_false] at member
  rcases member with rfl | rfl
  · obtain ⟨part, read, rfl⟩ := (field_read _ _ _ _ _ _ _).mp put
    rw [int64_read form part read] at read
    exact ⟨read, kept.2⟩
  · obtain ⟨part, read, rfl⟩ := (field_read _ _ _ _ _ _ _).mp put
    rw [int64_read form part read] at read
    exact ⟨kept.1, read⟩

theorem decoded_fits (json : Json) (spec : RecordSpec)
    (decoded : RecordSpec.decode json = .ok spec) : spec.Fits := by
  refine RecordSpec.shape.decode_keeps Fits ?_ json spec (fun metric => ?_) decoded
  · intro field member form value next kept put
    simp only [RecordSpec.shape, List.mem_cons, List.not_mem_nil, or_false] at member
    rcases member with rfl | rfl | rfl | rfl
    · obtain ⟨part, _, rfl⟩ := (field_read _ _ _ _ _ _ _).mp put
      exact kept
    · obtain ⟨part, _, rfl⟩ := (field_read _ _ _ _ _ _ _).mp put
      exact kept
    · obtain ⟨part, read, rfl⟩ := (field_read _ _ _ _ _ _ _).mp put
      obtain ⟨start, ready⟩ := latencies_fit form part read
      intro metric
      cases metric with
      | timeToStart => exact start
      | timeToReady => exact ready
    · obtain ⟨part, _, rfl⟩ := (field_read _ _ _ _ _ _ _).mp put
      exact kept
  · cases metric <;> rfl

theorem apply_fits (spec : RecordSpec) (seen : Observation) (policy : Policy) (fits : spec.Fits) :
    (spec.apply seen policy).Fits := by
  intro metric
  rw [value_apply]
  split
  · exact Observation.latency_fits _ _
  · exact fits metric

/-- Latencies as they are written: each is zero, or derived from a timestamp that is set. -/
def Derived (spec : RecordSpec) : Prop :=
  ∀ metric : LatencyMetric, metric.value spec = 0 ∨
    metric.timestamp spec ≠ "" ∧
      ∃ created, metric.value spec = Observation.latency created (metric.timestamp spec)

/-- An observation takes a latency back: it overwrites the timestamp with a text that has none. -/
def TakesBack (spec : RecordSpec) (seen : Observation) (policy : Policy) (metric : LatencyMetric) :
    Prop :=
  policy = .overwriteOnChange ∧ metric.value spec ≠ 0 ∧ seen.text metric ≠ "" ∧
    seen.text metric ≠ metric.timestamp spec ∧
    Observation.latency seen.created (seen.text metric) = 0

theorem takes_back_iff (spec : RecordSpec) (seen : Observation) (policy : Policy)
    (metric : LatencyMetric) (derived : spec.Derived) :
    spec.TakesBack seen policy metric ↔
      metric.value (spec.apply seen policy) = 0 ∧ metric.value spec ≠ 0 := by
  rw [value_apply]
  constructor
  · rintro ⟨rfl, set, offered, differs, none⟩
    have written : spec.writesStamp seen .overwriteOnChange metric = true := by
      simp [writesStamp, Policy.writes, offered, Ne.symm differs]
    exact ⟨by rw [if_pos written, none], set⟩
  · rintro ⟨gone, set⟩
    split at gone
    · rename_i written
      have stamped := ((derived metric).resolve_left set).1
      cases policy with
      | firstWriteWins => simp [writesStamp, Policy.writes, stamped] at written
      | overwriteOnChange =>
        simp only [writesStamp, Policy.writes, Bool.and_eq_true, bne_iff_ne] at written
        exact ⟨rfl, set, written.1, Ne.symm written.2, gone⟩
    · exact absurd gone set

-- The specification has its latencies as members of an object, which a patch goes into.
def NamesLatencies (form : Json) : Prop := (part "metrics" form).members?.isSome

instance (form : Json) : Decidable (NamesLatencies form) :=
  inferInstanceAs (Decidable ((part "metrics" form).members?.isSome = true))

/-- Behind a merge patch, a record takes in an observation exactly, unless a latency is taken back
that is a member of an object; all but the latencies is exact at any rate. -/
theorem intake_merged (form : Json) (spec : RecordSpec) (seen : Observation) (policy : Policy)
    (decoded : RecordSpec.decode form.canonical = .ok spec) (derived : spec.Derived) :
    ∃ merged,
      RecordSpec.decode (form.patchedBy (spec.apply seen policy).toJson).canonical = .ok merged ∧
      merged.podRef = (spec.apply seen policy).podRef ∧
      merged.timestamps = (spec.apply seen policy).timestamps ∧
      merged.labels = (spec.apply seen policy).labels ∧
      (merged = spec.apply seen policy ↔
        ¬ (NamesLatencies form ∧ ∃ metric, spec.TakesBack seen policy metric)) := by
  have keeps := keeps_apply spec seen policy
  have fits := apply_fits spec seen policy (decoded_fits _ spec decoded)
  have back := fun metric => takes_back_iff spec seen policy metric derived
  have node : spec.podRef.node ≠ "" → (spec.apply seen policy).podRef.node ≠ "" :=
    fun set => keeps.node set ▸ set
  have stamp (metric : LatencyMetric) (set : metric.timestamp spec ≠ "") :
      metric.timestamp (spec.apply seen policy) ≠ "" := by
    have kept := keeps.stamp metric set
    cases policy with
    | firstWriteWins => exact kept.1 ▸ set
    | overwriteOnChange => exact kept
  -- From here on it counts only that texts stay set and labels are the same.
  generalize spec.apply seen policy = new at *
  refine ⟨_, decode_merged form spec new decoded keeps.labels fits, ?_, ?_, rfl, ?_⟩
  · exact PodRef.overlaid_under _ _ _ node
  · exact Timestamps.overlaid_under _ _ _ (stamp .timeToStart) (stamp .timeToReady)
  · rw [PodRef.overlaid_under _ _ _ node,
      Timestamps.overlaid_under _ _ _ (stamp .timeToStart) (stamp .timeToReady)]
    have latencies :=
      Latencies.overlaid_under_iff (part "metrics" form) spec.latencies new.latencies
    have some_metric : (∃ metric, spec.TakesBack seen policy metric) ↔
        new.latencies.start = 0 ∧ spec.latencies.start ≠ 0 ∨
          new.latencies.ready = 0 ∧ spec.latencies.ready ≠ 0 := by
      constructor
      · rintro ⟨metric, taken⟩
        cases metric with
        | timeToStart => exact Or.inl ((back .timeToStart).mp taken)
        | timeToReady => exact Or.inr ((back .timeToReady).mp taken)
      · rintro (start | ready)
        · exact ⟨.timeToStart, (back .timeToStart).mpr start⟩
        · exact ⟨.timeToReady, (back .timeToReady).mpr ready⟩
    rw [NamesLatencies, some_metric, ← latencies]
    exact ⟨fun same => congrArg RecordSpec.latencies same, fun same => by rw [same]⟩

end RecordSpec
end StartupLatency
