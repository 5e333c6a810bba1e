import StartupLatency.Observation

/-!
How the specification of a record takes in observations. The two timestamps follow one rule, so
they are spoken of together, by the metric that each of them is the source of. What an observation
never moves is `Keeps`; what it leaves behind is a record that the same observation does not change.
-/

namespace StartupLatency

def Observation.text (seen : Observation) : LatencyMetric → String
  | .timeToStart => seen.start
  | .timeToReady => seen.ready

namespace RecordSpec

def writesStamp (spec : RecordSpec) (seen : Observation) (policy : Policy)
    (metric : LatencyMetric) : Bool :=
  policy.writes (metric.timestamp spec) (seen.text metric)

@[simp] theorem writes_stamp_start (spec : RecordSpec) (seen : Observation) (policy : Policy) :
    spec.writesStamp seen policy .timeToStart = spec.writesStart seen policy := rfl

@[simp] theorem writes_stamp_ready (spec : RecordSpec) (seen : Observation) (policy : Policy) :
    spec.writesStamp seen policy .timeToReady = spec.writesReady seen policy := rfl

-- The three parts are decided on the record as it was, so each can be read off on its own.
theorem node_apply (spec : RecordSpec) (seen : Observation) (policy : Policy) :
    (spec.apply seen policy).podRef.node =
      if spec.writesNode seen then seen.node else spec.podRef.node := by
  cases node : spec.writesNode seen <;> cases start : spec.writesStart seen policy <;>
    cases ready : spec.writesReady seen policy <;>
    simp [apply, setNode, setStart, setReady, node, start, ready]

theorem timestamp_apply (spec : RecordSpec) (seen : Observation) (policy : Policy)
    (metric : LatencyMetric) :
    metric.timestamp (spec.apply seen policy) =
      if spec.writesStamp seen policy metric then seen.text metric
      else metric.timestamp spec := by
  cases metric <;> cases node : spec.writesNode seen <;>
    cases start : spec.writesStart seen policy <;> cases ready : spec.writesReady seen policy <;>
    simp [apply, setNode, setStart, setReady, node, start, ready, LatencyMetric.timestamp,
      Observation.text]

-- A latency moves exactly when its source timestamp is written.
theorem value_apply (spec : RecordSpec) (seen : Observation) (policy : Policy)
    (metric : LatencyMetric) :
    metric.value (spec.apply seen policy) =
      if spec.writesStamp seen policy metric then
        Observation.latency seen.created (seen.text metric)
      else metric.value spec := by
  cases metric <;> cases node : spec.writesNode seen <;>
    cases start : spec.writesStart seen policy <;> cases ready : spec.writesReady seen policy <;>
    simp [apply, setNode, setStart, setReady, node, start, ready, LatencyMetric.value,
      Observation.text]

theorem identity_apply (spec : RecordSpec) (seen : Observation) (policy : Policy) :
    (spec.apply seen policy).podRef.ns = spec.podRef.ns ∧
    (spec.apply seen policy).podRef.name = spec.podRef.name ∧
    (spec.apply seen policy).podRef.uid = spec.podRef.uid ∧
    (spec.apply seen policy).timestamps.created = spec.timestamps.created ∧
    (spec.apply seen policy).labels = spec.labels := by
  cases node : spec.writesNode seen <;> cases start : spec.writesStart seen policy <;>
    cases ready : spec.writesReady seen policy <;>
    simp [apply, setNode, setStart, setReady, node, start, ready]

theorem changed_by_iff (spec : RecordSpec) (seen : Observation) (policy : Policy) :
    spec.changedBy seen policy = false ↔
      spec.writesNode seen = false ∧ ∀ metric, spec.writesStamp seen policy metric = false := by
  rw [changedBy, Bool.or_eq_false_iff, Bool.or_eq_false_iff, and_assoc]
  refine and_congr_right fun _ => ⟨?_, fun none => ⟨none .timeToStart, none .timeToReady⟩⟩
  rintro ⟨start, ready⟩ metric
  cases metric with
  | timeToStart => exact start
  | timeToReady => exact ready

/-- One intake suffices: the observation that a record has just taken in is not written again. -/
theorem applied_unchanged (spec : RecordSpec) (seen : Observation) (policy : Policy) :
    (spec.apply seen policy).changedBy seen policy = false := by
  rw [changed_by_iff]
  constructor
  · rw [writesNode, node_apply]
    cases written : spec.writesNode seen with
    | true =>
      simp only [writesNode, Bool.and_eq_true, bne_iff_ne] at written
      simp [written.2]
    | false => exact written
  · intro metric
    rw [writesStamp, timestamp_apply]
    cases written : spec.writesStamp seen policy metric with
    | true => cases policy <;> simp [Policy.writes]
    | false => exact written

theorem apply_of_unchanged (spec : RecordSpec) (seen : Observation) (policy : Policy)
    (unchanged : spec.changedBy seen policy = false) : spec.apply seen policy = spec := by
  simp only [changedBy, Bool.or_eq_false_iff] at unchanged
  simp [apply, unchanged]

/-- What a timestamp that is set may become: under the first policy nothing but itself, with the
latency that was derived from it, under the second any text that is not empty. -/
def StampKept (policy : Policy) (metric : LatencyMetric) (old new : RecordSpec) : Prop :=
  metric.timestamp old ≠ "" →
    match policy with
    | .firstWriteWins =>
      metric.timestamp new = metric.timestamp old ∧ metric.value new = metric.value old
    | .overwriteOnChange => metric.timestamp new ≠ ""

structure Keeps (policy : Policy) (old new : RecordSpec) : Prop where
  ns : new.podRef.ns = old.podRef.ns
  name : new.podRef.name = old.podRef.name
  uid : new.podRef.uid = old.podRef.uid
  created : new.timestamps.created = old.timestamps.created
  labels : new.labels = old.labels
  node : old.podRef.node ≠ "" → new.podRef.node = old.podRef.node
  stamp : ∀ metric, StampKept policy metric old new

theorem keeps_refl (policy : Policy) (spec : RecordSpec) : Keeps policy spec spec := by
  refine ⟨rfl, rfl, rfl, rfl, rfl, fun _ => rfl, fun metric set => ?_⟩
  cases policy with
  | firstWriteWins => exact ⟨rfl, rfl⟩
  | overwriteOnChange => exact set

theorem stamp_kept_trans (policy : Policy) (metric : LatencyMetric) (a b c : RecordSpec)
    (first : StampKept policy metric a b) (second : StampKept policy metric b c) :
    StampKept policy metric a c := by
  intro set
  cases policy with
  | firstWriteWins =>
    obtain ⟨text, value⟩ := first set
    obtain ⟨text', value'⟩ := second (text ▸ set)
    exact ⟨text'.trans text, value'.trans value⟩
  | overwriteOnChange => exact second (first set)

theorem keeps_trans (policy : Policy) (a b c : RecordSpec) (first : Keeps policy a b)
    (second : Keeps policy b c) : Keeps policy a c where
  ns := second.ns.trans first.ns
  name := second.name.trans first.name
  uid := second.uid.trans first.uid
  created := second.created.trans first.created
  labels := second.labels.trans first.labels
  node set := by
    have same := first.node set
    exact (second.node (same ▸ set)).trans same
  stamp metric := stamp_kept_trans policy metric a b c (first.stamp metric) (second.stamp metric)

theorem stamp_kept_apply (spec : RecordSpec) (seen : Observation) (policy : Policy)
    (metric : LatencyMetric) : StampKept policy metric spec (spec.apply seen policy) := by
  intro set
  cases policy with
  | firstWriteWins =>
    have unwritten : spec.writesStamp seen .firstWriteWins metric = false := by
      simp [writesStamp, Policy.writes, set]
    exact ⟨by rw [timestamp_apply, unwritten]; rfl, by rw [value_apply, unwritten]; rfl⟩
  | overwriteOnChange =>
    change metric.timestamp (spec.apply seen .overwriteOnChange) ≠ ""
    rw [timestamp_apply]
    cases written : spec.writesStamp seen .overwriteOnChange metric with
    | true =>
      simp only [writesStamp, Policy.writes, Bool.and_eq_true, bne_iff_ne] at written
      exact written.1
    | false => exact set

theorem keeps_apply (spec : RecordSpec) (seen : Observation) (policy : Policy) :
    Keeps policy spec (spec.apply seen policy) := by
  obtain ⟨ns, name, uid, created, labels⟩ := identity_apply spec seen policy
  refine ⟨ns, name, uid, created, labels, fun set => ?_, stamp_kept_apply spec seen policy⟩
  have unwritten : spec.writesNode seen = false := by simp [writesNode, set]
  rw [node_apply, unwritten]
  rfl

/-- Where the first write wins, a record that has nothing to take from an observation has nothing
to take from it later on either, whatever else it takes in meanwhile. -/
theorem unchanged_of_keeps (old new : RecordSpec) (seen : Observation)
    (kept : Keeps .firstWriteWins old new)
    (unchanged : old.changedBy seen .firstWriteWins = false) :
    new.changedBy seen .firstWriteWins = false := by
  obtain ⟨node, stamps⟩ := (changed_by_iff old seen _).mp unchanged
  refine (changed_by_iff new seen _).mpr ⟨?_, fun metric => ?_⟩
  · by_cases blank : old.podRef.node = ""
    · have unseen : seen.node = "" := by simpa [writesNode, blank] using node
      simp [writesNode, unseen]
    · simp [writesNode, kept.node blank, blank]
  · by_cases blank : metric.timestamp old = ""
    · have unseen : seen.text metric = "" := by
        simpa [writesStamp, Policy.writes, blank] using stamps metric
      simp [writesStamp, Policy.writes, unseen]
    · have same := (kept.stamp metric blank).1
      simp [writesStamp, Policy.writes, same, blank]

/-- With overwriting, a record that an observation does not change carries its timestamps. -/
theorem timestamp_of_unchanged (spec : RecordSpec) (seen : Observation)
    (unchanged : spec.changedBy seen .overwriteOnChange = false) (metric : LatencyMetric)
    (offered : seen.text metric ≠ "") : metric.timestamp spec = seen.text metric := by
  have unwritten := ((changed_by_iff spec seen _).mp unchanged).2 metric
  simpa [writesStamp, Policy.writes, offered] using unwritten

end RecordSpec

theorem Record.of_pod_unchanged (pod : Pod) (policy : Policy) :
    (Record.ofPod pod policy).spec.changedBy (.ofPod pod) policy = false :=
  RecordSpec.applied_unchanged _ _ policy

def Record.unobserved (pod : Pod) : Record :=
  ⟨pod.ns, nameFor pod.uid, none,
    ⟨⟨pod.ns, pod.name, pod.uid, ""⟩, ⟨pod.created.format, "", ""⟩, ⟨0, 0⟩, pod.labels⟩⟩

theorem Record.of_pod_applied (pod : Pod) (policy : Policy) :
    Record.ofPod pod policy =
      { unobserved pod with spec := (unobserved pod).spec.apply (.ofPod pod) policy } := rfl

theorem Record.unobserved_timestamp (pod : Pod) (metric : LatencyMetric) :
    metric.timestamp (unobserved pod).spec = "" := by cases metric <;> rfl

theorem Record.unobserved_value (pod : Pod) (metric : LatencyMetric) :
    metric.value (unobserved pod).spec = 0 := by cases metric <;> rfl

def Pod.annotated (annotations : List (String × String)) : Pod :=
  { ns := "perf", name := "a", uid := "u", created := .epoch, node := "node-1", phase := .running,
    reason := "", message := "", labels := ∅, annotations := .ofList annotations }

def earlyPod : Pod := .annotated [(startKey, "1970-01-01T00:00:02Z")]

def latePod : Pod :=
  .annotated [(startKey, "1970-01-01T00:00:03Z"), (readyKey, "1970-01-01T00:00:05Z")]

end StartupLatency
