import StartupLatency.Aggregate.Answer
import StartupLatency.Proofs.ReportedRecords

/-!
A measurement from the reporter's clock to the answer of a query. The instants become annotations, a
pass reads them back into a record, and the latencies of the record are what a query that covers the
pod sums up. With one record, that is one sample or one failure.
-/

namespace StartupLatency

structure Instant.Plain (t : Instant) : Prop where
  years : t.InFourDigits
  regular : t.isLeapSecond = false

theorem Observation.latency_written (created t : Instant) (plain : t.Plain)
    (begun : created.isLeapSecond = false) :
    latency created t.format = (t.unixNanos - created.unixNanos).tdiv 1000000 := by
  rw [latency_of_some created t _ (t.parse_format plain.years),
    t.millis_since_regular created plain.regular begun]

namespace RecordSpec

/-- What a record of the pod tells that has its two times, with the latencies in whole milliseconds
toward zero. -/
def measured (pod : Pod) (start ready : Instant) : RecordSpec where
  podRef := ⟨pod.ns, pod.name, pod.uid, pod.node⟩
  timestamps := ⟨pod.created.format, start.format, ready.format⟩
  latencies :=
    ⟨(start.unixNanos - pod.created.unixNanos).tdiv 1000000,
      (ready.unixNanos - pod.created.unixNanos).tdiv 1000000⟩
  labels := pod.labels

theorem measured_stamped (pod : Pod) (start ready : Instant) (metric : LatencyMetric) :
    metric.timestamp (measured pod start ready) ≠ "" := by
  cases metric with
  | timeToStart => exact start.format_ne_empty
  | timeToReady => exact ready.format_ne_empty

end RecordSpec

namespace Query

/-- The query asks for the pod's namespace or for none, and for labels that the pod has. -/
structure Matches (query : Query) (ns : String) (labels : Labels) : Prop where
  ns : query.ns? = none ∨ query.ns? = some "" ∨ query.ns? = some ns
  labels : ∀ key value,
    query.selector.pairs.find? key = some value → labels.find? key = some value

theorem covers_of_matches {query : Query} {ns : String} {labels : Labels}
    (wanted : query.Matches ns labels) : query.scope.covers ns labels = true := by
  have fulfilled : query.selector.matchesLabels labels = true := by
    rw [Selector.matchesLabels, SortedMap.all, List.all_eq_true]
    intro entry member
    have asked := SortedMap.find?_of_mem member
    simp [wanted.labels entry.1 entry.2 asked]
  rcases wanted.ns with any | any | own
  · simp [scope, Scope.of, Scope.covers, any, fulfilled]
  · simp [scope, Scope.of, Scope.covers, any, Option.filter, fulfilled]
  · by_cases blank : ns.isEmpty = true
    · simp [scope, Scope.of, Scope.covers, own, Option.filter, blank, fulfilled]
    · simp [scope, Scope.of, Scope.covers, own, Option.filter, blank, fulfilled]

end Query

namespace LatencySummary

/-- The summary of one record whose timestamps are there: a sample if the latency is positive, a
failure otherwise. -/
def single (metric : LatencyMetric) (spec : RecordSpec) : LatencySummary :=
  let value := metric.value spec
  let pod := spec.podRef
  if 0 < value then
    { metric := metric.name, unit := "ms", count := 1, successful := 1, failed := 0
      p50 := value, p90 := value, p99 := value
      worstPods := [⟨pod.ns, pod.name, pod.uid, pod.node, spec.timestamps.created,
        metric.timestamp spec, value⟩]
      failedPods := [] }
  else
    { metric := metric.name, unit := "ms", count := 0, successful := 0, failed := 1
      p50 := 0, p90 := 0, p99 := 0
      worstPods := []
      failedPods := [⟨pod.ns, pod.name, pod.uid, pod.node⟩] }

theorem of_single (metric : LatencyMetric) (record : Record) (topN : Nat) (rows : 0 < topN)
    (stamped : metric.timestamp record.spec ≠ "") :
    ofRecords metric [record] topN = single metric record.spec := by
  obtain ⟨rows, rfl⟩ := Nat.exists_eq_succ_of_ne_zero (Nat.ne_of_gt rows)
  by_cases positive : 0 < metric.value record.spec
  · have counts : isMeasured metric record = true := by simp [isMeasured, stamped, positive]
    simp [ofRecords, single, counts, positive, percentile, sampleAt, slowPod]
  · have misses : isMeasured metric record = false := by simp [isMeasured, positive]
    simp [ofRecords, single, misses, positive, percentile, sampleAt, unmeasuredPod]

end LatencySummary

namespace Reporter
open Pods

variable {σ : Type} {settings : ReporterSettings} {service : PodService σ} {pods : σ → Pods}

/-- A run that reports a patch of a pod without a start has written both times, and nothing but
annotations. -/
theorem pod_measured (serves : service.Serves settings.pod pods) (prober : Prober)
    (clock : Nat → Instant) (startedAt : Option Instant) (world : σ) (pod : Pod)
    (held : (pods world).find? settings.pod = some pod)
    (unstarted : pod.annotations.find? startKey = none) (time : Nat)
    (succeeds : (settings.plan.run prober).outcome = .ready time) (start? ready? : Option Instant)
    (reported : (run settings prober clock startedAt service world).result =
      .ok (.patched start? ready?)) :
    ∃ annotations : Annotations,
      (pods (run settings prober clock startedAt service world).world).find? settings.pod =
        some { pod with annotations := annotations } ∧
      annotations.find? startKey = some (startedAt.getD (clock 0)).format ∧
      annotations.find? readyKey = some (clock time).format := by
  obtain ⟨found, patch, read, missing, measures, writes, applied⟩ :=
    course_patched (run_course serves prober clock startedAt world) reported
  cases read.symm.trans held
  rw [SortedMap.contains, unstarted] at missing
  rw [succeeds] at measures
  cases missing
  cases measures
  refine ⟨pod.annotations.override patch, ?_, ?_, ?_⟩
  · rw [applied, find_patched, if_pos rfl, held]
    rfl
  · rw [SortedMap.find?_override, writes, written_text_start]
    rfl
  · rw [SortedMap.find?_override, writes, written_text_ready]
    rfl

theorem measured_spec (pod : Pod) (annotations : Annotations) (policy : Policy)
    (start ready : Instant) (begun : pod.created.isLeapSecond = false) (startPlain : start.Plain)
    (readyPlain : ready.Plain) (startText : annotations.find? startKey = some start.format)
    (readyText : annotations.find? readyKey = some ready.format) :
    (Record.ofPod { pod with annotations := annotations } policy).spec =
      .measured pod start ready := by
  have startTs : Pod.startTs { pod with annotations := annotations } = start.format := by
    rw [Pod.startTs, Pod.annotation, startText]
    rfl
  have readyTs : Pod.readyTs { pod with annotations := annotations } = ready.format := by
    rw [Pod.readyTs, Pod.annotation, readyText]
    rfl
  rw [Record.of_pod_spec, startTs, readyTs, Observation.latency_written _ _ startPlain begun,
    Observation.latency_written _ _ readyPlain begun]
  rfl

/-- A pod that the reporter has measured has one record, which holds what the clock showed, and a
query that asks for the pod is answered by its latency: as the one sample if that is positive, as
the one failure otherwise. -/
theorem measurement_reaches_the_queries (settings : ReporterSettings) (service : PodService σ)
    (pods : σ → Pods) (serves : service.Serves settings.pod pods) (prober : Prober)
    (clock : Nat → Instant) (startedAt : Option Instant) (world : σ) (pod : Pod)
    (held : (pods world).find? settings.pod = some pod)
    (unstarted : pod.annotations.find? startKey = none)
    (time : Nat) (succeeds : (settings.plan.run prober).outcome = .ready time)
    (begun : pod.created.isLeapSecond = false) (startPlain : (startedAt.getD (clock 0)).Plain)
    (readyPlain : (clock time).Plain) (start? ready? : Option Instant)
    (reported : (run settings prober clock startedAt service world).result =
      .ok (.patched start? ready?))
    (policy : Policy) (patchCalls : Nat) :
    let after : PodStore :=
      ⟨pods (run settings prober clock startedAt service world).world, patchCalls⟩
    let spec := RecordSpec.measured pod (startedAt.getD (clock 0)) (clock time)
    ∃ record, record.spec = spec ∧ Pass.Records after policy settings.pod record ∧
      ∀ (metric : LatencyMetric) (query : Query), 0 < query.topN →
        query.Matches pod.ns pod.labels →
        LatencySummary.answer metric query
            (.ok ((Pass.firstRecords after policy settings.pod).list query.scope)) =
          .ok (.single metric spec) := by
  intro after spec
  obtain ⟨annotations, left, startText, readyText⟩ :=
    pod_measured serves prober clock startedAt world pod held unstarted time succeeds start? ready?
      reported
  obtain ⟨record, ns, tells, records⟩ : ∃ record, record.ns = pod.ns ∧ record.spec = spec ∧
      Pass.Records after policy settings.pod record :=
    ⟨_, rfl, measured_spec pod annotations policy _ _ begun startPlain readyPlain startText readyText,
      Pass.records_first after policy settings.pod _ left⟩
  refine ⟨record, tells, records, fun metric query rows wanted => ?_⟩
  have covered : query.scope.covers record.ns record.spec.labels = true := by
    rw [ns, tells]
    exact Query.covers_of_matches wanted
  have stamped : metric.timestamp record.spec ≠ "" := by
    rw [tells]
    exact RecordSpec.measured_stamped pod _ _ metric
  rw [records.listed query.scope covered, LatencySummary.answer,
    LatencySummary.of_single metric record query.topN rows stamped, tells]

def labelledPod : Pod := { barePod with labels := .ofList [("app", "sut"), ("tier", "1")] }

-- The first call of each kind fails.
def labelledWorld : ReporterWorld :=
  ⟨⟨⟨.ofPods [labelledPod], .empty⟩, fun _ => [some (.backend "timeout")], []⟩,
    [some "connection refused"]⟩

def labelledQuery : Query := ⟨some "perf", ⟨.ofList [("app", "sut")]⟩, 1⟩

theorem labelled_query_matches : labelledQuery.Matches labelledPod.ns labelledPod.labels := by
  constructor
  · exact Or.inr (Or.inr rfl)
  · intro key value asked
    obtain ⟨rfl, rfl⟩ : key = "app" ∧ "sut" = value := by
      simpa [labelledQuery, SortedMap.ofList, SortedMap.insertAll] using asked
    decide +kernel

theorem labelled_pod_is_summarized :
    let clock := Instant.addMillis .epoch
    let run := Reporter.run patientSettings (.ofScript [.down, .up] 10) clock none
      ReporterWorld.service labelledWorld
    let after := run.world.podStore
    let spec := RecordSpec.measured labelledPod (clock 0) (clock 520)
    run.result = .ok (.patched (some (clock 0)) (some (clock 520))) ∧
    (LatencySummary.single .timeToStart spec).failed = 1 ∧
    (LatencySummary.single .timeToReady spec).p99 = 520 ∧
    ∃ record, record.spec = spec ∧
      Pass.Records after .overwriteOnChange patientSettings.pod record ∧
      ∀ metric, LatencySummary.answer metric labelledQuery
          (.ok ((Pass.firstRecords after .overwriteOnChange patientSettings.pod).list
            labelledQuery.scope)) =
        .ok (.single metric spec) := by
  intro clock run after spec
  have result : run.result = .ok (.patched (some (clock 0)) (some (clock 520))) :=
    ok_of_option (by decide +kernel)
  have held : labelledWorld.podStore.pods.find? patientSettings.pod = some labelledPod := by
    decide +kernel
  have unstarted : labelledPod.annotations.find? startKey = none := by decide +kernel
  have succeeds : (patientSettings.plan.run (.ofScript [.down, .up] 10)).outcome = .ready 520 := by
    decide +kernel
  have started : (clock 0).Plain := ⟨by decide +kernel, by decide +kernel⟩
  have reached : (clock 520).Plain := ⟨by decide +kernel, by decide +kernel⟩
  obtain ⟨record, tells, records, answers⟩ := measurement_reaches_the_queries patientSettings
    ReporterWorld.service (fun world => world.podStore.pods) (ReporterWorld.service_serves _)
    (.ofScript [.down, .up] 10) clock none labelledWorld labelledPod held unstarted 520 succeeds
    rfl started reached _ _ result .overwriteOnChange after.patchCalls
  exact ⟨result, by decide +kernel, by decide +kernel, record, tells, records,
    fun metric => answers metric labelledQuery (by decide) labelled_query_matches⟩

end Reporter
end StartupLatency
