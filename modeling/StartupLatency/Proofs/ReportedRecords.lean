import StartupLatency.Proofs.PodServices
import StartupLatency.Proofs.RecordIntegrity
import StartupLatency.Proofs.TimestampText

/-!
The first record of a pod, as a pass makes it when none exists, and what it tells once the reporter
has been at the pod. The reporter asks whether an annotation is there and a record whether its text
is empty, so the two part ways on an annotation that is there without a text.
-/

namespace StartupLatency

theorem Policy.writes_first (policy : Policy) (observed : String) :
    policy.writes "" observed = (observed != "") := by
  cases policy with
  | firstWriteWins => simp [writes]
  | overwriteOnChange =>
    have same : ("" != observed) = (observed != "") := bne_comm
    rw [writes, same, Bool.and_self]

namespace Record

/-! A first record takes in everything that its pod shows, under either policy. -/

variable (pod : Pod) (policy : Policy) (metric : LatencyMetric)

theorem of_pod_writes :
    (unobserved pod).spec.writesStamp (.ofPod pod) policy metric =
      ((Observation.ofPod pod).text metric != "") := by
  rw [RecordSpec.writesStamp, unobserved_timestamp, Policy.writes_first]

theorem of_pod_timestamp :
    metric.timestamp (Record.ofPod pod policy).spec = (Observation.ofPod pod).text metric := by
  rw [of_pod_applied, RecordSpec.timestamp_apply, of_pod_writes, unobserved_timestamp]
  by_cases blank : (Observation.ofPod pod).text metric = "" <;> simp [blank]

theorem of_pod_value :
    metric.value (Record.ofPod pod policy).spec =
      Observation.latency pod.created ((Observation.ofPod pod).text metric) := by
  rw [of_pod_applied, RecordSpec.value_apply, of_pod_writes, unobserved_value]
  by_cases blank : (Observation.ofPod pod).text metric = ""
  · simp [blank, Observation.latency_of_none pod.created "" Instant.parse_empty]
  · rw [if_pos (bne_iff_ne.mpr blank)]
    rfl

theorem of_pod_node : (Record.ofPod pod policy).spec.podRef.node = pod.node := by
  rw [of_pod_applied, RecordSpec.node_apply]
  by_cases blank : pod.node = "" <;>
    simp [RecordSpec.writesNode, unobserved, Observation.ofPod, blank]

theorem of_pod_spec :
    (Record.ofPod pod policy).spec =
      ⟨⟨pod.ns, pod.name, pod.uid, pod.node⟩, ⟨pod.created.format, pod.startTs, pod.readyTs⟩,
        ⟨Observation.latency pod.created pod.startTs, Observation.latency pod.created pod.readyTs⟩,
        pod.labels⟩ := by
  let spec := (Record.ofPod pod policy).spec
  obtain ⟨ns, name, uid, created, labels⟩ :=
    RecordSpec.identity_apply (unobserved pod).spec (.ofPod pod) policy
  have ref : spec.podRef = ⟨pod.ns, pod.name, pod.uid, pod.node⟩ := by
    rw [PodRef.mk.injEq]
    exact ⟨ns, name, uid, of_pod_node pod policy⟩
  have stamps : spec.timestamps = ⟨pod.created.format, pod.startTs, pod.readyTs⟩ := by
    rw [Timestamps.mk.injEq]
    exact ⟨created, of_pod_timestamp pod policy .timeToStart,
      of_pod_timestamp pod policy .timeToReady⟩
  have latencies : spec.latencies = ⟨Observation.latency pod.created pod.startTs,
      Observation.latency pod.created pod.readyTs⟩ := by
    rw [Latencies.mk.injEq]
    exact ⟨of_pod_value pod policy .timeToStart, of_pod_value pod policy .timeToReady⟩
  rw [RecordSpec.mk.injEq]
  exact ⟨ref, stamps, latencies, labels⟩

end Record

namespace RecordStore

theorem list_single (record : Record) (scope : Scope) :
    (empty.commit record).2.list scope =
      [(empty.commit record).1].filter fun stored =>
        scope.covers stored.ns stored.spec.labels := rfl

end RecordStore

namespace Pass

/-- Without a record, a pass over a pod that is there creates one and is done. -/
theorem run_first (pods : PodStore) (policy : Policy) (key : ObjectName) (pod : Pod)
    (held : pods.pods.find? key = some pod) :
    Pass.run Stores.access policy key ⟨pods, .empty⟩ =
      (.ended (.done (.created (RecordStore.empty.commit (.ofPod pod policy)).1)),
        [⟨"get", recordKey pod⟩, ⟨"create", recordKey pod⟩],
        ⟨pods, (RecordStore.empty.commit (.ofPod pod policy)).2⟩) :=
  run_creates pod held rfl

def firstRecords (pods : PodStore) (policy : Policy) (key : ObjectName) : RecordStore :=
  (Pass.run Stores.access policy key ⟨pods, .empty⟩).2.2.records

structure Records (pods : PodStore) (policy : Policy) (key : ObjectName) (record : Record) :
    Prop where
  done : (Pass.run Stores.access policy key ⟨pods, .empty⟩).1 = .ended (.done (.created record))
  only : (firstRecords pods policy key).list .everything = [record]
  listed : ∀ scope : Scope, scope.covers record.ns record.spec.labels = true →
    (firstRecords pods policy key).list scope = [record]

theorem records_first (pods : PodStore) (policy : Policy) (key : ObjectName) (pod : Pod)
    (held : pods.pods.find? key = some pod) :
    Records pods policy key (RecordStore.empty.commit (.ofPod pod policy)).1 := by
  have left : firstRecords pods policy key = (RecordStore.empty.commit (.ofPod pod policy)).2 := by
    rw [firstRecords, run_first pods policy key pod held]
  constructor
  · rw [run_first pods policy key pod held]
  · rw [left, RecordStore.list_single]
    rfl
  · intro scope covered
    rw [left, RecordStore.list_single]
    exact List.filter_cons_of_pos covered

end Pass

theorem Instant.format_ne_empty (t : Instant) : t.format ≠ "" := by
  intro blank
  have chars := congrArg String.toList blank
  simp [format] at chars

namespace Reporter
open Pods

variable {σ : Type} {settings : ReporterSettings} {service : PodService σ} {pods : σ → Pods}

-- Where a timeout fails the run, a run that goes on has measured.
theorem measured_strict {clock : Nat → Instant} {outcome : ProbeEnd} {ready? : Option Instant}
    (strict : settings.bestEffort = false)
    (measures : measured settings clock outcome = .ok ready?) :
    ∃ ready, ready? = some ready := by
  cases outcome with
  | ready time => exact ⟨clock time, (Except.ok.inj measures).symm⟩
  | timedOut => simp [measured, strict] at measures
  | crashed | endless => cases measures

structure Leaves (before after : Pods) (name : ObjectName) (report : Report)
    (startText readyText : String) : Prop where
  start : after.stamp? name startKey = some startText
  ready : after.stamp? name readyKey = some readyText
  startBlank : startText = "" ↔ before.stamp? name startKey = some ""
  readyBlank : readyText = "" ↔ report = .skipped ∧ before.stamp? name readyKey = some ""

theorem leaves_complete {pods : Pods} {name : ObjectName} {pod : Pod}
    (read : pods.find? name = some pod) (complete : Complete pod) :
    ∃ startText readyText, Leaves pods pods name .skipped startText readyText := by
  obtain ⟨startText, start⟩ :=
    Option.ne_none_iff_exists'.mp ((contains_iff_stamp read startKey).mp complete.1)
  obtain ⟨readyText, ready⟩ :=
    Option.ne_none_iff_exists'.mp ((contains_iff_stamp read readyKey).mp complete.2)
  exact ⟨startText, readyText, start, ready, by simp [start], by simp [ready]⟩

theorem leaves_patched {before : Pods} {name : ObjectName} {pod : Pod} {start : Instant}
    (read : before.find? name = some pod) (start? : Option Instant) (ready : Instant)
    (missing : start? = if pod.annotations.contains startKey then none else some start)
    (patch : Annotations) (writes : ∀ key, patch.find? key = writtenText? start? (some ready) key) :
    ∃ startText readyText, Leaves before (before.patched name patch) name
      (.patched start? (some ready)) startText readyText := by
  have atReady : (before.patched name patch).stamp? name readyKey = some ready.format := by
    rw [stamp_patched read, writes, written_text_ready]
    rfl
  have atStart : (before.patched name patch).stamp? name startKey =
      (start?.map Instant.format).or (before.stamp? name startKey) := by
    rw [stamp_patched read, writes, written_text_start]
  have unblank : ready.format = "" ↔
      Report.patched start? (some ready) = .skipped ∧ before.stamp? name readyKey = some "" := by
    simp [ready.format_ne_empty]
  cases held : before.stamp? name startKey with
  | some text =>
    have started : pod.annotations.contains startKey = true :=
      (contains_iff_stamp read startKey).mpr (by simp [held])
    rw [started, if_pos rfl] at missing
    subst missing
    exact ⟨text, ready.format, by rw [atStart, held]; rfl, atReady, by simp [held], unblank⟩
  | none =>
    have unstarted : ¬ pod.annotations.contains startKey = true := by
      simp [contains_iff_stamp read, held]
    rw [if_neg unstarted] at missing
    subst missing
    exact ⟨start.format, ready.format, by rw [atStart]; rfl, atReady,
      by simp [held, start.format_ne_empty], unblank⟩

theorem course_leaves {prober : Prober} {clock : Nat → Instant} {start : Instant} {world : σ}
    {run : ReporterRun σ} (strict : settings.bestEffort = false)
    (course : Course settings prober clock start service pods world run) (report : Report)
    (reported : run.result = .ok report) :
    ∃ startText readyText,
      Leaves (pods world) (pods run.world) settings.pod report startText readyText := by
  cases course with
  | unread _ _ result => cases result.symm.trans reported
  | unmeasured _ _ _ _ result => cases result.symm.trans reported
  | complete pod read complete result same =>
    cases result.symm.trans reported
    rw [same]
    exact leaves_complete read complete
  | nothing _ _ _ measures =>
    obtain ⟨_, ready⟩ := measured_strict strict measures
    cases ready
  | patching pod read _ start? ready? measures missing _ patch writes ends =>
    rcases ends with ⟨result, applied⟩ | ⟨⟨_, result⟩, _⟩
    · cases result.symm.trans reported
      obtain ⟨ready, rfl⟩ := measured_strict strict measures
      rw [applied]
      exact leaves_patched read start? ready missing patch writes
    · cases result.symm.trans reported

/-- A run that does not put up with a timeout and ends without a fault leaves both annotations, and
a first record has their texts. Blank ones are only those that were blank already: the start of any
run, the readiness of a run that was skipped. -/
theorem reports_are_recorded (settings : ReporterSettings) (strict : settings.bestEffort = false)
    (service : PodService σ) (pods : σ → Pods) (serves : service.Serves settings.pod pods)
    (prober : Prober) (clock : Nat → Instant) (startedAt : Option Instant) (world : σ)
    (report : Report)
    (reported : (run settings prober clock startedAt service world).result = .ok report)
    (policy : Policy) (patchCalls : Nat) :
    let after := pods (run settings prober clock startedAt service world).world
    ∃ record, Pass.Records ⟨after, patchCalls⟩ policy settings.pod record ∧
      Leaves (pods world) after settings.pod report record.spec.timestamps.start
        record.spec.timestamps.ready := by
  intro after
  obtain ⟨startText, readyText, leaves⟩ := course_leaves strict
    (run_course serves prober clock startedAt world) report reported
  cases held : after.find? settings.pod with
  | none =>
    have start := leaves.start
    rw [stamp?, held] at start
    cases start
  | some pod =>
    have shows (key text : String) (stands : stamp? after settings.pod key = some text) :
        pod.annotation key = text := by
      rw [stamp?, held, Option.bind_some] at stands
      rw [Pod.annotation, stands]
      rfl
    refine ⟨_, Pass.records_first ⟨after, patchCalls⟩ policy settings.pod pod held, ?_⟩
    have start : (Record.ofPod pod policy).spec.timestamps.start = startText :=
      (Record.of_pod_timestamp pod policy .timeToStart).trans (shows startKey _ leaves.start)
    have ready : (Record.ofPod pod policy).spec.timestamps.ready = readyText :=
      (Record.of_pod_timestamp pod policy .timeToReady).trans (shows readyKey _ leaves.ready)
    rw [RecordStore.commit, start, ready]
    exact leaves

-- The second patch goes through; the start has been there all along, without a text.
def blankStartWorld : ReporterWorld :=
  ⟨⟨⟨.ofPods [.annotated [(startKey, "")]], .empty⟩, fun _ => [some (.backend "timeout")], []⟩, []⟩

theorem blank_start_is_recorded :
    let run := Reporter.run patientSettings (.ofScript [.down, .up] 10) (Instant.addMillis .epoch)
      none ReporterWorld.service blankStartWorld
    run.result = .ok (.patched none (some (Instant.epoch.addMillis 520))) ∧
    ∃ record, Pass.Records run.world.podStore .firstWriteWins patientSettings.pod record ∧
      record.spec.timestamps.start = "" ∧ record.spec.timestamps.ready ≠ "" := by
  intro run
  have result : run.result = .ok (.patched none (some (Instant.epoch.addMillis 520))) :=
    ok_of_option (by decide +kernel)
  have blank : stamp? blankStartWorld.podStore.pods patientSettings.pod startKey = some "" := by
    decide +kernel
  obtain ⟨record, records, leaves⟩ := reports_are_recorded patientSettings rfl ReporterWorld.service
    (fun world => world.podStore.pods) (ReporterWorld.service_serves _) (.ofScript [.down, .up] 10)
    (Instant.addMillis .epoch) none blankStartWorld _ result .firstWriteWins
    run.world.podStore.patchCalls
  exact ⟨result, record, records, leaves.startBlank.mpr blank,
    fun none => nomatch (leaves.readyBlank.mp none).1⟩

def blankPod : Pod := .annotated [(startKey, ""), (readyKey, "")]

def blankWorld : ReporterWorld := ⟨.ofStores ⟨.ofPods [blankPod], .empty⟩, []⟩

/-- The reporter takes the pod for measured, and the record of it has no timestamps. -/
theorem blank_annotations_pass_for_reported :
    let run := Reporter.run patientSettings (.ofScript [.up] 0) (Instant.addMillis .epoch) none
      ReporterWorld.service blankWorld
    patientSettings.bestEffort = false ∧ run.result = .ok .skipped ∧
    ∃ record, Pass.Records run.world.podStore .firstWriteWins patientSettings.pod record ∧
      record.spec.timestamps = ⟨Instant.epoch.format, "", ""⟩ := by
  intro run
  have result : run.result = .ok .skipped := ok_of_option (by decide +kernel)
  have held : run.world.podStore.pods.find? patientSettings.pod = some blankPod := by
    decide +kernel
  have blank : (Record.ofPod blankPod .firstWriteWins).spec.timestamps =
      ⟨Instant.epoch.format, "", ""⟩ := by decide +kernel
  exact ⟨rfl, result, _, Pass.records_first _ _ _ blankPod held, blank⟩

end Reporter
end StartupLatency
