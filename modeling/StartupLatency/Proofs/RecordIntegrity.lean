import StartupLatency.Aggregate.Latency
import StartupLatency.Proofs.ElapsedTime
import StartupLatency.Proofs.Interleaving

/-!
What stands in a record that any number of passes have written. Every value comes from some version
of the record's pod, and a latency is the one of the timestamp beside it: a pass writes the two
together, and what it read of the record it puts back as it was. So a measurement counts exactly
when the timestamp that is stored lies behind the creation.
-/

namespace StartupLatency

theorem Record.name_for_injective (first second : String)
    (same : Record.nameFor first = Record.nameFor second) : first = second :=
  (String.append_right_inj "dpresult-").mp same

theorem Instant.parse_empty : Instant.parse? "" = none := by decide

namespace LatencySummary

def Counts (metric : LatencyMetric) (record : Record) : Prop :=
  ∀ before after topN, (ofRecords metric (before ++ record :: after) topN).successful =
    (ofRecords metric (before ++ after) topN).successful + 1

theorem counts_iff (metric : LatencyMetric) (record : Record) :
    Counts metric record ↔ isMeasured metric record = true := by
  constructor
  · intro counts
    cases measured : isMeasured metric record with
    | true => rfl
    | false => simpa [ofRecords, measured] using counts [] [] 0
  · intro measured before after topN
    simp [ofRecords, measured, Nat.add_assoc]

end LatencySummary

/-- All that a record says comes from versions of one pod, of which `origin` is one: its identity
and creation, a node and timestamps that some version had, and the latencies of those. -/
structure Record.Tells (pods : List Pod) (origin : Pod) (record : Record) : Prop where
  name : record.name = Record.nameFor origin.uid
  ns : record.ns = origin.ns
  pod_uid : record.spec.podRef.uid = origin.uid
  pod_ns : record.spec.podRef.ns = origin.ns
  pod_name : record.spec.podRef.name = origin.name
  created : record.spec.timestamps.created = origin.created.format
  node : record.spec.podRef.node = "" ∨
    ∃ pod ∈ pods, pod.uid = origin.uid ∧ record.spec.podRef.node = pod.node
  stamp : ∀ metric : LatencyMetric, metric.timestamp record.spec = "" ∨
    ∃ pod ∈ pods, pod.uid = origin.uid ∧
      metric.timestamp record.spec = (Observation.ofPod pod).text metric
  latency : ∀ metric : LatencyMetric,
    metric.value record.spec = Observation.latency origin.created (metric.timestamp record.spec)

/-- Versions with one uid are versions of one pod. -/
def Pod.Consistent (pods : List Pod) : Prop :=
  ∀ first ∈ pods, ∀ second ∈ pods, first.uid = second.uid →
    first.ns = second.ns ∧ first.name = second.name ∧ first.created = second.created

namespace Record

variable {pods more : List Pod} {origin : Pod} {record : Record}

theorem tells_mono (known : ∀ pod ∈ pods, pod ∈ more) (tells : record.Tells pods origin) :
    record.Tells more origin := by
  refine { tells with node := ?_, stamp := fun metric => ?_ }
  · exact tells.node.imp_right fun ⟨pod, member, same⟩ => ⟨pod, known pod member, same⟩
  · exact (tells.stamp metric).imp_right fun ⟨pod, member, same⟩ => ⟨pod, known pod member, same⟩

theorem tells_versioned (version : Option String) (tells : record.Tells pods origin) :
    { record with version := version }.Tells pods origin :=
  ⟨tells.name, tells.ns, tells.pod_uid, tells.pod_ns, tells.pod_name, tells.created, tells.node,
    tells.stamp, tells.latency⟩

/-- Each part of the record is as it was, or it is what the version shows. -/
theorem tells_apply (pod : Pod) (policy : Policy) (known : pod ∈ pods)
    (uid : pod.uid = origin.uid) (created : pod.created = origin.created)
    (tells : record.Tells pods origin) :
    { record with spec := record.spec.apply (.ofPod pod) policy }.Tells pods origin := by
  obtain ⟨ns, name, refUid, at_, _⟩ := RecordSpec.identity_apply record.spec (.ofPod pod) policy
  refine ⟨tells.name, tells.ns, refUid.trans tells.pod_uid, ns.trans tells.pod_ns,
    name.trans tells.pod_name, at_.trans tells.created, ?_, fun metric => ?_, fun metric => ?_⟩
  · dsimp only
    rw [RecordSpec.node_apply]
    split
    · exact Or.inr ⟨pod, known, uid, rfl⟩
    · exact tells.node
  · dsimp only
    rw [RecordSpec.timestamp_apply]
    split
    · exact Or.inr ⟨pod, known, uid, rfl⟩
    · exact tells.stamp metric
  · dsimp only
    rw [RecordSpec.value_apply, RecordSpec.timestamp_apply]
    split
    · exact congrArg (Observation.latency · _) created
    · exact tells.latency metric

theorem tells_of_pod (pod : Pod) (policy : Policy) (known : pod ∈ pods) :
    (Record.ofPod pod policy).Tells pods pod := by
  have blank : (unobserved pod).Tells pods pod := by
    refine ⟨rfl, rfl, rfl, rfl, rfl, rfl, Or.inl rfl,
      fun metric => Or.inl (unobserved_timestamp pod metric), fun metric => ?_⟩
    rw [unobserved_timestamp, unobserved_value]
    exact (Observation.latency_of_none pod.created "" Instant.parse_empty).symm
  rw [of_pod_applied]
  exact tells_apply pod policy known rfl rfl blank

end Record

def Pass.Sourced (pods : List Pod) : Pass → Prop
  | .readingRecord pod => pod ∈ pods
  | .creating record => ∃ origin ∈ pods, record.Tells pods origin
  | .updating record => ∃ origin ∈ pods, record.Tells pods origin
  | _ => True

structure Stores.Sourced (pods : List Pod) (stores : Stores) : Prop where
  known : ∀ key pod, stores.pods.pods.find? key = some pod → pod ∈ pods
  told : ∀ key record, stores.records.records.find? key = some record →
    record.key = key ∧ ∃ origin ∈ pods, record.Tells pods origin

namespace Stores

variable {pods more : List Pod} {stores : Stores}

theorem sourced_mono (known : ∀ pod ∈ pods, pod ∈ more) (sourced : stores.Sourced pods) :
    stores.Sourced more := by
  refine ⟨fun key pod found => known pod (sourced.known key pod found), fun key record found => ?_⟩
  obtain ⟨filed, origin, member, tells⟩ := sourced.told key record found
  exact ⟨filed, origin, known origin member, Record.tells_mono known tells⟩

theorem sourced_commit (record : Record) (sourced : stores.Sourced pods)
    (source : ∃ origin ∈ pods, record.Tells pods origin) :
    (stores.commit record).Sourced pods := by
  refine ⟨sourced.known, fun key stored found => ?_⟩
  simp only [commit, RecordStore.find_commit] at found
  split at found
  · rename_i same
    cases found
    obtain ⟨origin, member, tells⟩ := source
    exact ⟨same.symm, origin, member, Record.tells_versioned _ tells⟩
  · exact sourced.told key stored found

end Stores

namespace Pass

variable {pods more : List Pod} {policy : Policy} {key : ObjectName} {trouble : Option StoreError}
  {pass next : Pass} {stores after : Stores}

theorem sourced_mono (known : ∀ pod ∈ pods, pod ∈ more) (sourced : pass.Sourced pods) :
    pass.Sourced more := by
  cases pass with
  | readingRecord pod => exact known pod sourced
  | creating record =>
    obtain ⟨origin, member, tells⟩ := sourced
    exact ⟨origin, known origin member, Record.tells_mono known tells⟩
  | updating record =>
    obtain ⟨origin, member, tells⟩ := sourced
    exact ⟨origin, known origin member, Record.tells_mono known tells⟩
  | _ => trivial

theorem moves_sourced (moves : Moves policy key trouble pass stores next after)
    (consistent : Pod.Consistent pods) (stored : stores.Sourced pods)
    (sourced : pass.Sourced pods) : after.Sourced pods ∧ next.Sourced pods := by
  cases moves with
  | podRead pod found => exact ⟨stored, stored.known key pod found⟩
  -- The record was found under the name of the pod's uid, so it is of the same pod.
  | outOfDate pod record found =>
    obtain ⟨filed, origin, member, tells⟩ := stored.told _ _ found
    have named : record.name = Record.nameFor pod.uid := congrArg ObjectName.name filed
    have uid := Record.name_for_injective _ _ (named.symm.trans tells.name)
    have created := (consistent pod sourced origin member uid).2.2
    exact ⟨stored, origin, member, Record.tells_apply pod policy sourced uid created tells⟩
  | missing pod => exact ⟨stored, pod, sourced, Record.tells_of_pod pod policy sourced⟩
  | created record free => exact ⟨Stores.sourced_commit record stored sourced, trivial⟩
  | updated record current found same =>
    exact ⟨Stores.sourced_commit record stored sourced, trivial⟩
  | failed pass error unfinished => exact ⟨stored, trivial⟩
  | _ => exact ⟨stored, trivial⟩

end Pass

namespace Traffic

-- A history in which each call follows a policy of its own, as of passes with different ones.
def mixed (history : List (Policy × Move)) (traffic : Traffic) : Traffic :=
  history.foldl (fun traffic step => traffic.after step.1 step.2) traffic

def upserted : List (Policy × Move) → List Pod
  | [] => []
  | (_, .upsert pod) :: rest => pod :: upserted rest
  | _ :: rest => upserted rest

structure Sourced (pods : List Pod) (traffic : Traffic) : Prop where
  stores : traffic.stores.Sourced pods
  passes : ∀ entry ∈ traffic.passes, entry.2.Sourced pods

theorem sourced_empty : empty.Sourced [] := by
  refine ⟨⟨fun _ _ found => ?_, fun _ _ found => ?_⟩, fun _ member => ?_⟩
  · cases found
  · cases found
  · cases member

theorem upsert_sourced (pods : List Pod) (traffic : Traffic) (policy : Policy) (pod : Pod)
    (sourced : traffic.Sourced pods) :
    (traffic.after policy (.upsert pod)).Sourced (pods ++ [pod]) := by
  have known : ∀ former ∈ pods, former ∈ pods ++ [pod] := fun _ => List.mem_append_left _
  refine ⟨⟨fun key stored found => ?_, (Stores.sourced_mono known sourced.stores).told⟩,
    fun entry member => Pass.sourced_mono known (sourced.passes entry member)⟩
  simp only [after, PodStore.upsert, SortedMap.find?_insert] at found
  split at found
  · cases found
    simp
  · exact known stored (sourced.stores.known key stored found)

theorem call_sourced (pods : List Pod) (traffic : Traffic) (policy : Policy) (index : Nat)
    (trouble : Option StoreError) (consistent : Pod.Consistent pods)
    (sourced : traffic.Sourced pods) :
    (traffic.after policy (.call index trouble)).Sourced pods := by
  simp only [after]
  cases present : traffic.passes[index]? with
  | none => exact sourced
  | some entry =>
    obtain ⟨key, pass⟩ := entry
    obtain ⟨stores, next⟩ := Pass.moves_sourced
      (Pass.step_moves policy key trouble pass traffic.stores) consistent sourced.stores
      (sourced.passes (key, pass) (List.mem_of_getElem? present))
    refine ⟨stores, fun entry member => ?_⟩
    rcases List.mem_or_eq_of_mem_set member with old | rfl
    · exact sourced.passes entry old
    · exact next

theorem start_sourced (pods : List Pod) (traffic : Traffic) (policy : Policy) (key : ObjectName)
    (sourced : traffic.Sourced pods) : (traffic.after policy (.start key)).Sourced pods := by
  refine ⟨sourced.stores, fun entry member => ?_⟩
  rcases List.mem_append.mp member with old | new
  · exact sourced.passes entry old
  · cases List.mem_singleton.mp new
    trivial

theorem consistent_before (pods more : List Pod) (consistent : Pod.Consistent (pods ++ more)) :
    Pod.Consistent pods :=
  fun first here second there => consistent first (List.mem_append_left more here) second
    (List.mem_append_left more there)

theorem mixed_sourced (history : List (Policy × Move)) (pods : List Pod) (traffic : Traffic)
    (consistent : Pod.Consistent (pods ++ upserted history)) (sourced : traffic.Sourced pods) :
    (mixed history traffic).Sourced (pods ++ upserted history) := by
  induction history generalizing pods traffic with
  | nil => simpa [upserted, mixed] using sourced
  | cons step rest ih =>
    obtain ⟨policy, move⟩ := step
    cases move with
    | upsert pod =>
      have split : pods ++ upserted ((policy, .upsert pod) :: rest) =
          (pods ++ [pod]) ++ upserted rest := by simp [upserted]
      rw [split] at consistent ⊢
      exact ih _ _ consistent (upsert_sourced pods traffic policy pod sourced)
    | start key => exact ih _ _ consistent (start_sourced pods traffic policy key sourced)
    | call index trouble =>
      exact ih _ _ consistent (call_sourced pods traffic policy index trouble
        (consistent_before pods _ consistent) sourced)

/-- A record counts when the timestamp that it has lies a millisecond or more behind the creation
that its latency was derived from. -/
theorem tells_counts_iff (pods : List Pod) (origin : Pod) (record : Record)
    (tells : record.Tells pods origin) (metric : LatencyMetric) :
    LatencySummary.Counts metric record ↔
      ∃ t, Instant.parse? (metric.timestamp record.spec) = some t ∧
        1000000 ≤ t.nanosSince origin.created := by
  rw [LatencySummary.counts_iff, LatencySummary.isMeasured, tells.latency metric]
  cases read : Instant.parse? (metric.timestamp record.spec) with
  | none => simp [Observation.latency_of_none _ _ read]
  | some t =>
    have reported : metric.timestamp record.spec ≠ "" := by
      intro empty
      rw [empty, Instant.parse_empty] at read
      cases read
    simp [Observation.latency_of_some _ _ _ read, reported, Instant.millis_since_pos]

/-- Whatever passes interleave, and whichever policy each of them follows, a stored record is filed
under its name, which is the one of its pod's uid; it says what versions of that pod said, its
latencies are those of its timestamps, and it counts exactly when its timestamp is a millisecond or
more behind the creation. -/
theorem stored_records_tell (history : List (Policy × Move))
    (consistent : Pod.Consistent (upserted history)) (key : ObjectName) (record : Record)
    (found : (mixed history empty).stores.records.records.find? key = some record) :
    record.key = key ∧ record.name = Record.nameFor record.spec.podRef.uid ∧
      record.ns = record.spec.podRef.ns ∧
      ∃ origin ∈ upserted history, record.Tells (upserted history) origin ∧
        ∀ metric : LatencyMetric,
          (metric.timestamp record.spec = "" ∨
              Instant.parse? (metric.timestamp record.spec) = none →
            metric.value record.spec = 0) ∧
          (∀ t, Instant.parse? (metric.timestamp record.spec) = some t →
            metric.value record.spec = t.millisSince origin.created) ∧
          (origin.created.isLeapSecond = false →
            (∀ t, Instant.parse? (metric.timestamp record.spec) = some t →
              t.isLeapSecond = false) →
            (LatencySummary.Counts metric record ↔
              ∃ t, Instant.parse? (metric.timestamp record.spec) = some t ∧
                origin.created.unixNanos + 1000000 ≤ t.unixNanos)) := by
  have sourced := mixed_sourced history [] empty consistent sourced_empty
  obtain ⟨filed, origin, member, tells⟩ := sourced.stores.told key record found
  refine ⟨filed, tells.name.trans (congrArg Record.nameFor tells.pod_uid.symm),
    tells.ns.trans tells.pod_ns.symm, origin, member, tells, fun metric => ⟨?_, ?_, ?_⟩⟩
  · intro unreported
    rw [tells.latency metric]
    rcases unreported with empty | unread
    · rw [empty]
      exact Observation.latency_of_none _ _ Instant.parse_empty
    · exact Observation.latency_of_none _ _ unread
  · intro t read
    rw [tells.latency metric, Observation.latency_of_some _ _ _ read]
  · intro started regular
    rw [tells_counts_iff _ origin record tells metric]
    refine exists_congr fun t => and_congr_right fun read => ?_
    rw [Instant.nanos_since_regular t origin.created (regular t read) started]
    omega

def threeCalls (policy : Policy) (index : Nat) : List (Policy × Move) :=
  List.replicate 3 (policy, .call index none)

-- The first pass creates the record of the early version; the second, which overwrites, has read a
-- version whose start names no instant.
def twoPolicies : List (Policy × Move) :=
  [(.firstWriteWins, .upsert earlyPod), (.firstWriteWins, .start earlyPod.key)] ++
  threeCalls .firstWriteWins 0 ++
  [(.overwriteOnChange,
      .upsert (.annotated [(startKey, "soon"), (readyKey, "1970-01-01T00:00:05Z")])),
    (.overwriteOnChange, .start earlyPod.key)] ++
  threeCalls .overwriteOnChange 1

def garbledRecord : Record :=
  ⟨"perf", "dpresult-u", some "2", ⟨⟨"perf", "a", "u", "node-1"⟩,
    ⟨Instant.epoch.format, "soon", "1970-01-01T00:00:05Z"⟩, ⟨0, 5000⟩, ∅⟩⟩

theorem garbled_record_tells :
    Pod.Consistent (upserted twoPolicies) ∧
    (mixed twoPolicies empty).stores.records.records.find? garbledRecord.key =
      some garbledRecord ∧
    (∃ origin ∈ upserted twoPolicies, garbledRecord.Tells (upserted twoPolicies) origin) ∧
    LatencySummary.Counts .timeToReady garbledRecord ∧
    ¬ LatencySummary.Counts .timeToStart garbledRecord := by
  have consistent : Pod.Consistent (upserted twoPolicies) := by
    unfold Pod.Consistent
    decide +kernel
  have found : (mixed twoPolicies empty).stores.records.records.find? garbledRecord.key =
      some garbledRecord := by decide +kernel
  have created : ∀ pod ∈ upserted twoPolicies, pod.created = .epoch := by decide +kernel
  have ready : Instant.parse? "1970-01-01T00:00:05Z" =
      some ⟨5, 0, by decide, by decide, by decide⟩ := by decide +kernel
  have start : Instant.parse? "soon" = none := by decide +kernel
  obtain ⟨_, _, _, origin, member, tells, metrics⟩ :=
    stored_records_tell twoPolicies consistent garbledRecord.key garbledRecord found
  have regular : origin.created.isLeapSecond = false := created origin member ▸ rfl
  refine ⟨consistent, found, ⟨origin, member, tells⟩, ?_, ?_⟩
  · refine ((metrics .timeToReady).2.2 regular fun t read => ?_).mpr ⟨_, ready, ?_⟩
    · cases ready.symm.trans read
      rfl
    · rw [created origin member]
      decide
  · intro counts
    obtain ⟨t, read, _⟩ := ((metrics .timeToStart).2.2 regular fun t read => by
      cases start.symm.trans read).mp counts
    cases start.symm.trans read

end Traffic
end StartupLatency
