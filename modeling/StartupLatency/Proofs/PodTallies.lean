import StartupLatency.Aggregate.Answer
import StartupLatency.Proofs.ControllerRuns
import StartupLatency.Proofs.LatencyListings

/-!
What a health page tells of the pods that are listed. Every pod is counted once, under its phase,
and the rows are those of the first pods of a phase by namespace and name. No two pods of a listing
have one key, so that their order is a strict one and the page does not depend on the order of the
listing.
-/

namespace StartupLatency

namespace PodStore

inductive Built : PodStore → Prop where
  | empty : Built .empty
  | upsert (store : PodStore) (pod : Pod) (built : Built store) : Built (store.upsert pod)
  | patch (store : PodStore) (key : ObjectName) (annotations : Annotations) (built : Built store) :
      Built (store.patch key annotations).2

theorem patch_filed (store : PodStore) (key : ObjectName) (annotations : Annotations)
    (filed : ∀ key pod, store.pods.find? key = some pod → pod.key = key) :
    ∀ other found, (store.patch key annotations).2.pods.find? other = some found →
      found.key = other := by
  intro other found stored
  unfold patch at stored
  split at stored
  · rename_i pod present
    rw [SortedMap.find?_insert] at stored
    split at stored
    · rename_i same
      cases stored
      exact (filed key pod present).trans same.symm
    · exact filed other found stored
  · exact filed other found stored

theorem built_filed (store : PodStore) (built : store.Built) :
    ∀ key pod, store.pods.find? key = some pod → pod.key = key := by
  induction built with
  | empty =>
    intro key pod found
    cases (show none = some pod from found)
  | upsert store pod built filed => exact upsert_filed store pod filed
  | patch store key annotations built filed => exact patch_filed store key annotations filed

def matching (store : PodStore) (query : Query) : List Pod :=
  store.pods.values.filter fun pod => decide (query.Matches pod.ns pod.labels)

theorem list_matching (store : PodStore) (query : Query) :
    store.list query.scope = store.matching query :=
  List.filter_congr fun pod _ => Bool.eq_iff_iff.mpr (by
    rw [decide_eq_true_eq, Query.covers_iff_matches])

theorem matching_distinct (store : PodStore) (query : Query) (built : store.Built) :
    ((store.matching query).map Pod.key).Nodup := by
  have keys : store.pods.values.map Pod.key = store.pods.keys := by
    rw [SortedMap.values, SortedMap.keys, List.map_map]
    refine List.map_congr_left fun entry member => ?_
    exact built_filed store built entry.1 entry.2 (SortedMap.find?_of_mem member)
  have whole : (store.pods.values.map Pod.key).Nodup := keys ▸ store.pods.nodup_keys
  exact whole.sublist (List.filter_sublist.map Pod.key)

end PodStore

namespace PodHealth

def countIn (phase : Phase) (pods : List Pod) : Nat := pods.countP fun pod => pod.phase = phase

theorem length_in_phase (phase : Phase) (pods : List Pod) :
    (inPhase phase pods).length = countIn phase pods := List.countP_eq_length_filter.symm

-- A pod is in one phase.
theorem phases_counted (pods : List Pod) :
    countIn .running pods + countIn .pending pods + countIn .failed pods +
      countIn .succeeded pods + countIn .unknown pods = pods.length := by
  induction pods with
  | nil => rfl
  | cons pod rest ih =>
    simp only [countIn, List.countP_cons, List.length_cons] at ih ⊢
    cases pod.phase <;> simp <;> omega

def NamesAhead (a b : Pod) : Prop := compare a.key b.key = .lt

theorem names_ahead_asymm {a b : Pod} (ahead : NamesAhead a b) : ¬ NamesAhead b a := by
  intro behind
  rw [NamesAhead, Std.OrientedCmp.gt_of_lt ahead] at behind
  cases behind

/-- The rows are the details of the first pods by namespace and name, as many as are wanted or there
are. -/
def ListsFirst (wanted : Nat) (all : List Pod) (rows : List PodDetails) : Prop :=
  ∃ listed left : List Pod, (listed ++ left).Perm all ∧ rows = listed.map .ofPod ∧
    listed.length = min wanted all.length ∧ listed.Pairwise NamesAhead ∧
    ∀ a ∈ listed, ∀ b ∈ left, NamesAhead a b

/-- What a page tells of the pods that a query has had listed. -/
structure Describes (query : Query) (pods : List Pod) (health : PodHealth) : Prop where
  desired : health.desired = pods.length
  running : health.running = countIn .running pods
  pending : health.pending = countIn .pending pods
  failed : health.failed = countIn .failed pods
  complete : health.running + health.pending + health.failed + countIn .succeeded pods +
    countIn .unknown pods = health.desired
  pendingRows : ListsFirst query.topN (pods.filter fun pod => pod.phase = .pending)
    health.pendingPods
  failedRows : ListsFirst query.topN (pods.filter fun pod => pod.phase = .failed) health.failedPods

section Sorted

variable {pods more : List Pod}

theorem by_key_total (a b : Pod) : (byKey a b || byKey b a) = true :=
  ObjectName.is_le_total a.key b.key

theorem by_key_trans (a b c : Pod) (first : byKey a b = true) (second : byKey b c = true) :
    byKey a c = true := Std.TransCmp.isLE_trans first second

/-- Pods with keys of their own stand in one order only. -/
theorem sorted_strictly (distinct : (pods.map Pod.key).Nodup) :
    (pods.mergeSort byKey).Pairwise NamesAhead := by
  have sorted : (pods.mergeSort byKey).Pairwise fun a b => byKey a b = true :=
    List.pairwise_mergeSort by_key_trans by_key_total pods
  have apart : (pods.mergeSort byKey).Pairwise fun a b => a.key ≠ b.key :=
    List.pairwise_map.mp (((List.mergeSort_perm pods byKey).map Pod.key).nodup_iff.mpr distinct)
  refine (sorted.and apart).imp fun {a b} ⟨le, differ⟩ => ?_
  cases order : compare a.key b.key with
  | lt => exact order
  | eq => exact absurd (Std.LawfulEqOrd.eq_of_compare order) differ
  | gt => simp [byKey, order] at le

theorem sorted_same (distinct : (pods.map Pod.key).Nodup) (same : more.Perm pods) :
    more.mergeSort byKey = pods.mergeSort byKey := by
  have distinct' : (more.map Pod.key).Nodup := (same.map Pod.key).nodup_iff.mpr distinct
  refine List.Perm.eq_of_pairwise
    (fun a b _ _ ahead behind => absurd behind (names_ahead_asymm ahead))
    (sorted_strictly distinct') (sorted_strictly distinct) ?_
  exact (List.mergeSort_perm more byKey).trans (same.trans (List.mergeSort_perm pods byKey).symm)

theorem rows_first (distinct : (pods.map Pod.key).Nodup) (phase : Phase) (wanted : Nat) :
    ListsFirst wanted (pods.filter fun pod => pod.phase = phase)
      (((inPhase phase (pods.mergeSort byKey)).take wanted).map .ofPod) := by
  have sorted : (inPhase phase (pods.mergeSort byKey)).Pairwise NamesAhead :=
    (sorted_strictly distinct).filter _
  have same : (inPhase phase (pods.mergeSort byKey)).Perm
      (pods.filter fun pod => pod.phase = phase) := (List.mergeSort_perm pods byKey).filter _
  have parts := (List.take_append_drop wanted (inPhase phase (pods.mergeSort byKey))).symm
  rw [parts, List.pairwise_append] at sorted
  refine ⟨_, _, ?_, rfl, ?_, sorted.1, sorted.2.2⟩
  · rwa [← parts]
  · rw [List.length_take, same.length_eq]

end Sorted

theorem tally_describes (query : Query) (pods : List Pod) (distinct : (pods.map Pod.key).Nodup) :
    Describes query pods (tally query pods) := by
  have same := List.mergeSort_perm pods byKey
  have counted (phase : Phase) :
      (inPhase phase (pods.mergeSort byKey)).length = countIn phase pods :=
    (length_in_phase phase _).trans (same.countP_eq _)
  constructor
  · exact same.length_eq
  · exact counted .running
  · exact counted .pending
  · exact counted .failed
  · dsimp only [tally]
    rw [counted, counted, counted, same.length_eq]
    exact phases_counted pods
  · exact rows_first distinct .pending query.topN
  · exact rows_first distinct .failed query.topN

/-- A page tells of pods with keys of their own what it is to tell, whatever the order in which they
are listed, and over pods in memory it tells of those that are stored and asked for. -/
theorem pages_describe :
    (∀ (query : Query) (pods : List Pod), (pods.map Pod.key).Nodup →
      ∃ health, answer query (.ok pods) = .ok health ∧ Describes query pods health ∧
        ∀ more : List Pod, more.Perm pods → answer query (.ok more) = .ok health) ∧
    ∀ (store : PodStore) (query : Query), store.Built →
      ∃ health, answer query (.ok (store.list query.scope)) = .ok health ∧
        Describes query (store.matching query) health := by
  constructor
  · intro query pods distinct
    refine ⟨tally query pods, rfl, tally_describes query pods distinct, fun more same => ?_⟩
    simp only [answer, tally, sorted_same distinct same]
  · intro store query built
    rw [store.list_matching]
    exact ⟨_, rfl, tally_describes query _ (store.matching_distinct query built)⟩

def waitingPod (name : String) (phase : Phase) : Pod :=
  ⟨"perf", name, "u-" ++ name, .epoch, "", phase, "", "", .ofList [("app", "sut")], ∅⟩

def crossedPods : List Pod :=
  [waitingPod "c" .pending, waitingPod "b" .failed, waitingPod "a" .pending, waitingPod "d" .unknown]

def patchedPods : PodStore :=
  ((PodStore.empty.upsert (waitingPod "a" .pending)).patch ⟨"perf", "a"⟩
    (.ofList [(startKey, "")])).2.upsert (waitingPod "b" .running)

theorem crossed_pods_described :
    (crossedPods.map Pod.key).Nodup ∧
    (∃ health, answer ⟨none, .empty, 1⟩ (.ok crossedPods) = .ok health ∧
      Describes ⟨none, .empty, 1⟩ crossedPods health ∧
      answer ⟨none, .empty, 1⟩ (.ok crossedPods.reverse) = .ok health) ∧
    patchedPods.Built ∧
    ∃ health, answer ⟨some "", ⟨.ofList [("app", "sut")]⟩, 0⟩
        (.ok (patchedPods.list (.of (some "") ⟨.ofList [("app", "sut")]⟩))) = .ok health ∧
      Describes ⟨some "", ⟨.ofList [("app", "sut")]⟩, 0⟩
        (patchedPods.matching ⟨some "", ⟨.ofList [("app", "sut")]⟩, 0⟩) health := by
  have distinct : (crossedPods.map Pod.key).Nodup := by decide
  have built : patchedPods.Built := .upsert _ _ (.patch _ _ _ (.upsert _ _ .empty))
  obtain ⟨health, answered, describes, anyOrder⟩ :=
    pages_describe.1 ⟨none, .empty, 1⟩ crossedPods distinct
  exact ⟨distinct, ⟨health, answered, describes, anyOrder _ crossedPods.reverse_perm⟩, built,
    pages_describe.2 patchedPods _ built⟩

end PodHealth
end StartupLatency
