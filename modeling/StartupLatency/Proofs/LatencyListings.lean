import StartupLatency.Proofs.MeasuredPods
import StartupLatency.Proofs.NearestRank

/-!
What a summary tells of the records that it is made of. Every record counts once, as a success or
as a failure. The rows are those of the first successes and failures in their order, each record
showing in one row at most, and the percentiles are values of successes. Over the store in memory
the records are those that the query asks for.
-/

namespace StartupLatency

namespace Record

def podName (record : Record) : ObjectName := ⟨record.spec.podRef.ns, record.spec.podRef.name⟩

end Record

theorem ObjectName.is_le_total (a b : ObjectName) :
    ((compare a b).isLE || (compare b a).isLE) = true := by
  cases order : compare a b with
  | gt => simp [Std.OrientedCmp.lt_of_gt order]
  | _ => rfl

namespace LatencySummary

/-- The timestamp is there, and the latency is positive. -/
def Succeeds (metric : LatencyMetric) (record : Record) : Prop :=
  metric.timestamp record.spec ≠ "" ∧ 0 < metric.value record.spec

instance (metric : LatencyMetric) (record : Record) : Decidable (Succeeds metric record) :=
  inferInstanceAs (Decidable (_ ∧ _))

def successes (metric : LatencyMetric) (records : List Record) : List Record :=
  records.filter fun record => decide (Succeeds metric record)

def failures (metric : LatencyMetric) (records : List Record) : List Record :=
  records.filter fun record => decide (¬ Succeeds metric record)

theorem is_measured_eq (metric : LatencyMetric) (record : Record) :
    isMeasured metric record = decide (Succeeds metric record) := by
  rw [Bool.eq_iff_iff, decide_eq_true_eq, isMeasured, Bool.and_eq_true, bne_iff_ne,
    decide_eq_true_eq, Succeeds]

theorem filter_measured (metric : LatencyMetric) (records : List Record) :
    records.filter (isMeasured metric) = successes metric records :=
  List.filter_congr fun record _ => is_measured_eq metric record

theorem filter_unmeasured (metric : LatencyMetric) (records : List Record) :
    (records.filter fun record => !isMeasured metric record) = failures metric records :=
  List.filter_congr fun record _ => by rw [is_measured_eq, decide_not]

theorem parted (metric : LatencyMetric) (records : List Record) :
    (successes metric records ++ failures metric records).Perm records := by
  rw [← filter_measured, ← filter_unmeasured]
  exact List.filter_append_perm _ _

def SlowestFirst (metric : LatencyMetric) (a b : Record) : Prop :=
  metric.value b.spec ≤ metric.value a.spec ∧
    (metric.value a.spec = metric.value b.spec → (compare a.podName b.podName).isLE = true)

def NamesAscend (a b : Record) : Prop := (compare a.podName b.podName).isLE = true

theorem slower_first_cases (a b : SlowPod) :
    slowerFirst a b = true ↔
      b.value < a.value ∨
        (a.value = b.value ∧
          (compare (ObjectName.mk a.ns a.name) ⟨b.ns, b.name⟩).isLE = true) := by
  simp only [slowerFirst, Bool.or_eq_true, Bool.and_eq_true, decide_eq_true_eq, beq_iff_eq]

theorem slower_first_iff (metric : LatencyMetric) (a b : Record) :
    slowerFirst (slowPod metric a) (slowPod metric b) = true ↔ SlowestFirst metric a b := by
  rw [slower_first_cases]
  constructor
  · rintro (less | ⟨same, names⟩)
    · exact ⟨Int.le_of_lt less, fun same => absurd same (Int.ne_of_gt less)⟩
    · exact ⟨Int.le_of_eq same.symm, fun _ => names⟩
  · rintro ⟨le, names⟩
    rcases Int.lt_or_eq_of_le le with less | same
    · exact Or.inl less
    · exact Or.inr ⟨same.symm, names same.symm⟩

theorem slower_first_total (a b : SlowPod) : (slowerFirst a b || slowerFirst b a) = true := by
  rw [Bool.or_eq_true, slower_first_cases, slower_first_cases]
  rcases Int.lt_trichotomy a.value b.value with less | same | more
  · exact Or.inr (Or.inl less)
  · have names := ObjectName.is_le_total ⟨a.ns, a.name⟩ ⟨b.ns, b.name⟩
    rw [Bool.or_eq_true] at names
    exact names.imp (fun le => Or.inr ⟨same, le⟩) fun le => Or.inr ⟨same.symm, le⟩
  · exact Or.inl (Or.inl more)

theorem slower_first_trans (a b c : SlowPod) (first : slowerFirst a b = true)
    (second : slowerFirst b c = true) : slowerFirst a c = true := by
  rw [slower_first_cases] at *
  rcases first with less | ⟨same, names⟩ <;> rcases second with less' | ⟨same', names'⟩
  · exact Or.inl (Int.lt_trans less' less)
  · exact Or.inl (same' ▸ less)
  · exact Or.inl (same ▸ less')
  · exact Or.inr ⟨same.trans same', Std.TransCmp.isLE_trans names names'⟩

theorem by_name_iff (a b : Record) :
    byName (unmeasuredPod a) (unmeasuredPod b) = true ↔ NamesAscend a b := Iff.rfl

theorem by_name_total (a b : UnmeasuredPod) : (byName a b || byName b a) = true :=
  ObjectName.is_le_total _ _

theorem by_name_trans (a b c : UnmeasuredPod) (first : byName a b = true)
    (second : byName b c = true) : byName a c = true := Std.TransCmp.isLE_trans first second

/-- The rows are those of the first elements in an order, as many as are wanted or there are. -/
def ShowsFirst {β : Type} (before : Record → Record → Prop) (row : Record → β) (wanted : Nat)
    (all : List Record) (rows : List β) : Prop :=
  ∃ listed left : List Record, (listed ++ left).Perm all ∧ rows = listed.map row ∧
    listed.length = min wanted all.length ∧ listed.Pairwise before ∧
    ∀ a ∈ listed, ∀ b ∈ left, before a b

theorem shows_first {β : Type} {before : Record → Record → Prop} {row : Record → β}
    {le : β → β → Bool} (total : ∀ a b, (le a b || le b a) = true)
    (trans : ∀ a b c, le a b = true → le b c = true → le a c = true)
    (ranks : ∀ a b, le (row a) (row b) = true ↔ before a b) (wanted : Nat) (all : List Record) :
    ShowsFirst before row wanted all (((all.map row).mergeSort le).take wanted) := by
  let ahead (a b : Record) : Bool := le (row a) (row b)
  have sorted : (all.mergeSort ahead).Pairwise before :=
    (List.pairwise_mergeSort (fun a b c => trans (row a) (row b) (row c))
      (fun a b => total (row a) (row b)) all).imp fun {a b} le => (ranks a b).mp le
  have rows : (all.mergeSort ahead).map row = (all.map row).mergeSort le :=
    List.map_mergeSort fun a _ b _ => rfl
  have parts := (List.take_append_drop wanted (all.mergeSort ahead)).symm
  rw [parts, List.pairwise_append] at sorted
  refine ⟨_, _, ?_, ?_, ?_, sorted.1, sorted.2.2⟩
  · rw [← parts]
    exact List.mergeSort_perm all ahead
  · rw [← rows, List.map_take]
  · rw [List.length_take, List.length_mergeSort]

/-- What a summary tells of the records, with so many rows wanted. -/
structure Describes (metric : LatencyMetric) (records : List Record) (topN : Nat)
    (summary : LatencySummary) : Prop where
  count : summary.count = (successes metric records).length
  successful : summary.successful = (successes metric records).length
  failed : summary.failed = (failures metric records).length
  complete : summary.successful + summary.failed = records.length
  worst : ShowsFirst (SlowestFirst metric) (slowPod metric) topN (successes metric records)
    summary.worstPods
  unmeasured : ShowsFirst NamesAscend unmeasuredPod topN (failures metric records)
    summary.failedPods
  blank : successes metric records = [] →
    summary.p50 = 0 ∧ summary.p90 = 0 ∧ summary.p99 = 0
  percentiles : successes metric records ≠ [] →
    ∀ value ∈ [summary.p50, summary.p90, summary.p99],
      (∃ record ∈ successes metric records, metric.value record.spec = value) ∧
      (0 < topN → ∃ worst rest, summary.worstPods = worst :: rest ∧ value ≤ worst.value)

section Percentiles

variable {metric : LatencyMetric} {records : List Record}

theorem samples_success (sample : Int) :
    sample ∈ samples metric records ↔
      ∃ record ∈ successes metric records, metric.value record.spec = sample := by
  rw [(samples_perm metric records).mem_iff, filter_measured, List.mem_map]

theorem samples_none : samples metric records = [] ↔ successes metric records = [] := by
  rw [← List.length_eq_zero_iff, (samples_perm metric records).length_eq, List.length_map,
    List.length_eq_zero_iff, filter_measured]

theorem percentile_success (some : successes metric records ≠ []) {quantile : Quantile}
    (proper : quantile.Proper) :
    ∃ record ∈ successes metric records,
      metric.value record.spec = percentile (samples metric records) quantile := by
  obtain ⟨before, after, split, _⟩ := percentile_splits (mt samples_none.mp some) proper
  refine (samples_success _).mp ?_
  have member : percentile (samples metric records) quantile ∈
      before ++ percentile (samples metric records) quantile :: after :=
    List.mem_append_right _ List.mem_cons_self
  rwa [← split] at member

/-- No success is slower than the first one that is listed. -/
theorem worst_bounds {topN : Nat} {rows : List SlowPod} (wanted : 0 < topN)
    (shows : ShowsFirst (SlowestFirst metric) (slowPod metric) topN (successes metric records) rows)
    (record : Record) (member : record ∈ successes metric records) :
    ∃ worst rest, rows = worst :: rest ∧ metric.value record.spec ≤ worst.value := by
  obtain ⟨listed, left, same, rfl, length, sorted, above⟩ := shows
  have some := List.length_pos_of_mem member
  cases listed with
  | nil =>
    rw [List.length_nil] at length
    omega
  | cons first others =>
    refine ⟨slowPod metric first, others.map (slowPod metric), rfl, ?_⟩
    change metric.value record.spec ≤ metric.value first.spec
    rcases List.mem_append.mp (same.mem_iff.mpr member) with listed | unlisted
    · rcases List.mem_cons.mp listed with rfl | later
      · exact Int.le_refl _
      · exact ((List.pairwise_cons.mp sorted).1 record later).1
    · exact (above first List.mem_cons_self record unlisted).1

end Percentiles

theorem of_records_describes (metric : LatencyMetric) (records : List Record) (topN : Nat) :
    Describes metric records topN (ofRecords metric records topN) := by
  have size : (samples metric records).length = (successes metric records).length := by
    rw [(samples_perm metric records).length_eq, List.length_map, filter_measured]
  have worst : ShowsFirst (SlowestFirst metric) (slowPod metric) topN (successes metric records)
      (ofRecords metric records topN).worstPods := by
    rw [← filter_measured]
    exact shows_first slower_first_total slower_first_trans (slower_first_iff metric) topN _
  have share {value : Int} {quantile : Quantile} (proper : quantile.Proper)
      (shown : value = percentile (samples metric records) quantile)
      (some : successes metric records ≠ []) :
      (∃ record ∈ successes metric records, metric.value record.spec = value) ∧
      (0 < topN → ∃ slowest rest, (ofRecords metric records topN).worstPods = slowest :: rest ∧
        value ≤ slowest.value) := by
    obtain ⟨record, member, same⟩ := percentile_success some proper
    rw [shown, ← same]
    exact ⟨⟨record, member, rfl⟩, fun wanted => worst_bounds wanted worst record member⟩
  constructor
  · exact size
  · exact congrArg List.length (filter_measured metric records)
  · exact congrArg List.length (filter_unmeasured metric records)
  · rw [← (parted metric records).length_eq, List.length_append, ← filter_measured,
      ← filter_unmeasured]
    rfl
  · exact worst
  · rw [← filter_unmeasured]
    exact shows_first by_name_total by_name_trans by_name_iff topN _
  · intro none
    have nothing : samples metric records = [] := samples_none.mpr none
    simp only [ofRecords]
    rw [← samples, nothing]
    exact ⟨rfl, rfl, rfl⟩
  · intro some value member
    simp only [List.mem_cons, List.not_mem_nil, or_false] at member
    rcases member with median | ninety | ninetyNine
    · exact share Quantile.median_proper median some
    · exact share Quantile.ninety_proper ninety some
    · exact share Quantile.ninety_nine_proper ninetyNine some

end LatencySummary

namespace Query

theorem covers_iff_matches {query : Query} {ns : String} {labels : Labels} :
    query.scope.covers ns labels = true ↔ query.Matches ns labels := by
  refine ⟨fun covers => ?_, covers_of_matches⟩
  obtain ⟨within, fulfilled⟩ := Bool.and_eq_true_iff.mp covers
  constructor
  · cases asked : query.ns? with
    | none => exact Or.inl rfl
    | some wanted =>
      refine Or.inr ?_
      by_cases blank : wanted = ""
      · exact Or.inl (congrArg some blank)
      · refine Or.inr (congrArg some ?_)
        simpa [scope, Scope.of, asked, Option.filter, String.isEmpty_iff, blank] using within
  · intro key value asked
    have kept := List.all_eq_true.mp fulfilled (key, value) (SortedMap.mem_of_lookupIn asked)
    simpa using kept

instance (query : Query) (ns : String) (labels : Labels) : Decidable (query.Matches ns labels) :=
  decidable_of_iff _ covers_iff_matches

end Query

namespace LatencySummary

/-- A summary tells of every record what it is to tell, and over the store in memory the records are
those that are stored and asked for, each one once. -/
theorem summary_describes :
    (∀ (metric : LatencyMetric) (records : List Record) (topN : Nat),
      Describes metric records topN (ofRecords metric records topN)) ∧
    ∀ (metric : LatencyMetric) (store : RecordStore) (query : Query),
      ∃ summary, answer metric query (.ok (store.list query.scope)) = .ok summary ∧
        Describes metric (store.list query.scope) query.topN summary ∧
        (successes metric (store.list query.scope) ++
            failures metric (store.list query.scope)).Perm
          (store.records.values.filter fun record =>
            decide (query.Matches record.ns record.spec.labels)) := by
  refine ⟨of_records_describes, fun metric store query => ?_⟩
  refine ⟨_, rfl, of_records_describes metric _ query.topN, (parted metric _).trans ?_⟩
  have asked : store.list query.scope =
      store.records.values.filter fun record =>
        decide (query.Matches record.ns record.spec.labels) :=
    List.filter_congr fun record _ => Bool.eq_iff_iff.mpr (by
      rw [decide_eq_true_eq, Query.covers_iff_matches])
  rw [asked]

end LatencySummary
end StartupLatency
