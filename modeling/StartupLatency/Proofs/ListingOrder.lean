import StartupLatency.Proofs.LatencyListings

/-!
Whether a summary depends on the order in which its records are listed. The counts and percentiles
do not. The sorts keep elements that tie in the order in which they came, so that the rows depend on
it exactly when two different ones tie before the listing is cut off, as those of a pod that was
deleted and created again do.
-/

namespace StartupLatency

section Sorting

variable {α : Type} {le : α → α → Bool}

/-- An element that none of the others precedes goes right behind those that have to be ahead. -/
theorem first_among_ties (total : ∀ a b, (le a b || le b a) = true)
    (trans : ∀ a b c, le a b = true → le b c = true → le a c = true) (a : α) (rest : List α) :
    ((a :: rest).mergeSort le)[strictlyAhead le a (a :: rest)]? = some a := by
  obtain ⟨ahead, behind, sorted, -, strict⟩ := List.mergeSort_cons trans total a rest
  have ordered := List.pairwise_mergeSort trans total (a :: rest)
  have everybody : ahead.length ≤ strictlyAhead le a (ahead ++ a :: behind) := by
    rw [strictlyAhead, List.countP_append, List.countP_eq_length.mpr strict]
    exact Nat.le_add_right _ _
  rw [sorted] at ordered
  have place : strictlyAhead le a (a :: rest) = ahead.length := by
    rw [strictlyAhead, ← (List.mergeSort_perm (a :: rest) le).countP_eq, sorted]
    exact Nat.le_antisymm (ahead_le_rank total ordered) everybody
  rw [place, sorted, List.getElem?_append_right (Nat.le_refl _), Nat.sub_self]
  rfl

theorem ahead_of_tied (trans : ∀ a b c, le a b = true → le b c = true → le a c = true) {a b : α}
    (ab : le a b = true) (ba : le b a = true) (all : List α) :
    strictlyAhead le a all = strictlyAhead le b all := by
  refine List.countP_congr fun other _ => ?_
  have same : le a other = le b other := Bool.eq_iff_iff.mpr
    ⟨trans b a other ba, trans a b other ab⟩
  rw [same]

/-- Two different elements that tie have to be beyond the cut, or their order shows. -/
theorem tied_beyond_cut (total : ∀ a b, (le a b || le b a) = true)
    (trans : ∀ a b c, le a b = true → le b c = true → le a c = true) {a b : α} {rest : List α}
    {cut : Nat} (ab : le a b = true) (ba : le b a = true) (differ : a ≠ b)
    (same : ((b :: a :: rest).mergeSort le).take cut = ((a :: b :: rest).mergeSort le).take cut) :
    cut ≤ strictlyAhead le a (a :: b :: rest) := by
  rcases Nat.lt_or_ge (strictlyAhead le a (a :: b :: rest)) cut with shown | beyond
  · exfalso
    have first := first_among_ties total trans a (b :: rest)
    have second := first_among_ties total trans b (a :: rest)
    have place : strictlyAhead le b (b :: a :: rest) = strictlyAhead le a (a :: b :: rest) := by
      rw [ahead_of_tied trans ab ba, strictlyAhead, strictlyAhead,
        (List.Perm.swap a b rest).countP_eq]
    rw [place, ← List.getElem?_take_of_lt shown, same, List.getElem?_take_of_lt shown, first]
      at second
    exact differ (Option.some.inj second)
  · exact beyond

/-- So many are ahead of the element in a place at most, and more are not behind it. -/
theorem place_between (total : ∀ a b, (le a b || le b a) = true)
    (trans : ∀ a b c, le a b = true → le b c = true → le a c = true) {all : List α} {place : Nat}
    {a : α} (there : (all.mergeSort le)[place]? = some a) :
    strictlyAhead le a all ≤ place ∧ place < all.countP fun other => le other a := by
  obtain ⟨within, rfl⟩ := List.getElem?_eq_some_iff.mp there
  have same := List.mergeSort_perm all le
  have ordered := List.pairwise_mergeSort trans total all
  have split : (all.mergeSort le).take place ++
      (all.mergeSort le)[place] :: (all.mergeSort le).drop (place + 1) = all.mergeSort le := by
    rw [List.cons_getElem_drop_succ, List.take_append_drop]
  have before : ((all.mergeSort le).take place).length = place :=
    List.length_take_of_le (Nat.le_of_lt within)
  rw [← split] at ordered
  have least := ahead_le_rank total ordered
  have most := rank_lt_upto total ordered
  rw [before, split] at least most
  rw [strictlyAhead, same.countP_eq] at least
  rw [same.countP_eq] at most
  exact ⟨least, most⟩

/-- Elements that may both stand in one place tie. -/
theorem same_place_le (trans : ∀ a b c, le a b = true → le b c = true → le a c = true)
    {all : List α} {place : Nat} {a b : α} (least : strictlyAhead le a all ≤ place)
    (most : place < all.countP fun other => le other b) : le a b = true := by
  by_contra later
  have upto : (all.countP fun other => le other b) ≤ strictlyAhead le a all := by
    refine List.countP_mono_left fun other _ before => ?_
    rw [Bool.not_eq_true', Bool.eq_false_iff]
    exact fun behind => later (trans a other b behind before)
  omega

theorem take_same_of_ties_beyond (total : ∀ a b, (le a b || le b a) = true)
    (trans : ∀ a b c, le a b = true → le b c = true → le a c = true) {all more : List α} {cut : Nat}
    (same : more.Perm all)
    (beyond : ∀ a ∈ all, ∀ b ∈ all, le a b = true → le b a = true → a ≠ b →
      cut ≤ strictlyAhead le a all) :
    (more.mergeSort le).take cut = (all.mergeSort le).take cut := by
  refine List.ext_getElem? fun place => ?_
  rcases Nat.lt_or_ge place cut with shown | hidden
  · rw [List.getElem?_take_of_lt shown, List.getElem?_take_of_lt shown]
    have size : (more.mergeSort le).length = (all.mergeSort le).length := by
      rw [List.length_mergeSort, List.length_mergeSort, same.length_eq]
    rcases Nat.lt_or_ge place (all.mergeSort le).length with within | outside
    · have here := List.getElem?_eq_getElem within
      have there := List.getElem?_eq_getElem (size.symm ▸ within : place < (more.mergeSort le).length)
      have mine := place_between total trans here
      have other := place_between total trans there
      rw [strictlyAhead, same.countP_eq, same.countP_eq] at other
      have member := List.mem_mergeSort.mp (List.getElem_mem within)
      have member' := same.mem_iff.mp (List.mem_mergeSort.mp
        (List.getElem_mem (size.symm ▸ within : place < (more.mergeSort le).length)))
      rw [here, there]
      by_contra differ
      have cut := beyond _ member _ member' (same_place_le trans mine.1 other.2)
        (same_place_le trans other.1 mine.2) fun equal => differ (congrArg some equal.symm)
      omega
    · rw [List.getElem?_eq_none outside, List.getElem?_eq_none (size ▸ outside)]
  · rw [List.getElem?_take_eq_none hidden, List.getElem?_take_eq_none hidden]

/-- The rows do not depend on the order of the elements exactly if those that differ and tie are
beyond the cut. -/
theorem order_settled_iff {β : Type} [DecidableEq β] (total : ∀ a b, (le a b || le b a) = true)
    (trans : ∀ a b c, le a b = true → le b c = true → le a c = true) (row : β → α) (cut : Nat)
    (all : List β) :
    (∀ more : List β, more.Perm all →
      ((more.map row).mergeSort le).take cut = ((all.map row).mergeSort le).take cut) ↔
    ∀ a ∈ all.map row, ∀ b ∈ all.map row, a ≠ b → le a b = true → le b a = true →
      cut ≤ strictlyAhead le a (all.map row) := by
  constructor
  · intro settled a mem b mem' differ ab ba
    obtain ⟨first, member, rfl⟩ := List.mem_map.mp mem
    obtain ⟨second, member', rfl⟩ := List.mem_map.mp mem'
    have distinct : second ≠ first := fun same => differ (congrArg row same.symm)
    have found := (List.perm_cons_erase member).trans
      ((List.perm_cons_erase ((List.mem_erase_of_ne distinct).mpr member')).cons first)
    have forth := settled _ found.symm
    have back := settled _ ((List.Perm.swap first second _).trans found.symm)
    have beyond := tied_beyond_cut total trans ab ba differ (back.trans forth.symm)
    rwa [strictlyAhead, (found.map row).countP_eq]
  · intro beyond more same
    refine take_same_of_ties_beyond total trans (same.map row) fun a mem b mem' ab ba differ => ?_
    exact beyond a mem b mem' differ ab ba

end Sorting

theorem ObjectName.is_le_both (a b : ObjectName) :
    (compare a b).isLE = true ∧ (compare b a).isLE = true ↔ a = b := by
  constructor
  · rintro ⟨ab, ba⟩
    cases order : compare a b with
    | eq => exact Std.LawfulEqOrd.eq_of_compare order
    | lt => simp [Std.OrientedCmp.gt_of_lt order] at ba
    | gt => simp [order] at ab
  · rintro rfl
    simp [Std.ReflCmp.compare_self]

namespace LatencySummary

theorem by_name_both (a b : UnmeasuredPod) :
    byName a b = true ∧ byName b a = true ↔ a.ns = b.ns ∧ a.name = b.name := by
  rw [byName, byName, ObjectName.is_le_both, ObjectName.mk.injEq]

theorem slower_first_both (a b : SlowPod) :
    slowerFirst a b = true ∧ slowerFirst b a = true ↔
      a.ns = b.ns ∧ a.name = b.name ∧ a.value = b.value := by
  have names := ObjectName.is_le_both ⟨a.ns, a.name⟩ ⟨b.ns, b.name⟩
  rw [ObjectName.mk.injEq] at names
  rw [slower_first_cases, slower_first_cases]
  constructor
  · rintro ⟨less | ⟨same, le⟩, less' | ⟨same', le'⟩⟩
    · exact absurd (Int.lt_trans less less') (Int.lt_irrefl _)
    · exact absurd same' (Int.ne_of_lt less)
    · exact absurd same (Int.ne_of_lt less')
    · have equal := names.mp ⟨le, le'⟩
      exact ⟨equal.1, equal.2, same⟩
  · rintro ⟨ns, name, value⟩
    have both := names.mpr ⟨ns, name⟩
    exact ⟨Or.inr ⟨value, both.1⟩, Or.inr ⟨value.symm, both.2⟩⟩

variable {metric : LatencyMetric} {records more : List Record}

def slowRows (metric : LatencyMetric) (records : List Record) : List SlowPod :=
  (successes metric records).map (slowPod metric)

def unmeasuredRows (metric : LatencyMetric) (records : List Record) : List UnmeasuredPod :=
  (failures metric records).map unmeasuredPod

theorem same_samples (metric : LatencyMetric) (same : more.Perm records) :
    samples metric more = samples metric records := by
  refine List.Perm.eq_of_pairwise (fun a b _ _ => Int.le_antisymm) (samples_sorted metric more)
    (samples_sorted metric records) ?_
  refine (samples_perm metric more).trans (.trans ?_ (samples_perm metric records).symm)
  exact (same.filter (isMeasured metric)).map fun record => metric.value record.spec

/-- Counts and percentiles are the same in every order, so that the rows decide. -/
theorem same_summary_iff (same : more.Perm records) (topN : Nat) :
    ofRecords metric more topN = ofRecords metric records topN ↔
      ((slowRows metric more).mergeSort slowerFirst).take topN =
          ((slowRows metric records).mergeSort slowerFirst).take topN ∧
        ((unmeasuredRows metric more).mergeSort byName).take topN =
          ((unmeasuredRows metric records).mergeSort byName).take topN := by
  simp only [slowRows, unmeasuredRows, ← filter_measured, ← filter_unmeasured]
  constructor
  · intro equal
    exact ⟨congrArg worstPods equal, congrArg failedPods equal⟩
  · rintro ⟨worst, failed⟩
    have measured := (same.filter (isMeasured metric)).length_eq
    have unmeasured := (same.filter fun record => !isMeasured metric record).length_eq
    have values := same_samples metric same
    unfold samples at values
    simp only [ofRecords, values, worst, failed, measured, unmeasured]

theorem parts_apart {measured rest : List Record}
    (good : measured.Perm (successes metric records)) (bad : rest.Perm (failures metric records)) :
    successes metric (measured ++ rest) = measured ∧ failures metric (measured ++ rest) = rest := by
  have good' (record : Record) (member : record ∈ measured) : Succeeds metric record :=
    of_decide_eq_true (List.mem_filter.mp (good.mem_iff.mp member)).2
  have bad' (record : Record) (member : record ∈ rest) : ¬ Succeeds metric record :=
    of_decide_eq_true (List.mem_filter.mp (bad.mem_iff.mp member)).2
  constructor
  · rw [successes, List.filter_append, List.filter_eq_self.mpr, List.filter_eq_nil_iff.mpr,
      List.append_nil]
    · exact fun record member => mt of_decide_eq_true (bad' record member)
    · exact fun record member => decide_eq_true (good' record member)
  · rw [failures, List.filter_append, List.filter_eq_nil_iff.mpr, List.filter_eq_self.mpr,
      List.nil_append]
    · exact fun record member => decide_eq_true (bad' record member)
    · exact fun record member => mt of_decide_eq_true (not_not_intro (good' record member))

/-- A summary is the same in every order of its records exactly if its rows are settled by the sort
keys: of two rows that differ but agree in namespace, name and latency, neither is among those that
are listed. Pods that are created again under their name have such rows, told apart by the uid. -/
theorem order_immaterial_iff (metric : LatencyMetric) (records : List Record) (topN : Nat) :
    (∀ more : List Record, more.Perm records →
      ofRecords metric more topN = ofRecords metric records topN) ↔
    (∀ a ∈ slowRows metric records, ∀ b ∈ slowRows metric records, a ≠ b →
      a.ns = b.ns ∧ a.name = b.name ∧ a.value = b.value →
      topN ≤ strictlyAhead slowerFirst a (slowRows metric records)) ∧
    ∀ a ∈ unmeasuredRows metric records, ∀ b ∈ unmeasuredRows metric records, a ≠ b →
      a.ns = b.ns ∧ a.name = b.name →
      topN ≤ strictlyAhead byName a (unmeasuredRows metric records) := by
  have slow := order_settled_iff slower_first_total slower_first_trans (slowPod metric) topN
    (successes metric records)
  have unmeasured := order_settled_iff by_name_total by_name_trans unmeasuredPod topN
    (failures metric records)
  simp only [← and_imp, slower_first_both, by_name_both] at slow unmeasured
  simp only [← and_imp]
  constructor
  · intro settled
    have rows {measured rest : List Record} (good : measured.Perm (successes metric records))
        (bad : rest.Perm (failures metric records)) :=
      (same_summary_iff ((good.append bad).trans (parted metric records)) topN).mp
        (settled _ ((good.append bad).trans (parted metric records)))
    constructor
    · refine slow.mp fun more same => ?_
      have equal := (rows same (List.Perm.refl _)).1
      rwa [slowRows, (parts_apart same (List.Perm.refl _)).1] at equal
    · refine unmeasured.mp fun more same => ?_
      have equal := (rows (List.Perm.refl _) same).2
      rwa [unmeasuredRows, (parts_apart (List.Perm.refl _) same).2] at equal
  · rintro ⟨slowest, named⟩ more same
    refine (same_summary_iff same topN).mpr ⟨slow.mpr slowest _ ?_, unmeasured.mpr named _ ?_⟩
    · exact same.filter _
    · exact same.filter _

def unreported (uid name : String) : Record :=
  ⟨"perf", Record.nameFor uid, some "1",
    ⟨⟨"perf", name, uid, "node-1"⟩, ⟨"1970-01-01T00:00:00Z", "", ""⟩, ⟨0, 0⟩, ∅⟩⟩

theorem recreated_pod_unsettled :
    ¬ ∀ (metric : LatencyMetric) (topN : Nat) (records more : List Record),
      records.Pairwise (fun a b =>
        (a.ns, a.name) ≠ (b.ns, b.name) ∧ a.spec.podRef.uid ≠ b.spec.podRef.uid) →
      more.Perm records → ofRecords metric more topN = ofRecords metric records topN := by
  intro settled
  have listed (first second : String) :
      (ofRecords .timeToStart [unreported first "a", unreported second "a"] 1).failedPods =
        [unmeasuredPod (unreported first "a")] := by
    have tied : [unmeasuredPod (unreported first "a"), unmeasuredPod (unreported second "a")].Pairwise
        fun a b => byName a b = true :=
      List.pairwise_pair.mpr ((by_name_both _ _).mpr ⟨rfl, rfl⟩).1
    exact congrArg (List.take 1) (List.mergeSort_of_pairwise tied)
  have same := settled .timeToStart 1 [unreported "u" "a", unreported "v" "a"]
    [unreported "v" "a", unreported "u" "a"] (by decide) (by decide)
  have rows := congrArg failedPods same
  rw [listed, listed] at rows
  exact absurd rows (by decide)

end LatencySummary

end StartupLatency
