import Mathlib.Algebra.Order.Floor.Semifield
import Mathlib.Data.Rat.Floor
import StartupLatency.Aggregate.Latency

/-!
Ranks in a sorted listing, and the percentiles that are read off them. A listing is taken apart at
one element: what stands ahead of it, the element, what stands behind. A percentile is the element
at the floor of its share of the ranks, so that a larger share and a longer listing both move it
toward the end.
-/

namespace StartupLatency

section Ranks

variable {α : Type} {le : α → α → Bool} {before after : List α} {x : α}

def strictlyAhead (le : α → α → Bool) (x : α) (all : List α) : Nat :=
  all.countP fun other => !le x other

theorem self_not_ahead (total : ∀ a b, (le a b || le b a) = true) (a : α) : le a a = true := by
  simpa using total a a

theorem ahead_le_rank (total : ∀ a b, (le a b || le b a) = true)
    (sorted : (before ++ x :: after).Pairwise fun a b => le a b = true) :
    strictlyAhead le x (before ++ x :: after) ≤ before.length := by
  have behind := (List.pairwise_cons.mp (List.pairwise_append.mp sorted).2.1).1
  have nobody : (x :: after).countP (fun other => !le x other) = 0 := by
    refine List.countP_eq_zero.mpr fun other member => ?_
    rcases List.mem_cons.mp member with rfl | later
    · simp [self_not_ahead total other]
    · simp [behind other later]
  rw [strictlyAhead, List.countP_append, nobody]
  exact List.countP_le_length

theorem rank_lt_upto (total : ∀ a b, (le a b || le b a) = true)
    (sorted : (before ++ x :: after).Pairwise fun a b => le a b = true) :
    before.length < (before ++ x :: after).countP fun other => le other x := by
  have ahead := (List.pairwise_append.mp sorted).2.2
  have everybody : before.countP (fun other => le other x) = before.length :=
    List.countP_eq_length.mpr fun other member => ahead other member x List.mem_cons_self
  have itself : 0 < (x :: after).countP fun other => le other x :=
    List.countP_pos_iff.mpr ⟨x, List.mem_cons_self, self_not_ahead total x⟩
  rw [List.countP_append, everybody]
  exact Nat.lt_add_of_pos_right itself

end Ranks

namespace Quantile

-- A share between nothing and all.
structure Proper (quantile : Quantile) : Prop where
  divides : 0 < quantile.denominator
  within : quantile.numerator ≤ quantile.denominator

def share (quantile : Quantile) : ℚ := quantile.numerator / quantile.denominator

theorem median_proper : median.Proper := ⟨by decide, by decide⟩

theorem ninety_proper : ninety.Proper := ⟨by decide, by decide⟩

theorem ninety_nine_proper : ninetyNine.Proper := ⟨by decide, by decide⟩

theorem median_le_ninety : median.share ≤ ninety.share := by norm_num [share, median, ninety]

theorem ninety_le_ninety_nine : ninety.share ≤ ninetyNine.share := by
  norm_num [share, ninety, ninetyNine]

theorem rank_floor (quantile : Quantile) (count : Nat) (some : 0 < count) :
    quantile.rank count = ⌊((count : ℚ) - 1) * quantile.share⌋₊ := by
  have whole : ((count : ℚ) - 1) * quantile.share =
      (((count - 1) * quantile.numerator : Nat) : ℚ) / quantile.denominator := by
    rw [share, Nat.cast_mul, Nat.cast_sub some, Nat.cast_one, mul_div_assoc]
  rw [rank, whole, Nat.floor_div_eq_div]

theorem rank_mono {small large : Quantile} (le : small.share ≤ large.share) (count : Nat)
    (some : 0 < count) : small.rank count ≤ large.rank count := by
  rw [rank_floor small count some, rank_floor large count some]
  have ranks : (0 : ℚ) ≤ (count : ℚ) - 1 := sub_nonneg.mpr (Nat.one_le_cast.mpr some)
  exact Nat.floor_le_floor (mul_le_mul_of_nonneg_left le ranks)

theorem rank_longer (quantile : Quantile) {count more : Nat} (le : count ≤ more) :
    quantile.rank count ≤ quantile.rank more :=
  Nat.div_le_div_right (Nat.mul_le_mul_right _ (Nat.sub_le_sub_right le 1))

theorem rank_lt {quantile : Quantile} (proper : quantile.Proper) (count : Nat) (some : 0 < count) :
    quantile.rank count < count := by
  have within : quantile.rank count ≤ count - 1 := by
    refine Nat.div_le_of_le_mul ?_
    rw [Nat.mul_comm]
    exact Nat.mul_le_mul_right _ proper.within
  omega

end Quantile

namespace LatencySummary

section Samples

variable {ascending : List Int} {quantile : Quantile}

theorem sample_splits (rank : Nat) (within : rank < ascending.length) :
    ∃ before after, ascending = before ++ sampleAt ascending rank :: after ∧
      before.length = rank := by
  have found : sampleAt ascending rank = ascending[rank] := by
    rw [sampleAt, Nat.min_eq_left (by omega), List.getElem?_eq_getElem within, Option.getD_some]
  refine ⟨ascending.take rank, ascending.drop (rank + 1), ?_, ?_⟩
  · rw [found, List.cons_getElem_drop_succ, List.take_append_drop]
  · rw [List.length_take, Nat.min_eq_left (Nat.le_of_lt within)]

theorem percentile_splits (some : ascending ≠ []) (proper : quantile.Proper) :
    ∃ before after, ascending = before ++ percentile ascending quantile :: after ∧
      before.length = quantile.rank ascending.length :=
  sample_splits _ (Quantile.rank_lt proper _ (List.length_pos_iff.mpr some))

theorem sample_mono (sorted : ascending.Pairwise (· ≤ ·)) {first second : Nat}
    (le : first ≤ second) (within : second < ascending.length) :
    sampleAt ascending first ≤ sampleAt ascending second := by
  rw [sampleAt, sampleAt, Nat.min_eq_left (by omega), Nat.min_eq_left (by omega),
    List.getElem?_eq_getElem within, List.getElem?_eq_getElem (by omega)]
  rcases Nat.lt_or_eq_of_le le with less | same
  · exact List.pairwise_iff_getElem.mp sorted first second _ within less
  · subst same
    exact Int.le_refl _

theorem percentile_mono {small large : Quantile} (sorted : ascending.Pairwise (· ≤ ·))
    (proper : large.Proper) (le : small.share ≤ large.share) :
    percentile ascending small ≤ percentile ascending large := by
  rcases List.eq_nil_or_concat ascending with rfl | ⟨_, _, some⟩
  · exact Int.le_refl _
  · have count : 0 < ascending.length := by simp [some]
    exact sample_mono sorted (Quantile.rank_mono le _ count) (Quantile.rank_lt proper _ count)

theorem sample_append (added : Int) (rank : Nat) (within : rank < ascending.length) :
    sampleAt (ascending ++ [added]) rank = sampleAt ascending rank := by
  rw [sampleAt, sampleAt, List.length_append, List.length_singleton, Nat.min_eq_left (by omega),
    Nat.min_eq_left (by omega), List.getElem?_append_left within]

/-- One more sample at the end moves a percentile toward it. -/
theorem percentile_grows (sorted : ascending.Pairwise (· ≤ ·)) (proper : quantile.Proper)
    (added : Int) (last : ∀ sample ∈ ascending, sample ≤ added) (some : ascending ≠ []) :
    percentile ascending quantile ≤ percentile (ascending ++ [added]) quantile := by
  have count := List.length_pos_iff.mpr some
  have longer : (ascending ++ [added]).length = ascending.length + 1 := by simp
  have sorted' : (ascending ++ [added]).Pairwise (· ≤ ·) := by
    refine List.pairwise_append.mpr ⟨sorted, List.pairwise_singleton _ _, ?_⟩
    intro sample member other single
    rw [List.mem_singleton.mp single]
    exact last sample member
  rw [percentile, ← sample_append added _ (Quantile.rank_lt proper _ count)]
  refine sample_mono sorted' (Quantile.rank_longer quantile ?_) (Quantile.rank_lt proper _ ?_)
  · omega
  · omega

end Samples

def samples (metric : LatencyMetric) (records : List Record) : List Int :=
  ((records.filter (isMeasured metric)).map fun record => metric.value record.spec).mergeSort
    (· ≤ ·)

variable {metric : LatencyMetric} {records : List Record}

theorem samples_sorted (metric : LatencyMetric) (records : List Record) :
    (samples metric records).Pairwise (· ≤ ·) := by
  refine (List.pairwise_mergeSort ?_ ?_ _).imp of_decide_eq_true
  · intro a b c ab bc
    exact decide_eq_true (Int.le_trans (of_decide_eq_true ab) (of_decide_eq_true bc))
  · intro a b
    rw [Bool.or_eq_true, decide_eq_true_eq, decide_eq_true_eq]
    exact Int.le_total a b

theorem samples_perm (metric : LatencyMetric) (records : List Record) :
    (samples metric records).Perm
      ((records.filter (isMeasured metric)).map fun record => metric.value record.spec) :=
  List.mergeSort_perm _ _

theorem mem_samples (sample : Int) :
    sample ∈ samples metric records ↔
      ∃ record ∈ records, isMeasured metric record = true ∧ metric.value record.spec = sample := by
  rw [(samples_perm metric records).mem_iff, List.mem_map]
  simp only [List.mem_filter, and_assoc]

theorem samples_added {added : Record} {more : List Record} (same : more.Perm (added :: records))
    (measured : isMeasured metric added = true)
    (last : ∀ record ∈ records, isMeasured metric record = true →
      metric.value record.spec ≤ metric.value added.spec) :
    samples metric more = samples metric records ++ [metric.value added.spec] := by
  refine List.Perm.eq_of_pairwise (fun a b _ _ => Int.le_antisymm) (samples_sorted metric more) ?_ ?_
  · refine List.pairwise_append.mpr ⟨samples_sorted metric records, List.pairwise_singleton _ _, ?_⟩
    intro sample member other single
    obtain ⟨record, listed, counts, rfl⟩ := (mem_samples sample).mp member
    rw [List.mem_singleton.mp single]
    exact last record listed counts
  · have values := (same.filter (isMeasured metric)).map fun record => metric.value record.spec
    rw [List.filter_cons_of_pos measured, List.map_cons] at values
    refine ((samples_perm metric more).trans values).trans ?_
    exact ((samples_perm metric records).symm.cons _).trans (List.perm_append_singleton _ _).symm

/-- A further measurement that is no smaller than the others lowers no percentile. -/
theorem percentile_added {added : Record} {more : List Record} (quantile : Quantile)
    (proper : quantile.Proper) (same : more.Perm (added :: records))
    (measured : isMeasured metric added = true)
    (last : ∀ record ∈ records, isMeasured metric record = true →
      metric.value record.spec ≤ metric.value added.spec) :
    percentile (samples metric records) quantile ≤ percentile (samples metric more) quantile := by
  rw [samples_added same measured last]
  by_cases none : samples metric records = []
  · -- The first measurement of all takes the place of zero.
    have positive : 0 < metric.value added.spec := by
      rw [isMeasured, Bool.and_eq_true] at measured
      exact of_decide_eq_true measured.2
    rw [none]
    simpa [percentile, sampleAt] using Int.le_of_lt positive
  · refine percentile_grows (samples_sorted metric records) proper _ ?_ none
    intro sample member
    obtain ⟨record, listed, counts, rfl⟩ := (mem_samples sample).mp member
    exact last record listed counts

/-- A percentile of ascending samples is one of them. As many as the floor of its share are smaller
at most, and one more than that are no larger at least; a larger share gives no smaller sample, and
a further sample at the end lowers nothing. So the percentiles of a summary ascend, and none of them
falls when the largest measurement so far is added. A share that is given as a double comes to the
same if its product, rounded, has the same floor. -/
theorem nearest_rank_laws :
    (∀ (ascending : List Int) (p q : Quantile), ascending ≠ [] → ascending.Pairwise (· ≤ ·) →
      p.Proper → q.Proper →
      let rank := ⌊((ascending.length : ℚ) - 1) * p.share⌋₊
      let value := percentile ascending p
      value ∈ ascending ∧
      rank + 1 ≤ ascending.countP (· ≤ value) ∧
      ascending.countP (· < value) ≤ rank ∧
      (p.share ≤ q.share → value ≤ percentile ascending q) ∧
      (∀ added, (∀ sample ∈ ascending, sample ≤ added) →
        value ≤ percentile (ascending ++ [added]) p) ∧
      ∀ share : Binary64, share.isFinite = true →
        ((Binary64.ofNat (ascending.length - 1)).mul share).floorClamped = rank →
        percentileAt ascending share = value) ∧
    ∀ (metric : LatencyMetric) (records : List Record) (topN : Nat),
      let summary := ofRecords metric records topN
      summary.p50 ≤ summary.p90 ∧ summary.p90 ≤ summary.p99 ∧
      ∀ (added : Record) (more : List Record) (moreRows : Nat), more.Perm (added :: records) →
        isMeasured metric added = true →
        (∀ record ∈ records, isMeasured metric record = true →
          metric.value record.spec ≤ metric.value added.spec) →
        let grown := ofRecords metric more moreRows
        summary.p50 ≤ grown.p50 ∧ summary.p90 ≤ grown.p90 ∧ summary.p99 ≤ grown.p99 := by
  constructor
  · intro ascending p q some sorted pProper qProper
    have floor := Quantile.rank_floor p _ (List.length_pos_iff.mpr some)
    dsimp only
    rw [← floor]
    obtain ⟨before, after, split, ahead⟩ := percentile_splits some pProper
    have total : ∀ a b : Int, (decide (a ≤ b) || decide (b ≤ a)) = true := by
      intro a b
      rw [Bool.or_eq_true, decide_eq_true_eq, decide_eq_true_eq]
      exact Int.le_total a b
    have parted : (before ++ percentile ascending p :: after).Pairwise fun a b =>
        decide (a ≤ b) = true := by
      rw [← split]
      exact sorted.imp decide_eq_true
    refine ⟨?_, ?_, ?_, percentile_mono sorted qProper, ?_, ?_⟩
    · have member : percentile ascending p ∈ before ++ percentile ascending p :: after :=
        List.mem_append_right _ List.mem_cons_self
      rwa [← split] at member
    · have upto := rank_lt_upto total parted
      rwa [← split, ahead] at upto
    · have smaller := ahead_le_rank total parted
      simpa only [strictlyAhead, ← split, ahead, ← decide_not, Int.not_le] using smaller
    · intro added last
      exact percentile_grows sorted pProper added last some
    · intro share finite rounds
      rw [percentileAt, if_pos finite, rounds, percentile]
  · intro metric records topN summary
    have sorted := samples_sorted metric records
    refine ⟨percentile_mono sorted Quantile.ninety_proper Quantile.median_le_ninety,
      percentile_mono sorted Quantile.ninety_nine_proper Quantile.ninety_le_ninety_nine, ?_⟩
    intro added more moreRows same measured last grown
    exact ⟨percentile_added _ Quantile.median_proper same measured last,
      percentile_added _ Quantile.ninety_proper same measured last,
      percentile_added _ Quantile.ninety_nine_proper same measured last⟩

def startedIn (uid name : String) (millis : Int) : Record :=
  ⟨"perf", Record.nameFor uid, some "1",
    ⟨⟨"perf", name, uid, "node-1"⟩, ⟨"1970-01-01T00:00:00Z", "1970-01-01T00:00:01Z", ""⟩,
      ⟨millis, 0⟩, ∅⟩⟩

theorem repeated_samples_ranked :
    let ascending : List Int := [10, 20, 20, 20, 50]
    let records := [startedIn "u" "a" 20, startedIn "v" "b" 10]
    let added := startedIn "w" "c" 30
    (percentile ascending .median = 20 ∧ 3 ≤ ascending.countP (· ≤ 20) ∧
      ascending.countP (· < 20) ≤ 2 ∧
      percentile ascending .median ≤ percentile ascending .ninetyNine) ∧
    (ofRecords .timeToStart records 10).p99 ≤
      (ofRecords .timeToStart (records ++ [added]) 1).p99 := by
  intro ascending records added
  have median : percentile ascending .median = 20 := by decide
  have rank : ⌊((ascending.length : ℚ) - 1) * Quantile.median.share⌋₊ = 2 :=
    (Quantile.rank_floor .median 5 (by decide)).symm
  obtain ⟨_, upto, smaller, larger, _⟩ := nearest_rank_laws.1 ascending .median .ninetyNine
    (by decide) (by decide) Quantile.median_proper Quantile.ninety_nine_proper
  rw [rank, median] at upto smaller
  have ninetyNine := larger (Quantile.median_le_ninety.trans Quantile.ninety_le_ninety_nine)
  have grown := (nearest_rank_laws.2 .timeToStart records 10).2.2 added (records ++ [added]) 1
    (List.perm_append_singleton _ _) (by decide) (by decide)
  exact ⟨⟨median, upto, smaller, ninetyNine⟩, grown.2.2⟩

end LatencySummary
end StartupLatency
