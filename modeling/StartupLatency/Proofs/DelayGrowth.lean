import Mathlib.Algebra.Group.Nat.Defs
import StartupLatency.Backoff

/-!
How retry delays grow. A span of time is its number of nanoseconds, so a delay is a number that is
doubled with every failure and cut off at the bound. The steps by which it is computed stay inside
words of 32 and 64 bits, and a product past all spans is past the bound as well.
-/

namespace StartupLatency

namespace Duration

theorem total_nanos_lt (d : Duration) : d.totalNanos < Word.limit64 * 1000000000 := by
  have secs := d.secs_lt
  have nanos := d.nanos_lt
  rw [totalNanos]
  omega

theorem times_total (d : Duration) (factor : Nat) :
    (d.secs * factor + d.nanos * factor / 1000000000) * 1000000000 +
      d.nanos * factor % 1000000000 = d.totalNanos * factor := by
  have carried := Nat.div_add_mod (d.nanos * factor) 1000000000
  rw [totalNanos, Nat.add_mul, Nat.add_mul, Nat.mul_right_comm, Nat.add_assoc,
    Nat.mul_comm (d.nanos * factor / 1000000000), carried]

theorem total_of_times {d product : Duration} {factor : Nat}
    (given : d.times? factor = some product) : product.totalNanos = d.totalNanos * factor := by
  rw [← times_total]
  simp only [times?, ofParts?] at given
  split at given
  · cases given
    rfl
  · cases given

/-- A product is refused only where no span is that long. -/
theorem times_refused {d : Duration} {factor : Nat} (refused : d.times? factor = none) :
    Word.limit64 * 1000000000 ≤ d.totalNanos * factor := by
  rw [← times_total]
  have part : d.nanos * factor % 1000000000 < 1000000000 := Nat.mod_lt _ (by decide)
  simp only [times?, ofParts?] at refused
  split at refused
  · cases refused
  · rename_i outside
    have many : ¬ d.secs * factor + d.nanos * factor / 1000000000 < Word.limit64 :=
      fun few => outside ⟨few, part⟩
    omega

theorem at_most_iff (d bound : Duration) :
    d.atMost bound = true ↔ d.totalNanos ≤ bound.totalNanos := by
  have nanos := d.nanos_lt
  have bound_nanos := bound.nanos_lt
  simp only [atMost, Bool.or_eq_true, Bool.and_eq_true, decide_eq_true_eq, beq_iff_eq, totalNanos]
  omega

theorem shorter_total (d bound : Duration) :
    (d.shorter bound).totalNanos = min d.totalNanos bound.totalNanos := by
  rw [shorter]
  split
  · rename_i short
    exact (Nat.min_eq_left ((at_most_iff d bound).mp short)).symm
  · rename_i long
    have past := mt (at_most_iff d bound).mpr long
    exact (Nat.min_eq_right (Nat.le_of_not_le past)).symm

/-- A product that takes the place of the bound where there is none is cut off all the same. -/
theorem bounded_product (d bound : Duration) (factor : Nat) :
    (((d.times? factor).getD bound).shorter bound).totalNanos =
      min (d.totalNanos * factor) bound.totalNanos := by
  rw [shorter_total]
  cases product : d.times? factor with
  | none =>
    have past := Nat.le_trans (Nat.le_of_lt bound.total_nanos_lt) (times_refused product)
    rw [Option.getD_none, Nat.min_self, Nat.min_eq_right past]
  | some longer => rw [Option.getD_some, total_of_times product]

end Duration

namespace Word

def fits? (limit n : Nat) : Option Nat := if n < limit then some n else none

theorem fits_of_lt {limit n : Nat} (below : n < limit) : fits? limit n = some n := if_pos below

end Word

namespace Duration

/-- The product in steps of words: without an outcome if a step leaves its word that is not looked
after, and refused if one of the two that are looked after does. -/
def timesInWords? (d : Duration) (factor : Nat) : Option (Option Duration) := do
  let nanos ← Word.fits? Word.limit64 (d.nanos * factor)
  let carried := nanos / 1000000000
  let part ← Word.fits? Word.limit32 (nanos % 1000000000)
  let product := do
    let secs ← Word.fits? Word.limit64 (d.secs * factor)
    let secs ← Word.fits? Word.limit64 (secs + carried)
    ofParts? secs part
  pure product

theorem times_in_words (d : Duration) (factor : Nat) (word : factor < Word.limit32) :
    d.timesInWords? factor = some (d.times? factor) := by
  have nanos : d.nanos * factor < Word.limit64 :=
    Nat.lt_of_lt_of_le (Nat.mul_lt_mul'' d.nanos_lt word) (by decide)
  have part : d.nanos * factor % 1000000000 < 1000000000 := Nat.mod_lt _ (by decide)
  have small : d.nanos * factor % 1000000000 < Word.limit32 := Nat.lt_trans part (by decide)
  have product : (do
      let secs ← Word.fits? Word.limit64 (d.secs * factor)
      let secs ← Word.fits? Word.limit64 (secs + d.nanos * factor / 1000000000)
      ofParts? secs (d.nanos * factor % 1000000000)) = d.times? factor := by
    by_cases few : d.secs * factor < Word.limit64
    · rw [Word.fits_of_lt few]
      by_cases sum : d.secs * factor + d.nanos * factor / 1000000000 < Word.limit64
      · simp only [bind, Option.bind, Word.fits_of_lt sum, times?]
      · simp [bind, Option.bind, Word.fits?, sum, times?, ofParts?]
    · have many : ¬ d.secs * factor + d.nanos * factor / 1000000000 < Word.limit64 := by omega
      simp [bind, Option.bind, Word.fits?, few, many, times?, ofParts?]
  rw [timesInWords?, Word.fits_of_lt nanos]
  simp only [bind, Option.bind, Word.fits_of_lt small] at product ⊢
  exact congrArg some product

end Duration

namespace Backoff

variable (backoff : Backoff)

def delayInWords? (failures : Nat) : Option Duration := do
  let factor ← Word.fits? Word.limit32 (2 ^ min (failures - 1) 31)
  let product ← backoff.base.timesInWords? factor
  pure ((product.getD backoff.max).shorter backoff.max)

theorem factor_in_word (failures : Nat) : 2 ^ doublings failures < Word.limit32 :=
  Nat.lt_of_le_of_lt (Nat.pow_le_pow_right (by decide) (Nat.min_le_right _ 31)) (by decide)

theorem delay_in_words (failures : Nat) :
    backoff.delayInWords? failures = some (backoff.delay failures) := by
  have word := factor_in_word failures
  rw [doublings] at word
  simp only [delayInWords?, Word.fits_of_lt word, Duration.times_in_words _ _ word, bind,
    Option.bind]
  rfl

theorem delay_total (failures : Nat) :
    (backoff.delay failures).totalNanos =
      min (backoff.base.totalNanos * 2 ^ doublings failures) backoff.max.totalNanos :=
  backoff.base.bounded_product backoff.max _

theorem doublings_mono {fewer more : Nat} (order : fewer ≤ more) :
    doublings fewer ≤ doublings more := by
  unfold doublings
  omega

theorem doublings_succ {failures : Nat} (some_failed : 1 ≤ failures) (few : failures < 32) :
    doublings (failures + 1) = doublings failures + 1 := by
  unfold doublings
  omega

theorem delay_mono {fewer more : Nat} (order : fewer ≤ more) :
    (backoff.delay fewer).totalNanos ≤ (backoff.delay more).totalNanos := by
  have factor : 2 ^ doublings fewer ≤ 2 ^ doublings more :=
    Nat.pow_le_pow_right (by decide) (doublings_mono order)
  have product := Nat.mul_le_mul_left backoff.base.totalNanos factor
  rw [delay_total, delay_total]
  omega

theorem delay_doubles {failures : Nat} (some_failed : 1 ≤ failures) (few : failures < 32)
    (below : (backoff.delay failures).totalNanos < backoff.max.totalNanos) :
    (backoff.delay (failures + 1)).totalNanos =
      min (2 * (backoff.delay failures).totalNanos) backoff.max.totalNanos := by
  rw [delay_total] at below ⊢
  rw [delay_total, doublings_succ some_failed few, Nat.pow_succ, ← Nat.mul_assoc, Nat.mul_comm _ 2]
  -- Below the bound nothing has been cut off yet.
  have uncut : backoff.base.totalNanos * 2 ^ doublings failures < backoff.max.totalNanos := by
    omega
  rw [Nat.min_eq_left (Nat.le_of_lt uncut)]

end Backoff

/-- A delay is the base, doubled with every failure behind the first one up to 31 times, or the
bound if that is shorter. No step on the way leaves its word. -/
theorem delays_double_up_to_bound (backoff : Backoff) :
    (∀ failures, backoff.delayInWords? failures = some (backoff.delay failures) ∧
      (backoff.delay failures).totalNanos =
        min (backoff.base.totalNanos * 2 ^ min (max failures 1 - 1) 31) backoff.max.totalNanos ∧
      (backoff.delay failures).totalNanos ≤ backoff.max.totalNanos) ∧
    (∀ fewer more, fewer ≤ more →
      (backoff.delay fewer).totalNanos ≤ (backoff.delay more).totalNanos) ∧
    ∀ failures, 1 ≤ failures → failures < 32 →
      (backoff.delay failures).totalNanos < backoff.max.totalNanos →
      (backoff.delay (failures + 1)).totalNanos =
        min (2 * (backoff.delay failures).totalNanos) backoff.max.totalNanos := by
  refine ⟨fun failures => ⟨backoff.delay_in_words failures, ?_, ?_⟩, ?_, ?_⟩
  · have exponent : min (max failures 1 - 1) 31 = Backoff.doublings failures := by
      unfold Backoff.doublings
      omega
    rw [exponent]
    exact backoff.delay_total failures
  · rw [backoff.delay_total]
    exact Nat.min_le_right _ _
  · intro fewer more order
    exact backoff.delay_mono order
  · intro failures some_failed few below
    exact backoff.delay_doubles some_failed few below

-- The longest base that can be doubled 31 times: a nanosecond less than `2 ^ 33` seconds.
def Backoff.widest : Backoff :=
  ⟨⟨8589934591, 999999999, by decide, Duration.longest.nanos_lt⟩, .longest⟩

-- The carried nanoseconds fill the last second that a word holds; one base more has no product.
theorem widest_doubles_to_the_end :
    (Backoff.widest.delay 31).totalNanos ≤ (Backoff.widest.delay 32).totalNanos ∧
      (Backoff.widest.delay 32).totalNanos = 2 * (Backoff.widest.delay 31).totalNanos ∧
      Backoff.widest.delayInWords? 4294967295 = some (Backoff.widest.delay 4294967295) := by
  obtain ⟨exact_delay, mono, doubles⟩ := delays_double_up_to_bound Backoff.widest
  refine ⟨mono 31 32 (by decide), ?_, (exact_delay 4294967295).1⟩
  rw [doubles 31 (by decide) (by decide) (by decide)]
  decide

end StartupLatency
