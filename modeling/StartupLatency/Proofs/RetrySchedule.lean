import StartupLatency.Proofs.FailureCounts

/-!
The times at which the passes of one key begin, told from their verdicts alone. A pass that failed
is repeated after the delay for its failures in a row, one that asked for another run is repeated at
once, and one that came through is the last.
-/

namespace StartupLatency

/-- What a pass comes to, as far as the next one depends on it. -/
inductive Verdict where
  | done
  | requeue
  | error
deriving DecidableEq

def PassOutcome.verdict : PassOutcome → Verdict
  | .done _ => .done
  | .requeue => .requeue
  | .failed _ => .error

/-- When a pass begins, and how often its key has failed in a row before. -/
structure Turn where
  time : Nat
  failures : Nat

namespace Turn

def first : Turn := ⟨0, 0⟩

def after (delay : Nat → Nat) (turn : Turn) : Verdict → Turn
  | .error => ⟨turn.time + delay (turn.failures + 1), turn.failures + 1⟩
  | _ => ⟨turn.time, 0⟩

variable (delay : Nat → Nat)

/-- The times at which passes begin, from this turn on, if they come to these verdicts. A pass that
has no verdict yet is the last one so far. -/
def starts : Turn → List Verdict → List Nat
  | turn, [] => [turn.time]
  | turn, .done :: _ => [turn.time]
  | turn, verdict :: rest => turn.time :: starts (turn.after delay verdict) rest

def past : Turn → List Verdict → List Nat
  | _, [] => []
  | turn, verdict :: rest => turn.time :: past (turn.after delay verdict) rest

def next (turn : Turn) (verdicts : List Verdict) : Turn := verdicts.foldl (after delay) turn

theorem past_append (turn : Turn) (verdicts more : List Verdict) :
    past delay turn (verdicts ++ more) =
      past delay turn verdicts ++ past delay (turn.next delay verdicts) more := by
  induction verdicts generalizing turn with
  | nil => rfl
  | cons verdict rest ih => exact congrArg (turn.time :: ·) (ih _)

theorem next_append (turn : Turn) (verdicts more : List Verdict) :
    turn.next delay (verdicts ++ more) = (turn.next delay verdicts).next delay more :=
  List.foldl_append

theorem starts_undone (turn : Turn) (verdicts more : List Verdict) (undone : .done ∉ verdicts) :
    starts delay turn (verdicts ++ more) =
      past delay turn verdicts ++ starts delay (turn.next delay verdicts) more := by
  induction verdicts generalizing turn with
  | nil => rfl
  | cons verdict rest ih =>
    obtain ⟨notDone, later⟩ := not_or.mp (mt List.mem_cons.mpr undone)
    cases verdict with
    | done => exact absurd rfl notDone
    | _ => exact congrArg (turn.time :: ·) (ih _ later)

theorem starts_later (turn : Turn) (verdicts : List Verdict) :
    ∃ later, starts delay turn verdicts = turn.time :: later ∧ ∀ time ∈ later, turn.time ≤ time := by
  induction verdicts generalizing turn with
  | nil => exact ⟨[], rfl, nofun⟩
  | cons verdict rest ih =>
    obtain ⟨later, same, grows⟩ := ih (turn.after delay verdict)
    have waits : turn.time ≤ (turn.after delay verdict).time := by cases verdict <;> simp [after]
    cases verdict with
    | done => exact ⟨[], rfl, nofun⟩
    | _ =>
      refine ⟨_, congrArg (turn.time :: ·) same, fun time member => ?_⟩
      rcases List.mem_cons.mp member with rfl | after
      · exact waits
      · exact Nat.le_trans waits (grows time after)

section Told

variable (turn : Turn) {verdicts script : List Verdict}

/-- Of a script, the passes with these verdicts are over, and the next one is to come. -/
theorem starts_waiting (told : verdicts <+: script ++ [.done]) (undone : .done ∉ verdicts) :
    ∃ later,
      starts delay turn script =
        past delay turn verdicts ++ (turn.next delay verdicts).time :: later ∧
      ∀ time ∈ later, (turn.next delay verdicts).time ≤ time := by
  rcases List.prefix_concat_iff.mp told with rfl | ⟨more, rfl⟩
  · exact absurd (List.mem_append_right _ List.mem_cons_self) undone
  · obtain ⟨later, same, grows⟩ := starts_later delay (turn.next delay verdicts) more
    exact ⟨later, by rw [starts_undone delay turn verdicts more undone, same], grows⟩

/-- Of a script, the last pass has come through. -/
theorem starts_ended (told : verdicts ++ [.done] <+: script ++ [.done])
    (undone : .done ∉ verdicts) :
    starts delay turn script = past delay turn (verdicts ++ [.done]) := by
  rcases List.prefix_concat_iff.mp told with same | ⟨more, rfl⟩
  · cases List.append_cancel_right same
    have alone := starts_undone delay turn verdicts [] undone
    rw [List.append_nil] at alone
    rw [alone, past_append]
    rfl
  · rw [List.append_assoc, starts_undone delay turn verdicts _ undone, past_append]
    rfl

end Told

/-- Delays for so many failures only count where there are so many errors in a row. -/
theorem starts_below (limit : Nat) {delay other : Nat → Nat}
    (agree : ∀ failures < limit, delay failures = other failures) (turn : Turn)
    (verdicts : List Verdict)
    (few : ¬ List.replicate limit .error <:+: List.replicate turn.failures .error ++ verdicts) :
    starts delay turn verdicts = starts other turn verdicts := by
  induction verdicts generalizing turn with
  | nil => rfl
  | cons verdict rest ih =>
    cases verdict with
    | done => rfl
    | requeue =>
      refine congrArg (turn.time :: ·) (ih (turn.after delay .requeue) fun many => few ?_)
      exact many.trans ((List.suffix_cons _ rest).trans (List.suffix_append _ _)).isInfix
    | error =>
      have longer : List.replicate turn.failures Verdict.error ++ .error :: rest =
          List.replicate (turn.failures + 1) .error ++ rest := by
        rw [List.replicate_succ', List.append_assoc]
        rfl
      rw [longer] at few
      have below : turn.failures + 1 < limit := by
        refine Nat.lt_of_not_le fun reached => few ?_
        rw [← Nat.add_sub_of_le reached, ← List.replicate_append_replicate, List.append_assoc]
        exact (List.prefix_append _ _).isInfix
      have same : turn.after delay .error = turn.after other .error := by
        simp only [after, agree _ below]
      refine congrArg (turn.time :: ·) ((ih (turn.after delay .error) few).trans ?_)
      rw [same]

/-- The same schedule in a finer unit of time. -/
theorem starts_scaled (unit : Nat) (turn : Turn) (verdicts : List Verdict) :
    (starts delay turn verdicts).map (· * unit) =
      starts (fun failures => delay failures * unit) ⟨turn.time * unit, turn.failures⟩
        verdicts := by
  induction verdicts generalizing turn with
  | nil => rfl
  | cons verdict rest ih =>
    cases verdict with
    | done => rfl
    | requeue => exact congrArg (turn.time * unit :: ·) (ih _)
    | error =>
      refine congrArg (turn.time * unit :: ·) ((ih _).trans ?_)
      simp only [after, Nat.add_mul]

end Turn

namespace Duration

def Whole (d : Duration) : Prop := 1000000 ∣ d.nanos

instance (d : Duration) : Decidable d.Whole := inferInstanceAs (Decidable (_ ∣ _))

theorem ticks_whole {d : Duration} (whole : d.Whole) : d.ticks * 1000000 = d.totalNanos := by
  obtain ⟨millis, same⟩ := whole
  rw [ticks, totalNanos, same]
  omega

theorem times_whole {d product : Duration} {factor : Nat} (whole : d.Whole)
    (given : d.times? factor = some product) : product.Whole := by
  simp only [times?, ofParts?] at given
  split at given
  · cases given
    exact (Nat.dvd_mod_iff (by decide)).mpr (Nat.dvd_mul_right_of_dvd whole factor)
  · cases given

end Duration

namespace Backoff

structure Whole (backoff : Backoff) : Prop where
  base : backoff.base.Whole
  max : backoff.max.Whole

theorem delay_whole {backoff : Backoff} (whole : backoff.Whole) (failures : Nat) :
    (backoff.delay failures).Whole := by
  have grown :
      ((backoff.base.times? (Nat.pow 2 (doublings failures))).getD backoff.max).Whole := by
    cases product : backoff.base.times? (Nat.pow 2 (doublings failures)) with
    | none => exact whole.max
    | some longer => exact Duration.times_whole whole.base product
  rw [delay, Duration.shorter]
  split
  · exact grown
  · exact whole.max

-- The delay after so many failures in a row, as timers keep it. The failures are counted in a word.
def waits (backoff : Backoff) (failures : Nat) : Nat :=
  (backoff.delay (failures % Word.limit32)).ticks

/-- The times at which the passes of a key begin, in nanoseconds. -/
def schedule (backoff : Backoff) (verdicts : List Verdict) : List Nat :=
  Turn.first.starts (fun failures => (backoff.delay (failures % Word.limit32)).totalNanos) verdicts

/-- With fewer errors in a row than a word has numbers, each counts. -/
theorem schedule_exact (backoff : Backoff) (verdicts : List Verdict)
    (few : ¬ List.replicate Word.limit32 .error <:+: verdicts) :
    backoff.schedule verdicts =
      Turn.first.starts (fun failures => (backoff.delay failures).totalNanos) verdicts := by
  refine Turn.starts_below Word.limit32 (fun failures below => ?_) .first verdicts few
  rw [Nat.mod_eq_of_lt below]

/-- Whole milliseconds are kept exactly by timers that run in milliseconds. -/
theorem schedule_ticks {backoff : Backoff} (whole : backoff.Whole) (verdicts : List Verdict) :
    backoff.schedule verdicts = (Turn.first.starts backoff.waits verdicts).map (· * 1000000) := by
  rw [Turn.starts_scaled, schedule]
  simp only [waits, Duration.ticks_whole (delay_whole whole _)]
  rfl

theorem schedule_until {backoff : Backoff} (whole : backoff.Whole) (verdicts : List Verdict)
    (time : Nat) :
    ((Turn.first.starts backoff.waits verdicts).filter fun began => began ≤ time).map
        (· * 1000000) =
      (backoff.schedule verdicts).filter fun began => began ≤ time * 1000000 := by
  rw [schedule_ticks whole, List.filter_map]
  refine congrArg _ (List.filter_congr fun began _ => ?_)
  rw [Function.comp_apply, decide_eq_decide]
  omega

end Backoff

def verdictsOf (key : ObjectName) (log : List (ObjectName × PassOutcome)) : List Verdict :=
  (outcomesOf key log).map PassOutcome.verdict

theorem verdicts_append (key : ObjectName) (log more : List (ObjectName × PassOutcome)) :
    verdictsOf key (log ++ more) = verdictsOf key log ++ verdictsOf key more := by
  rw [verdictsOf, outcomesOf, List.filterMap_append, List.map_append]
  rfl

theorem verdicts_of_one (key other : ObjectName) (ended : List PassOutcome) :
    verdictsOf other (ended.map fun outcome => (key, outcome)) =
      if key = other then ended.map PassOutcome.verdict else [] := by
  rw [verdictsOf, outcomesOf, List.filterMap_map]
  by_cases same : key = other <;> simp [same]

theorem next_failures (delay : Nat → Nat) (key : ObjectName)
    (log : List (ObjectName × PassOutcome)) :
    (Turn.first.next delay (verdictsOf key log)).failures = failuresInRow key log := by
  rw [verdictsOf, failuresInRow]
  induction outcomesOf key log using List.reverseRecOn with
  | nil => rfl
  | append_singleton earlier outcome ih =>
    rw [List.map_append, Turn.next_append]
    cases outcome with
    | failed error =>
      rw [List.rtakeWhile_concat_pos _ _ _ rfl, List.length_append, ← ih]
      rfl
    | _ =>
      rw [List.rtakeWhile_concat_neg _ _ _ (by simp [PassOutcome.isFailed])]
      rfl

theorem verdicts_length (key : ObjectName) (log : List (ObjectName × PassOutcome)) :
    (verdictsOf key log).length = log.countP fun entry => entry.1 = key := by
  induction log with
  | nil => rfl
  | cons entry rest ih =>
    rw [← List.singleton_append, verdicts_append, List.length_append, ih, List.countP_append]
    refine congrArg (· + _) ?_
    obtain ⟨other, outcome⟩ := entry
    have one := congrArg List.length (verdicts_of_one other key [outcome])
    by_cases same : other = key <;> simpa [same] using one

/-- Bounds for each of finitely many keys bound the outcomes of all. -/
theorem log_bounded (limit : ObjectName → Nat) (keys : List ObjectName) :
    ∃ bound, ∀ log : List (ObjectName × PassOutcome), (∀ entry ∈ log, entry.1 ∈ keys) →
      (∀ key, (verdictsOf key log).length ≤ limit key) → log.length ≤ bound := by
  induction keys with
  | nil =>
    refine ⟨0, fun log listed _ => ?_⟩
    have none : log = [] := List.eq_nil_iff_forall_not_mem.mpr fun entry member =>
      List.not_mem_nil (listed entry member)
    rw [none]
    exact Nat.le_refl 0
  | cons key rest ih =>
    obtain ⟨bound, bounded⟩ := ih
    refine ⟨limit key + bound, fun log listed limited => ?_⟩
    have others := bounded (log.filter fun entry => ¬ decide (entry.1 = key) = true) ?_ ?_
    · have itself := limited key
      rw [verdicts_length] at itself
      rw [← List.countP_eq_length_filter] at others
      rw [List.length_eq_countP_add_countP fun entry => decide (entry.1 = key)]
      exact Nat.add_le_add itself others
    · intro entry member
      obtain ⟨present, different⟩ := List.mem_filter.mp member
      rcases List.mem_cons.mp (listed entry present) with same | later
      · simp [same] at different
      · exact later
    · intro other
      refine Nat.le_trans ?_ (limited other)
      rw [verdicts_length, verdicts_length]
      exact List.filter_sublist.countP_le

end StartupLatency
