import StartupLatency.Proofs.AdmittedChanges

/-!
One pass among others. Between its calls others change the pods as they like and write records, and
any call may fail without an effect. The log of a run holds the pass's own calls, each with the
stores before and after it, so that what the pass does is told apart from what others do.
-/

namespace StartupLatency

namespace Stores

inductive Change where
  -- From here on the pods are these: some pod was put, patched or taken away.
  | pods (present : PodStore)
  | create (record : Record)
  | update (record : Record)

def changed (stores : Stores) : Change → Stores
  | .pods present => { stores with pods := present }
  | .create record => { stores with records := (stores.records.create record).2 }
  | .update record => { stores with records := (stores.records.update record).2 }

def replay (changes : List Change) (stores : Stores) : Stores := changes.foldl changed stores

theorem changed_sound (stores : Stores) (change : Change) (sound : stores.records.Sound) :
    (stores.changed change).records.Sound := by
  cases change with
  | pods present => exact sound
  | create record => exact RecordStore.sound_create stores.records record sound
  | update record => exact RecordStore.sound_update stores.records record sound

theorem replay_sound (changes : List Change) (stores : Stores) (sound : stores.records.Sound) :
    (replay changes stores).records.Sound := by
  induction changes generalizing stores with
  | nil => exact sound
  | cons change rest ih => exact ih (stores.changed change) (changed_sound stores change sound)

end Stores

namespace Pass

variable (policy : Policy) (key : ObjectName)

-- So many passes, one after the other, that nothing disturbs: how each of them ends, and the stores
-- after them.
def repeated : Nat → Stores → List Pass × Stores
  | 0, stores => ([], stores)
  | count + 1, stores =>
    let (last, _, stores) := Pass.run Stores.access policy key stores
    let (others, stores) := repeated count stores
    (last :: others, stores)

/-- There is nothing to do: however many passes are made, all of them end in that way, and the
stores stay as they are. -/
def Steady (stores : Stores) (work : PassWork) : Prop :=
  ∀ count, repeated policy key count stores = (List.replicate count (.ended (.done work)), stores)

variable {policy key} {stores : Stores}

-- One pass that changes nothing is followed by its like.
theorem steady_of_run (work : PassWork) (calls : List RecordCall)
    (ran : Pass.run Stores.access policy key stores = (.ended (.done work), calls, stores)) :
    Steady policy key stores work := by
  intro count
  induction count with
  | zero => rfl
  | succ count ih => simp only [repeated, ran, ih, List.replicate_succ]

theorem steady_of_settled (pod : Pod) (held : stores.pods.pods.find? key = some pod)
    (settled : Settled policy pod stores) : Steady policy key stores .upToDate := by
  obtain ⟨record, found, unchanged⟩ := settled
  exact steady_of_run _ _ (run_up_to_date pod record held found unchanged)

/-- A pass over a pod that is there is done and leaves it settled: it creates the record, updates
it, or finds it up to date. -/
theorem run_settles (policy : Policy) (pod : Pod)
    (held : stores.pods.pods.find? key = some pod) (sound : stores.records.Sound) :
    ∃ work calls after, Pass.run Stores.access policy key stores =
        (.ended (.done work), calls, after) ∧
      after.pods = stores.pods ∧ Settled policy pod after := by
  cases found : stores.records.records.find? (recordKey pod) with
  | none =>
    exact ⟨_, _, _, run_creates pod held found, rfl,
      settled_commit pod _ ⟨rfl, Record.of_pod_unchanged pod policy⟩⟩
  | some record =>
    cases changed : record.spec.changedBy (.ofPod pod) policy with
    | false =>
      exact ⟨_, _, _, run_up_to_date pod record held found changed, rfl, record, found, changed⟩
    | true =>
      have named : record.key = recordKey pod := sound.filed _ _ found
      exact ⟨_, _, _, run_updates pod record sound held found changed, rfl,
        settled_commit pod _ ⟨named, RecordSpec.applied_unchanged record.spec _ policy⟩⟩

/-- A pass that nothing disturbs is done, and leaves nothing to do. -/
theorem run_steadies (policy : Policy) (key : ObjectName) (sound : stores.records.Sound) :
    ∃ first again calls after,
      Pass.run Stores.access policy key stores = (.ended (.done first), calls, after) ∧
        Steady policy key after again := by
  cases held : stores.pods.pods.find? key with
  | none =>
    exact ⟨_, _, _, stores, run_gone held, steady_of_run _ _ (run_gone held)⟩
  | some pod =>
    obtain ⟨work, calls, after, ran, pods, settled⟩ := run_settles policy pod held sound
    exact ⟨work, .upToDate, calls, after, ran, steady_of_settled pod (pods ▸ held) settled⟩

end Pass

structure StoreCall where
  pass : Pass
  trouble : Option StoreError
  before : Stores
  next : Pass
  after : Stores

namespace StoreCall

def writes (call : StoreCall) : Bool := decide (call.after ≠ call.before)

def podAnswer (key : ObjectName) (call : StoreCall) : Except StoreError Pod :=
  ((Stores.answering call.trouble).getPod key call.before).1

def Still (calls : List StoreCall) : Prop := ∀ call ∈ calls, call.after = call.before

def Reads (key : ObjectName) (pod : Pod) (calls : List StoreCall) : Prop :=
  ∃ first ∈ calls.head?, first.pass = .readingPod ∧ first.podAnswer key = .ok pod

variable {key : ObjectName} {pod : Pod} {calls : List StoreCall} {call : StoreCall}

theorem still_none : Still [] := by
  intro call member
  cases member

theorem still_single (same : call.after = call.before) : Still [call] := by
  intro other member
  cases List.mem_singleton.mp member
  exact same

theorem still_append (still : Still calls) (same : call.after = call.before) :
    Still (calls ++ [call]) := by
  intro other member
  rcases List.mem_append.mp member with earlier | now
  · exact still other earlier
  · exact still_single same other now

theorem reads_append (reads : Reads key pod calls) : Reads key pod (calls ++ [call]) := by
  obtain ⟨first, head, begun, answered⟩ := reads
  refine ⟨first, ?_, begun, answered⟩
  rw [List.head?_append, Option.mem_def.mp head]
  rfl

theorem still_writes (still : Still calls) : calls.filter writes = [] := by
  refine List.filter_eq_nil_iff.mpr ?_
  intro call member
  simp [writes, still call member]

end StoreCall

/-- The next call of the pass, after what others have done. The call fails with the error, if there
is one. -/
structure PassTurn where
  others : List Stores.Change
  trouble : Option StoreError

structure PassRun where
  pass : Pass
  stores : Stores
  calls : List StoreCall

namespace PassRun

open StoreCall

variable (policy : Policy) (key : ObjectName)

def start (stores : Stores) : PassRun := ⟨.readingPod, stores, []⟩

def after (run : PassRun) (turn : PassTurn) : PassRun :=
  let before := run.stores.replay turn.others
  match run.pass with
  | .ended _ => { run with stores := before }
  | pass =>
    let (next, after) := pass.step (Stores.answering turn.trouble) policy key before
    ⟨next, after, run.calls ++ [⟨pass, turn.trouble, before, next, after⟩]⟩

def replay (turns : List PassTurn) (run : PassRun) : PassRun := turns.foldl (after policy key) run

/-- What the calls of a pass have done, by what the pass has come to. -/
inductive Accounts : List StoreCall → Pass → Prop where
  | begun : Accounts [] .readingPod
  | reading {calls : List StoreCall} (pod : Pod) (still : Still calls)
      (reads : Reads key pod calls) : Accounts calls (.readingRecord pod)
  | creating {calls : List StoreCall} (pod : Pod) (record : Record) (still : Still calls)
      (reads : Reads key pod calls) (carries : Pass.Carries policy pod record) :
      Accounts calls (.creating record)
  | updating {calls : List StoreCall} (pod : Pod) (record : Record) (still : Still calls)
      (reads : Reads key pod calls) (carries : Pass.Carries policy pod record) :
      Accounts calls (.updating record)
  | gone (call : StoreCall) (what : String) (still : call.after = call.before)
      (answered : call.podAnswer key = .error (.notFound what)) :
      Accounts [call] (.ended (.done .podGone))
  | settled {calls : List StoreCall} (pod : Pod) (last : StoreCall) (name : String)
      (work : PassWork) (still : Still calls) (reads : Reads key pod calls)
      (accesses : last.pass.recordCall? = some ⟨name, Pass.recordKey pod⟩)
      (commits : last.after = last.before ∨
        ∃ record, record.key = Pass.recordKey pod ∧ last.after = last.before.commit record)
      (settled : Settled policy pod last.after) :
      Accounts (calls ++ [last]) (.ended (.done work))
  | undone {calls : List StoreCall} (outcome : PassOutcome)
      (undone : ∀ work, outcome ≠ .done work) (still : Still calls) :
      Accounts calls (.ended outcome)

theorem requeue_undone (work : PassWork) : PassOutcome.requeue ≠ .done work := by
  intro same
  cases same

theorem failed_undone (error : StoreError) (work : PassWork) :
    PassOutcome.failed error ≠ .done work := by
  intro same
  cases same

section Steps

variable {policy key} {calls : List StoreCall} {pass next : Pass} {trouble : Option StoreError}
  {before after : Stores}

theorem first_accounts :
    let made := Pass.readingPod.step (Stores.answering trouble) policy key before
    Accounts policy key [⟨.readingPod, trouble, before, made.1, made.2⟩] made.1 := by
  have still : ((Stores.answering trouble).getPod key before).2 = before := by
    cases trouble <;> rfl
  simp only [Pass.step, still]
  cases answered : ((Stores.answering trouble).getPod key before).1 with
  | ok pod => exact .reading pod (still_single rfl) ⟨_, rfl, rfl, answered⟩
  | error error =>
    cases error with
    | notFound what => exact .gone _ what rfl answered
    | alreadyExists what => exact .undone _ (failed_undone _) (still_single rfl)
    | conflict what => exact .undone _ (failed_undone _) (still_single rfl)
    | backend what => exact .undone _ (failed_undone _) (still_single rfl)

theorem moves_accounts (sound : before.records.Sound)
    (moves : Pass.Moves policy key trouble pass before next after)
    (accounts : Accounts policy key calls pass) (begun : pass ≠ .readingPod)
    (unfinished : pass.outcome? = none) :
    Accounts policy key (calls ++ [⟨pass, trouble, before, next, after⟩]) next := by
  cases accounts with
  | begun => exact absurd rfl begun
  | reading pod still reads =>
    cases moves with
    | upToDate pod record found unchanged =>
      exact .settled pod _ "get" .upToDate still reads rfl (Or.inl rfl) ⟨record, found, unchanged⟩
    | outOfDate pod record found =>
      have named : record.key = Pass.recordKey pod := sound.filed _ _ found
      exact .updating pod _ (still_append still rfl) (reads_append reads)
        ⟨named, RecordSpec.applied_unchanged record.spec _ policy⟩
    | missing pod =>
      exact .creating pod _ (still_append still rfl) (reads_append reads)
        ⟨rfl, Record.of_pod_unchanged pod policy⟩
    | failed pass error unfinished =>
      exact .undone _ (failed_undone error) (still_append still rfl)
  | creating pod record still reads carries =>
    cases moves with
    | created record free =>
      exact .settled pod _ "create" _ still reads (by rw [← carries.1]; rfl)
        (Or.inr ⟨record, carries.1, rfl⟩) (Pass.settled_commit pod record carries)
    | createOutrun record => exact .undone _ requeue_undone (still_append still rfl)
    | failed pass error unfinished =>
      exact .undone _ (failed_undone error) (still_append still rfl)
  | updating pod record still reads carries =>
    cases moves with
    | updated record current found same =>
      exact .settled pod _ "update" _ still reads (by rw [← carries.1]; rfl)
        (Or.inr ⟨record, carries.1, rfl⟩) (Pass.settled_commit pod record carries)
    | updateOutrun record => exact .undone _ requeue_undone (still_append still rfl)
    | failed pass error unfinished =>
      exact .undone _ (failed_undone error) (still_append still rfl)
  | gone call what still answered => cases unfinished
  | settled pod last name work still reads accesses commits settled => cases unfinished
  | undone outcome undone still => cases unfinished

theorem step_accounts (sound : before.records.Sound) (accounts : Accounts policy key calls pass)
    (unfinished : pass.outcome? = none) :
    let made := pass.step (Stores.answering trouble) policy key before
    Accounts policy key (calls ++ [⟨pass, trouble, before, made.1, made.2⟩]) made.1 := by
  by_cases first : pass = .readingPod
  · subst first
    cases accounts
    exact first_accounts
  · exact moves_accounts sound (Pass.step_moves policy key trouble pass before) accounts first
      unfinished

end Steps

theorem after_unfinished (run : PassRun) (turn : PassTurn) (unfinished : run.pass.outcome? = none) :
    run.after policy key turn =
      let before := run.stores.replay turn.others
      let made := run.pass.step (Stores.answering turn.trouble) policy key before
      ⟨made.1, made.2, run.calls ++ [⟨run.pass, turn.trouble, before, made.1, made.2⟩]⟩ := by
  obtain ⟨pass, stores, calls⟩ := run
  cases pass with
  | ended outcome => cases unfinished
  | _ => rfl

theorem after_ended (run : PassRun) (turn : PassTurn) (outcome : PassOutcome)
    (ended : run.pass = .ended outcome) :
    run.after policy key turn = { run with stores := run.stores.replay turn.others } := by
  simp only [after, ended]

def Accounted (run : PassRun) : Prop :=
  Accounts policy key run.calls run.pass ∧ run.stores.records.Sound

theorem after_accounted (run : PassRun) (turn : PassTurn) (accounted : run.Accounted policy key) :
    (run.after policy key turn).Accounted policy key := by
  obtain ⟨accounts, sound⟩ := accounted
  have before := Stores.replay_sound turn.others run.stores sound
  rcases run.pass.unfinished_or_ended with unfinished | ⟨outcome, ended⟩
  · rw [after_unfinished policy key run turn unfinished]
    exact ⟨step_accounts before accounts unfinished,
      Pass.moves_sound (Pass.step_moves policy key turn.trouble run.pass _) before⟩
  · rw [after_ended policy key run turn outcome ended]
    exact ⟨accounts, before⟩

theorem replay_accounted (turns : List PassTurn) (run : PassRun)
    (accounted : run.Accounted policy key) : (run.replay policy key turns).Accounted policy key := by
  induction turns generalizing run with
  | nil => exact accounted
  | cons turn rest ih => exact ih _ (after_accounted policy key run turn accounted)

theorem replay_ends (turns : List PassTurn) (run : PassRun)
    (enough : run.pass.callsLeft ≤ turns.length) :
    ∃ outcome, (run.replay policy key turns).pass = .ended outcome := by
  induction turns generalizing run with
  | nil => exact Pass.calls_left_zero run.pass (Nat.le_zero.mp enough)
  | cons turn rest ih =>
    refine ih (run.after policy key turn) ?_
    rcases run.pass.unfinished_or_ended with unfinished | ⟨outcome, ended⟩
    · rw [after_unfinished policy key run turn unfinished]
      have fewer := Pass.step_left (Stores.answering turn.trouble) policy key run.pass
        (run.stores.replay turn.others) unfinished
      exact Nat.le_of_lt_succ (Nat.lt_of_lt_of_le fewer enough)
    · rw [after_ended policy key run turn outcome ended, ended]
      exact Nat.zero_le _

section Accounts

variable {policy key} {calls : List StoreCall} {pass : Pass}

/-- The calls have moved nothing, or the last of them has committed the pod's record. -/
theorem still_or_committed (accounts : Accounts policy key calls pass) :
    Still calls ∨ ∃ pod record reads last, calls = reads ++ [last] ∧ Still reads ∧
      Reads key pod calls ∧ record.key = Pass.recordKey pod ∧
      last.after = last.before.commit record := by
  cases accounts with
  | begun => exact Or.inl still_none
  | reading pod still reads => exact Or.inl still
  | creating pod record still reads carries => exact Or.inl still
  | updating pod record still reads carries => exact Or.inl still
  | gone only what still answered => exact Or.inl (still_single still)
  | settled pod last name work still reads accesses commits settled =>
    rcases commits with same | ⟨record, named, committed⟩
    · exact Or.inl (still_append still same)
    · exact Or.inr ⟨pod, record, _, last, rfl, still, reads_append reads, named, committed⟩
  | undone outcome undone still => exact Or.inl still

theorem accounts_write_once (accounts : Accounts policy key calls pass) :
    (calls.filter writes).length ≤ 1 := by
  rcases still_or_committed accounts with still | ⟨_, _, reads, last, rfl, still, _⟩
  · simp [still_writes still]
  · rw [List.filter_append, still_writes still, List.nil_append]
    exact List.length_filter_le _ [last]

theorem accounts_commits (accounts : Accounts policy key calls pass) (call : StoreCall)
    (member : call ∈ calls) :
    call.after = call.before ∨ ∃ pod record, Reads key pod calls ∧
      record.key = Pass.recordKey pod ∧ call.after = call.before.commit record := by
  rcases still_or_committed accounts with
    still | ⟨pod, record, reads, last, rfl, still, read, named, committed⟩
  · exact Or.inl (still call member)
  · rcases List.mem_append.mp member with earlier | now
    · exact Or.inl (still call earlier)
    · cases List.mem_singleton.mp now
      exact Or.inr ⟨pod, record, read, named, committed⟩

theorem accounts_undone (outcome : PassOutcome) (undone : ∀ work, outcome ≠ .done work)
    (accounts : Accounts policy key calls (.ended outcome)) : Still calls := by
  cases accounts with
  | gone call what still answered => exact absurd rfl (undone _)
  | settled pod last name work still reads accesses commits settled => exact absurd rfl (undone _)
  | undone outcome _ still => exact still

end Accounts

/-- Whatever others do and whichever calls fail, a pass is over after three calls. One of them
writes at most, and writes the record of the pod that the pass has read. A pass that is not done has
changed nothing. One that is done was told that there is no pod, and has changed nothing; or its
last call, the only one that may have written, has left the record such that the pod has nothing to
add to it. In both cases passes that nothing disturbs from there on find nothing to do. From any
stores, what such passes have to do is all done by the first. -/
theorem atomic_and_settling (policy : Policy) (key : ObjectName) (history : List Stores.Change)
    (turns : List PassTurn) :
    let stores := Stores.empty.replay history
    let run := (start stores).replay policy key turns
    (3 ≤ turns.length → ∃ outcome, run.pass = .ended outcome) ∧
    (run.calls.filter writes).length ≤ 1 ∧
    (∀ call ∈ run.calls, call.after.pods = call.before.pods ∧
      (call.after = call.before ∨ ∃ pod record, Reads key pod run.calls ∧
        record.key = Pass.recordKey pod ∧ call.after = call.before.commit record)) ∧
    (∀ outcome, run.pass = .ended outcome → (∀ work, outcome ≠ .done work) → Still run.calls) ∧
    (∀ work, run.pass = .ended (.done work) →
      (∃ call what, run.calls = [call] ∧ call.after = call.before ∧
        call.podAnswer key = .error (.notFound what) ∧
        (call.after.pods.pods.find? key = none →
          Pass.Steady policy key call.after .podGone)) ∨
      ∃ pod reads last name record, run.calls = reads ++ [last] ∧ Still reads ∧
        Reads key pod run.calls ∧
        last.pass.recordCall? = some ⟨name, Pass.recordKey pod⟩ ∧
        last.after.records.records.find? (Pass.recordKey pod) = some record ∧
        record.spec.changedBy (.ofPod pod) policy = false ∧
        record.spec.apply (.ofPod pod) policy = record.spec ∧
        (last.after.pods.pods.find? key = some pod →
          Pass.Steady policy key last.after .upToDate)) ∧
    ∃ first again calls after,
      Pass.run Stores.access policy key stores = (.ended (.done first), calls, after) ∧
        Pass.Steady policy key after again := by
  intro stores run
  have sound : stores.records.Sound := Stores.replay_sound history _ RecordStore.sound_empty
  have ⟨accounts, _⟩ : run.Accounted policy key :=
    replay_accounted policy key turns (start stores) ⟨.begun, sound⟩
  refine ⟨?_, accounts_write_once accounts, ?_, ?_, ?_, Pass.run_steadies policy key sound⟩
  · exact replay_ends policy key turns (start stores)
  · intro call member
    have commits := accounts_commits accounts call member
    refine ⟨?_, commits⟩
    rcases commits with same | ⟨_, record, _, _, same⟩
    · rw [same]
    · rw [same]
      rfl
  · intro outcome ended undone
    exact accounts_undone outcome undone (ended ▸ accounts)
  · intro work ended
    rw [ended] at accounts
    generalize run.calls = calls at accounts
    cases accounts with
    | gone call what still answered =>
      refine Or.inl ⟨call, what, rfl, still, answered, ?_⟩
      intro absent
      exact Pass.steady_of_run _ _ (Pass.run_gone absent)
    | settled pod last name work still reads accesses commits settled =>
      have ⟨record, found, unchanged⟩ := settled
      refine Or.inr ⟨pod, _, last, name, record, rfl, still, reads_append reads, accesses, found,
        unchanged, RecordSpec.apply_of_unchanged record.spec _ policy unchanged, ?_⟩
      intro held
      exact Pass.steady_of_settled pod held settled
    | undone outcome undone still => exact absurd rfl (undone work)

-- Somebody else creates the record between the last two calls, and the pass gives its key back.
example :
    let run := (start (Stores.empty.replay [.pods (.ofPods [earlyPod])])).replay .firstWriteWins
      earlyPod.key
      [⟨[], none⟩, ⟨[], none⟩, ⟨[.create (.ofPod earlyPod .firstWriteWins)], none⟩]
    run.pass = .ended .requeue ∧ run.calls.map writes = [false, false, false] ∧
      run.stores.records.version = 1 := by
  decide +kernel

end PassRun
end StartupLatency
