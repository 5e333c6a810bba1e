import Mathlib.Data.List.Induction
import StartupLatency.Proofs.OrderlyRuns

/-!
Where a change of a pod is between the admission of an event for it and its arrival in the record.
The key waits in the queue or for its pass, or is to be enqueued again, or some pass in progress
still brings the pod as it is now; failing all of these, there was a moment at which the record had
nothing left to take from the pod. Where the first write wins, that moment lasts.
-/

namespace StartupLatency

/-- The pod's record is there, and the pod as it is has nothing to add to it. -/
def Settled (policy : Policy) (pod : Pod) (stores : Stores) : Prop :=
  ∃ record, stores.records.records.find? (Pass.recordKey pod) = some record ∧
    record.spec.changedBy (.ofPod pod) policy = false

namespace Pass

def Carries (policy : Policy) (pod : Pod) (record : Record) : Prop :=
  record.key = recordKey pod ∧ record.spec.changedBy (.ofPod pod) policy = false

/-- Unless its key comes back, a pass in this state leaves the pod settled: it will still read the
pod, or it holds the pod, or what it holds would settle it. -/
def Brings (policy : Policy) (pod : Pod) : Pass → Prop
  | .readingPod => True
  | .readingRecord seen => seen = pod
  | .creating record => Carries policy pod record
  | .updating record => Carries policy pod record
  | .ended (.done _) => False
  | .ended _ => True

variable {policy : Policy} {pass next : Pass} {stores after : Stores}

theorem settled_commit (pod : Pod) (record : Record) (carries : Carries policy pod record) :
    Settled policy pod (stores.commit record) :=
  ⟨(stores.records.commit record).1, by simp [Stores.commit, carries.1], carries.2⟩

theorem moves_bring (pod : Pod) (trouble : Option String)
    (moves : Moves policy pod.key (trouble.map .backend) pass stores next after)
    (sound : stores.records.Sound) (stored : stores.pods.pods.find? pod.key = some pod)
    (brings : Brings policy pod pass) : Brings policy pod next ∨ Settled policy pod after := by
  cases moves with
  | podRead seen found =>
    rw [stored] at found
    cases found
    exact Or.inl rfl
  | podGone gone =>
    rcases gone with absent | ⟨what, reported⟩
    · rw [stored] at absent
      cases absent
    · cases trouble <;> cases reported
  | upToDate seen record found unchanged =>
    cases brings
    exact Or.inr ⟨record, found, unchanged⟩
  | outOfDate seen record found =>
    cases brings
    have named : record.key = recordKey pod := sound.filed _ _ found
    exact Or.inl ⟨named, RecordSpec.applied_unchanged record.spec _ policy⟩
  | missing seen =>
    cases brings
    exact Or.inl ⟨rfl, Record.of_pod_unchanged pod policy⟩
  | created record free => exact Or.inr (settled_commit pod record brings)
  | updated record current found same => exact Or.inr (settled_commit pod record brings)
  | createOutrun record => exact Or.inl trivial
  | updateOutrun record => exact Or.inl trivial
  | failed pass error unfinished => exact Or.inl trivial
  | idle outcome => exact Or.inl brings

end Pass

namespace Workload

/-- The places where a pod's key, or the pod itself, is on its way to the record. -/
inductive Awaited (load : Workload) (pod : Pod) : Prop where
  | waiting (member : pod.key ∈ load.queue.waiting)
  | held (same : load.held = some pod.key)
  | due (entry : ScheduledRetry) (member : entry ∈ load.retries) (same : entry.key = pod.key)
  | brought (run : RunningPass) (member : run ∈ load.running) (same : run.key = pod.key)
      (brings : run.pass.Brings load.policy pod)

variable {load after : Workload} {stores world : Stores} {shown : List Happening}

theorem turns_awaited (pod : Pod) (turns : Turns load stores after world shown)
    (orderly : Orderly load stores) (stored : stores.pods.pods.find? pod.key = some pod)
    (awaited : Awaited load pod) : Awaited after pod ∨ Settled load.policy pod world := by
  cases turns with
  | dropped => exact Or.inl awaited
  | admitted key =>
    refine Or.inl ?_
    cases awaited with
    | waiting member =>
      exact .waiting (WorkQueue.enqueue_keeps _ _ key _ orderly.marked member)
    | held same => exact .held same
    | due entry member same => exact .due entry member same
    | brought run member same brings => exact .brought run member same brings
  | received key sender queue free next =>
    refine Or.inl ?_
    cases awaited with
    | waiting member =>
      rw [(WorkQueue.next_cases _ _ key sender next).1] at member
      rcases List.mem_cons.mp member with first | rest
      · exact .held (congrArg some first.symm)
      · exact .waiting rest
    | held same =>
      rw [free] at same
      cases same
    | due entry member same => exact .due entry member same
    | brought run member same brings => exact .brought run member same brings
  | started key begun wakes held =>
    refine Or.inl ?_
    cases awaited with
    | waiting member => exact .waiting member
    | held same =>
      rw [held] at same
      exact .brought _ (List.mem_append_right _ List.mem_cons_self) (Option.some.inj same) trivial
    | due entry member same => exact .due entry member same
    | brought run member same brings =>
      exact .brought run (List.mem_append_left _ member) same brings
  | advanced run next world trouble found unfinished moves =>
    -- Its own move is all that can make a pass give up the pod, and then the record has it.
    cases awaited with
    | waiting member => exact Or.inl (.waiting member)
    | held same => exact Or.inl (.held same)
    | due entry member same => exact Or.inl (.due entry member same)
    | brought other member same brings =>
      by_cases number : other.order = run.order
      · have itself := run_unique orderly other run member (List.mem_of_find?_eq_some found) number
        subst itself
        rw [same] at moves
        rcases Pass.moves_bring pod trouble moves orderly.sound stored brings with bring | settled
        · refine Or.inl (.brought { other with pass := next } ?_ same bring)
          exact List.mem_map.mpr ⟨other, member, if_pos rfl⟩
        · exact Or.inr settled
      · exact Or.inl (.brought other (List.mem_map.mpr ⟨other, member, if_neg number⟩) same brings)
  | finished run work found ended =>
    refine Or.inl ?_
    cases awaited with
    | waiting member => exact .waiting member
    | held same => exact .held same
    | due entry member same => exact .due entry member same
    | brought other member same brings =>
      have another : other.order ≠ run.order := by
        intro number
        have itself := run_unique orderly other run member (List.mem_of_find?_eq_some found) number
        rw [itself, ended] at brings
        exact brings
      exact .brought other (List.mem_filter.mpr ⟨member, decide_eq_true another⟩) same brings
  | givenBack run due found =>
    refine Or.inl ?_
    cases awaited with
    | waiting member => exact .waiting member
    | held same => exact .held same
    | due entry member same => exact .due entry (List.mem_append_left _ member) same
    | brought other member same brings =>
      by_cases number : other.order = run.order
      · have itself := run_unique orderly other run member (List.mem_of_find?_eq_some found) number
        exact .due _ (List.mem_append_right _ List.mem_cons_self) (itself ▸ same)
      · exact .brought other (List.mem_filter.mpr ⟨member, decide_eq_true number⟩) same brings
  | retried entry found =>
    refine Or.inl ?_
    cases awaited with
    | waiting member =>
      exact .waiting (WorkQueue.enqueue_keeps _ _ entry.key _ orderly.marked member)
    | held same => exact .held same
    | due other member same =>
      by_cases number : other.order = entry.order
      · have itself :=
          retry_unique orderly other entry member (List.mem_of_find?_eq_some found) number
        have waits := WorkQueue.enqueue_waits load.queue .retry entry.key orderly.marked
        rw [← itself, same] at waits
        exact .waiting (by simpa only [← itself, same] using waits)
      · exact .due other (List.mem_filter.mpr ⟨member, decide_eq_true number⟩) same
    | brought run member same brings => exact .brought run member same brings

theorem admission_awaited (key : ObjectName) (turns : Turns load stores after world shown)
    (orderly : Orderly load stores) (admitted : .admitted key ∈ shown) :
    key ∈ after.queue.waiting := by
  cases turns with
  | admitted other =>
    cases List.mem_singleton.mp admitted
    exact WorkQueue.enqueue_waits _ _ key orderly.marked
  | advanced run next world trouble found unfinished moves =>
    rcases next.mem_shows run.order _ admitted with ⟨pod, same, _⟩ | ⟨record, same⟩ <;> cases same
  | _ => cases admitted

end Workload

/-- An event for the key was admitted after the pod of that key took the value that it has. -/
def AdmittedSince (key : ObjectName) : List Happening → Prop
  | [] => False
  | .changed pod :: rest => pod.key ≠ key ∧ AdmittedSince key rest
  | .admitted other :: rest => other = key ∨ AdmittedSince key rest
  | .read _ _ :: rest => AdmittedSince key rest
  | .wrote _ _ :: rest => AdmittedSince key rest

instance decidableAdmittedSince (key : ObjectName) : (log : List Happening) →
    Decidable (AdmittedSince key log)
  | [] => inferInstanceAs (Decidable False)
  | .changed pod :: rest =>
    have := decidableAdmittedSince key rest
    inferInstanceAs (Decidable (pod.key ≠ key ∧ AdmittedSince key rest))
  | .admitted other :: rest =>
    have := decidableAdmittedSince key rest
    inferInstanceAs (Decidable (other = key ∨ AdmittedSince key rest))
  | .read _ _ :: rest => decidableAdmittedSince key rest
  | .wrote _ _ :: rest => decidableAdmittedSince key rest

theorem admitted_since_append (key : ObjectName) (shown log : List Happening)
    (since : AdmittedSince key (shown ++ log)) : .admitted key ∈ shown ∨ AdmittedSince key log := by
  induction shown with
  | nil => exact Or.inr since
  | cons happening rest ih =>
    have later : AdmittedSince key (rest ++ log) →
        .admitted key ∈ happening :: rest ∨ AdmittedSince key log :=
      fun since => (ih since).imp_left (List.mem_cons_of_mem happening)
    cases happening with
    | changed pod => exact later since.2
    | admitted other =>
      rcases since with same | since
      · exact Or.inl (same ▸ List.mem_cons_self)
      · exact later since
    | read order pod => exact later since
    | wrote order other => exact later since

namespace ControllerRun

def SettledOnce (run : ControllerRun) (history : List RunMove) (pod : Pod) : Prop :=
  ∃ before rest, history = before ++ rest ∧
    (replay before run).stores.pods.pods.find? pod.key = some pod ∧
    (∀ other, .upsert other ∈ rest → other.key = pod.key → other = pod) ∧
    Settled run.load.policy pod (replay before run).stores

theorem settled_now (run : ControllerRun) (history : List RunMove) (pod : Pod)
    (stored : (replay history run).stores.pods.pods.find? pod.key = some pod)
    (settled : Settled run.load.policy pod (replay history run).stores) :
    run.SettledOnce history pod :=
  ⟨history, [], (List.append_nil history).symm, stored,
    fun _ member => absurd member List.not_mem_nil, settled⟩

theorem settled_still (run : ControllerRun) (history : List RunMove) (move : RunMove) (pod : Pod)
    (once : run.SettledOnce history pod)
    (unmoved : ∀ other, move = .upsert other → other.key = pod.key → other = pod) :
    run.SettledOnce (history ++ [move]) pod := by
  obtain ⟨before, rest, split, stored, quiet, settled⟩ := once
  refine ⟨before, rest ++ [move], by rw [split, List.append_assoc], stored, fun other member => ?_,
    settled⟩
  rcases List.mem_append.mp member with earlier | last
  · exact quiet other earlier
  · exact unmoved other (List.mem_singleton.mp last).symm

theorem upsert_unmoves (run : ControllerRun) (other pod : Pod)
    (stored : (run.after (.upsert other)).stores.pods.pods.find? pod.key = some pod)
    (same : other.key = pod.key) : other = pod := by
  simpa [after, PodStore.upsert, same] using stored

-- Had the pod only now taken its value, no event for it could have been admitted since.
theorem upsert_since (run : ControllerRun) (other pod : Pod)
    (stored : (run.after (.upsert other)).stores.pods.pods.find? pod.key = some pod)
    (since : AdmittedSince pod.key (run.after (.upsert other)).log) :
    run.stores.pods.pods.find? pod.key = some pod ∧ AdmittedSince pod.key run.log := by
  simp only [after] at since
  by_cases same : other.key = pod.key
  · cases upsert_unmoves run other pod stored same
    split at since
    · rename_i unchanged
      exact ⟨unchanged, since⟩
    · exact absurd rfl since.1
  · refine ⟨by simpa [after, PodStore.upsert, Ne.symm same] using stored, ?_⟩
    split at since
    · exact since
    · exact since.2

/-- After an admission, the pod as it is is still awaited, or there was a moment since it took this
value at which it had settled. -/
theorem awaited_or_settled (run : ControllerRun) (orderly : run.Orderly) (fresh : run.log = [])
    (history : List RunMove) (pod : Pod)
    (stored : (replay history run).stores.pods.pods.find? pod.key = some pod)
    (since : AdmittedSince pod.key (replay history run).log) :
    (replay history run).load.Awaited pod ∨ run.SettledOnce history pod := by
  induction history using List.reverseRecOn with
  | nil =>
    rw [replay, List.foldl_nil, fresh] at since
    exact since.elim
  | append_singleton history move ih =>
    have last : replay (history ++ [move]) run = (replay history run).after move :=
      replay_append history [move] run
    obtain ⟨ordered, policy, _⟩ := replay_orderly history run orderly
    rw [last] at stored since ⊢
    -- A new value of the pod itself would have to wait for an admission of its own.
    by_cases upsert : ∃ other, move = .upsert other
    · obtain ⟨other, rfl⟩ := upsert
      have before := upsert_since _ other pod stored since
      have unmoved := upsert_unmoves _ other pod stored
      rcases ih before.1 before.2 with awaited | once
      · exact Or.inl awaited
      · refine Or.inr (settled_still run history _ pod once fun _ same => ?_)
        cases same
        exact unmoved
    · obtain ⟨shown, turns, log⟩ := (after_turns (replay history run) move).resolve_left upsert
      have unmoved : ∀ other, move = .upsert other → other.key = pod.key → other = pod :=
        fun other same => absurd ⟨other, same⟩ upsert
      rw [log] at since
      rw [Workload.turns_pods turns] at stored
      rcases admitted_since_append pod.key shown _ since with admitted | before
      · exact Or.inl (.waiting (Workload.admission_awaited pod.key turns ordered admitted))
      · rcases ih stored before with awaited | once
        · rcases Workload.turns_awaited pod turns ordered stored awaited with still | settled
          · exact Or.inl still
          · rw [policy, ← last] at settled
            have present : (replay (history ++ [move]) run).stores.pods.pods.find? pod.key =
                some pod := by rw [last, Workload.turns_pods turns, stored]
            exact Or.inr (settled_now run _ pod present settled)
        · exact Or.inr (settled_still run history move pod once unmoved)

-- Where nothing is left to do, no place is left at which a change could wait.
theorem quiet_unawaited (run : ControllerRun) (quiet : run.controller.Quiet) (pod : Pod) :
    ¬ run.load.Awaited pod := by
  intro awaited
  cases awaited with
  | waiting member =>
    rw [load, Controller.workload, quiet.waiting] at member
    exact absurd member List.not_mem_nil
  | held same =>
    rw [load, Controller.workload, quiet.held] at same
    cases same
  | due entry member =>
    rw [load, Controller.workload, quiet.retries] at member
    exact absurd member List.not_mem_nil
  | brought busy member =>
    rw [load, Controller.workload, quiet.running] at member
    exact absurd member List.not_mem_nil

/-- Where the first write wins, no admitted change is lost: whenever nothing is left to do, the
record of a pod has taken in all of the pod as it has been since its last admitted event. -/
theorem admitted_changes_arrive (settings : ControllerSettings) (health : HealthRegistry)
    (stores : Stores) (built : stores.Built) (first : settings.policy = .firstWriteWins)
    (moves : List RunMove) (pod : Pod)
    (quiet : (replay moves (start settings health stores)).controller.Quiet)
    (stored : (replay moves (start settings health stores)).stores.pods.pods.find? pod.key =
      some pod)
    (since : AdmittedSince pod.key (replay moves (start settings health stores)).log) :
    ∃ record,
      (replay moves (start settings health stores)).stores.records.records.find?
        (Pass.recordKey pod) = some record ∧
      record.spec.changedBy (.ofPod pod) .firstWriteWins = false ∧
      record.spec.apply (.ofPod pod) .firstWriteWins = record.spec := by
  have orderly := start_orderly settings health stores built
  rcases awaited_or_settled _ orderly rfl moves pod stored since with awaited | once
  · exact absurd awaited (quiet_unawaited _ quiet pod)
  -- What the record had taken in by then, it has retained.
  · obtain ⟨before, rest, rfl, _, _, record, found, unchanged⟩ := once
    obtain ⟨ordered, policy, _⟩ := replay_orderly before _ orderly
    have retained := (replay_orderly rest _ ordered).2.2
    rw [policy] at retained
    have firstly : (start settings health stores).load.policy = .firstWriteWins := first
    rw [firstly] at retained unchanged
    obtain ⟨later, present, _, _, kept⟩ := retained _ record found
    have still := RecordSpec.unchanged_of_keeps _ _ _ kept unchanged
    refine ⟨later, ?_, still, RecordSpec.apply_of_unchanged _ _ _ still⟩
    rw [replay_append]
    exact present

-- Settings under which every event is admitted and two passes may overlap.
def everyPod (policy : Policy) : ControllerSettings :=
  { policy := policy, filter := .everything, maxConcurrent := 2, queueCapacity := 1,
    backoff := .default }

-- The pod changes while the pass that was started for its creation is under way, and the second
-- pass creates the record.
def overtakenPass : List RunMove :=
  [.upsert earlyPod, .send (.created earlyPod), .act .takeEvent none 0, .act .receive none 0,
    .act .start none 0, .act (.advance 0) none 0, .upsert latePod,
    .send (.updated earlyPod latePod), .act .takeEvent none 0, .act .receive none 0,
    .act .start none 0, .act (.advance 1) none 0, .act (.advance 1) (some "down") 0,
    .act (.settle 1) none 0, .act (.retry 2) none 0, .act .receive none 0, .act .start none 0,
    .act (.advance 3) none 0, .act (.advance 3) none 0, .act (.advance 3) none 0,
    .act (.settle 3) none 0, .act (.advance 0) none 0, .act (.settle 0) none 0]

theorem change_survives_overtaking :
    ∃ record,
      (replay overtakenPass
        (start (everyPod .firstWriteWins) .empty .empty)).stores.records.records.find?
        (Pass.recordKey latePod) = some record ∧
      record.spec.changedBy (.ofPod latePod) .firstWriteWins = false ∧
      record.spec.apply (.ofPod latePod) .firstWriteWins = record.spec := by
  have quiet : (replay overtakenPass
      (start (everyPod .firstWriteWins) .empty .empty)).controller.Quiet := by decide +kernel
  have stored : (replay overtakenPass
      (start (everyPod .firstWriteWins) .empty .empty)).stores.pods.pods.find? latePod.key =
      some latePod := by decide +kernel
  have since : AdmittedSince latePod.key (replay overtakenPass
      (start (everyPod .firstWriteWins) .empty .empty)).log := by decide +kernel
  exact admitted_changes_arrive (everyPod .firstWriteWins) .empty .empty .empty rfl overtakenPass
    latePod quiet stored since

end ControllerRun
end StartupLatency
