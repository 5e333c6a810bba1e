import StartupLatency.Controller.Schedule
import StartupLatency.Proofs.QueueRuns
import StartupLatency.Proofs.RetrySchedule

/-!
Where the controller has the keys that it has at hand: in an event that it has not looked at, in its
queue, at its dispatcher, in a pass or in a retry to come. As long as every key is in one place at
most, an action moves one key to its next place and leaves all others where they are. What it shows
of passes is that one key's.
-/

namespace StartupLatency

inductive Place where
  | announced
  | waiting
  | held
  | running (calls : Nat)
  | resting (due : Nat)

/-- How a key goes from place to place, with the time at which a pass begins by it and the outcome
of one that ends. The delay is the one for the case that its pass failed. -/
inductive Place.Moves (now delay : Nat) :
    Place → Option Place → List Nat → List PassOutcome → Prop where
  | admitted : Moves now delay .announced (some .waiting) [] []
  | received : Moves now delay .waiting (some .held) [] []
  | begun : Moves now delay .held (some (.running 3)) [now] []
  | advanced (calls left : Nat) (fewer : left < calls) :
      Moves now delay (.running calls) (some (.running left)) [] []
  | done (work : PassWork) : Moves now delay (.running 0) none [] [.done work]
  | requeued : Moves now delay (.running 0) (some (.resting now)) [] [.requeue]
  | failed (error : StoreError) :
      Moves now delay (.running 0) (some (.resting (now + delay))) [] [.failed error]
  | woken (due : Nat) (come : due ≤ now) : Moves now delay (.resting due) (some .waiting) [] []

section Lists

variable {α : Type}

theorem perm_between (before : List α) {now rest : List α} {x : α} (same : now.Perm (x :: rest))
    (after : List α) : (before ++ now ++ after).Perm (x :: (before ++ rest ++ after)) :=
  ((same.append_left before).trans List.perm_middle).append_right after

theorem perm_taken_out {number : α → Nat} {all : List α} {entry : α}
    (distinct : (all.map number).Nodup) (member : entry ∈ all) :
    all.Perm (entry :: all.filter fun other => number other ≠ number entry) := by
  induction all with
  | nil => cases member
  | cons first rest ih =>
    obtain ⟨unused, others⟩ := List.nodup_cons.mp distinct
    rcases List.mem_cons.mp member with rfl | later
    · have kept : ∀ other ∈ rest, decide (number other ≠ number entry) = true := by
        intro other present
        refine decide_eq_true fun same => unused ?_
        exact same ▸ List.mem_map_of_mem present
      rw [List.filter_cons_of_neg (by simp), List.filter_eq_self.mpr kept]
    · have different : number first ≠ number entry := by
        intro same
        exact unused (same ▸ List.mem_map_of_mem later)
      rw [List.filter_cons_of_pos (by simpa using different)]
      exact ((ih others later).cons first).trans (List.Perm.swap entry first _)

end Lists

structure Hands where
  inbox : List PodEvent
  waiting : List ObjectName
  held : Option ObjectName
  running : List RunningPass
  retries : List ScheduledRetry

namespace Hands

variable (hands : Hands)

def board : List (ObjectName × Place) :=
  hands.inbox.map (fun event => (event.pod.key, .announced)) ++
    hands.waiting.map (fun key => (key, .waiting)) ++
    hands.held.toList.map (fun key => (key, .held)) ++
    hands.running.map (fun run => (run.key, .running run.pass.callsLeft)) ++
    hands.retries.map fun entry => (entry.key, .resting entry.due)

theorem board_inbox {event : PodEvent} {rest : List PodEvent}
    (same : hands.inbox.Perm (event :: rest)) :
    hands.board.Perm ((event.pod.key, .announced) :: { hands with inbox := rest }.board) := by
  have parts := perm_between [] (same.map fun event => (event.pod.key, Place.announced))
  simpa only [board, List.append_assoc, List.nil_append] using parts _

theorem board_waiting {key : ObjectName} {rest : List ObjectName}
    (same : hands.waiting.Perm (key :: rest)) :
    hands.board.Perm ((key, .waiting) :: { hands with waiting := rest }.board) := by
  have parts := perm_between (hands.inbox.map fun event => (event.pod.key, Place.announced))
    (same.map fun key => (key, Place.waiting))
  simpa only [board, List.append_assoc] using parts _

theorem board_held {key : ObjectName} (same : hands.held = some key) :
    hands.board.Perm ((key, .held) :: { hands with held := none }.board) := by
  have parts := perm_between (hands.inbox.map (fun event => (event.pod.key, Place.announced)) ++
      hands.waiting.map fun key => (key, Place.waiting))
    (List.Perm.refl [(key, Place.held)])
  simpa only [board, same, List.append_assoc] using! parts _

theorem board_running {run : RunningPass} {rest : List RunningPass}
    (same : hands.running.Perm (run :: rest)) :
    hands.board.Perm
      ((run.key, .running run.pass.callsLeft) :: { hands with running := rest }.board) := by
  have parts := perm_between (hands.inbox.map (fun event => (event.pod.key, Place.announced)) ++
      hands.waiting.map (fun key => (key, Place.waiting)) ++
      hands.held.toList.map fun key => (key, Place.held))
    (same.map fun run => (run.key, Place.running run.pass.callsLeft))
  simpa only [board, List.append_assoc] using parts _

theorem board_retries {entry : ScheduledRetry} {rest : List ScheduledRetry}
    (same : hands.retries.Perm (entry :: rest)) :
    hands.board.Perm ((entry.key, .resting entry.due) :: { hands with retries := rest }.board) :=
  ((same.map fun entry => (entry.key, Place.resting entry.due)).append_left _).trans
    List.perm_middle

end Hands

def podReads (key : ObjectName) (trace : List Activity) : List Nat :=
  trace.filterMap fun
    | .podRead time other => if other = key then some time else none
    | _ => none

theorem pod_reads_append (key : ObjectName) (trace more : List Activity) :
    podReads key (trace ++ more) = podReads key trace ++ podReads key more := List.filterMap_append

namespace Controller

def hands (c : Controller) : Hands := ⟨c.inbox, c.queue.waiting, c.held, c.running, c.retries⟩

def delayAfter (c : Controller) (key : ObjectName) : Nat :=
  (c.settings.backoff.delay (c.failuresAfter key)).ticks

def Comes (c : Controller) : ControllerAction → Prop
  | .advance order => ∀ run, c.find? order = some run → run.wakes ≤ c.now
  | .settle order => ∀ run, c.find? order = some run → run.wakes ≤ c.now
  | .retry order =>
    ∀ entry, c.retries.find? (fun other => other.order = order) = some entry → entry.due ≤ c.now
  | _ => True

-- Admission goes on with the next event, or with the sender that it has in the queue.
def Admitting (c : Controller) : Prop :=
  c.admission = .receiving ∨
    c.admission = .sending ∧ ∃ waiter ∈ c.queue.suspended, waiter.sender = .admission

/-- What holds of a controller that keeps dispatching admitted events, with one place for a key. -/
structure Tidy (c : Controller) : Prop where
  dispatching : c.dispatching = true
  receiving : c.queue.receiving = true
  line : c.queue.InLine
  room : 0 < c.queue.capacity
  admits : ∀ event ∈ c.inbox, c.settings.filter.admits event = true
  admitting : c.Admitting
  passes : Numbered c.order (c.running.map RunningPass.order)
  entries : Numbered c.order (c.retries.map ScheduledRetry.order)
  distinct : (c.hands.board.map Prod.fst).Nodup
  awake : ∀ run ∈ c.running, run.wakes ≤ c.now
  early : ∀ entry ∈ c.retries, c.now ≤ entry.due

/-- An action moves one key from its place, and the others stay. -/
structure Shift (c : Controller) (action : ControllerAction) (result : Controller)
    (key : ObjectName) (left : Place) (entered : Option Place) (begun : List Nat)
    (ended : List PassOutcome) (rest : List (ObjectName × Place)) : Prop where
  moves : Place.Moves c.now (c.delayAfter key) left entered begun ended
  before : c.hands.board.Perm ((key, left) :: rest)
  after : result.hands.board.Perm (entered.toList.map (fun place => (key, place)) ++ rest)
  reads : ∀ other, podReads other (c.activity action) = if key = other then begun else []
  ends : DispatchEvent.outcomes (c.dispatched action result) = ended.map fun outcome => (key, outcome)

section Shifts

variable {σ : Type} {access : StoreAccess σ} {c : Controller} {world : σ}

theorem enqueue_fresh (tidy : c.Tidy) {key : ObjectName} {place : Place}
    {rest : List (ObjectName × Place)} (elsewhere : place ≠ .waiting)
    (there : c.hands.board.Perm ((key, place) :: rest)) (sender : QueueSender) :
    (c.queue.enqueue sender key).2.waiting = c.queue.waiting ++ [key] := by
  have fresh : key ∉ c.queue.waiting := by
    intro waits
    have seen : (key, .waiting) ∈ c.hands.board := by simp [Hands.board, hands, waits]
    rcases List.mem_cons.mp (there.mem_iff.mp seen) with same | again
    · exact elsewhere (congrArg Prod.snd same).symm
    · have distinct := ((there.map Prod.fst).nodup_iff.mp tidy.distinct)
      exact (List.nodup_cons.mp distinct).1 (List.mem_map.mpr ⟨_, again, rfl⟩)
  rcases WorkQueue.enqueue_in_line c.queue sender key tidy.line tidy.receiving with
    ⟨waits, _⟩ | ⟨_, _, _, same, _, _, _, waits, _⟩
  · exact absurd waits fresh
  · rw [same, waits]

theorem admitted_shift (tidy : c.Tidy) {event : PodEvent} {others : List PodEvent}
    (inbox : c.inbox = event :: others) (metrics : Metrics) (admission : Admission) :
    c.Shift .takeEvent
      { c with
        inbox := others
        metrics := metrics
        admission := admission
        queue := (c.queue.enqueue .admission event.pod.key).2 }
      event.pod.key .announced (some .waiting) [] [] { c.hands with inbox := others }.board := by
  have before : c.hands.board.Perm
      ((event.pod.key, .announced) :: { c.hands with inbox := others }.board) :=
    c.hands.board_inbox (List.Perm.of_eq inbox)
  have waits := enqueue_fresh tidy (by simp) before .admission
  constructor
  · exact .admitted
  · exact before
  · refine Hands.board_waiting (hands _) ?_
    simp only [hands]
    rw [waits]
    exact List.perm_append_singleton _ _
  · intro other
    exact (ite_self _).symm
  · rfl

theorem received_shift {key : ObjectName} {sender : Option (Suspended QueueSender)}
    {queue : WorkQueue QueueSender} (metrics : Metrics) (admission : Admission)
    (tidy : c.Tidy) (free : c.held = none) (next : c.queue.next? = some (key, sender, queue)) :
    c.Shift .receive
      { c with queue := queue, held := some key, metrics := metrics, admission := admission }
      key .waiting (some .held) [] [] { c.hands with waiting := queue.waiting }.board := by
  obtain ⟨_, _, _, waits, _⟩ := WorkQueue.next_in_line _ _ _ _ next tidy.line
  constructor
  · exact .received
  · exact c.hands.board_waiting (List.Perm.of_eq waits)
  · have held := Hands.board_held { c.hands with waiting := queue.waiting, held := some key } rfl
    rw [← free] at held
    exact held
  · intro other
    exact (ite_self _).symm
  · rfl

theorem started_shift {key : ObjectName} (held : c.held = some key) :
    c.Shift .start
      { c with
        held := none
        running := c.running ++ [⟨c.order, key, .readingPod, c.now, c.now + 0⟩]
        order := c.order + 1 }
      key .held (some (.running 3)) [c.now] [] { c.hands with held := none }.board := by
  constructor
  · exact .begun
  · exact c.hands.board_held held
  · let run : RunningPass := ⟨c.order, key, .readingPod, c.now, c.now + 0⟩
    exact Hands.board_running { c.hands with held := none, running := c.running ++ [run] }
      (List.perm_append_singleton run c.running)
  · intro other
    simp only [activity, held, podReads, Option.toList_some, List.map_cons, List.map_nil]
    by_cases same : key = other <;> simp [same]
  · simp [dispatched, held, DispatchEvent.outcomes]

theorem recorded_no_reads (key : ObjectName) (time : Nat) (calls : List Pass.RecordCall) :
    podReads key (calls.map fun call => .recordCall time call) = [] := by
  induction calls with
  | nil => rfl
  | cons call rest ih => exact ih

theorem advanced_shift (tidy : c.Tidy) {run : RunningPass} {next : Pass}
    (found : c.find? run.order = some run) (fewer : next.callsLeft < run.pass.callsLeft) :
    c.Shift (.advance run.order) (c.replace run.order next) run.key (.running run.pass.callsLeft)
      (some (.running next.callsLeft)) [] []
      { c.hands with
        running := c.running.filter fun other => other.order ≠ run.order }.board := by
  have parts := perm_taken_out tidy.passes.distinct (List.mem_of_find?_eq_some found)
  constructor
  · exact .advanced _ _ fewer
  · exact c.hands.board_running parts
  · have others : (c.running.filter fun other => other.order ≠ run.order).map
        (fun other => if other.order = run.order then { other with pass := next } else other) =
          c.running.filter fun other => other.order ≠ run.order := by
      refine (List.map_congr_left fun other member => ?_).trans (List.map_id _)
      exact if_neg (of_decide_eq_true (List.mem_filter.mp member).2)
    have replaced := parts.map fun other =>
      if other.order = run.order then { other with pass := next } else other
    rw [List.map_cons, if_pos rfl, others] at replaced
    exact Hands.board_running (c.replace run.order next).hands replaced
  · intro other
    rw [ite_self]
    exact recorded_no_reads other c.now _
  · rfl

theorem settled_shift (tidy : c.Tidy) {run : RunningPass} {outcome : PassOutcome}
    (found : c.find? run.order = some run) (ended : run.pass = .ended outcome) :
    ∃ entered, c.Shift (.settle run.order)
      (((c.dropRun run.order).observeDuration (c.now - run.started)).handle run.key outcome)
      run.key (.running 0) entered [] [outcome]
      { c.hands with
        running := c.running.filter fun other => other.order ≠ run.order }.board := by
  have before := c.hands.board_running
    (perm_taken_out tidy.passes.distinct (List.mem_of_find?_eq_some found))
  have ended' : run.pass.callsLeft = 0 := by rw [ended, Pass.callsLeft]
  rw [ended'] at before
  have reads (other : ObjectName) : podReads other (c.activity (.settle run.order)) =
      if run.key = other then [] else [] := (ite_self _).symm
  have shown (result : Controller) :
      DispatchEvent.outcomes (c.dispatched (.settle run.order) result) = [(run.key, outcome)] := by
    rw [dispatched_settle c result run outcome found ended]
    rfl
  cases outcome with
  | done work => exact ⟨none, .done work, before, List.Perm.refl _, reads, shown _⟩
  | requeue =>
    refine ⟨some (.resting c.now), .requeued, before, ?_, reads, shown _⟩
    let hands := { c.hands with running := c.running.filter fun other => other.order ≠ run.order }
    let entry : ScheduledRetry := ⟨c.order, run.key, c.now + 0⟩
    exact Hands.board_retries { hands with retries := c.retries ++ [entry] }
      (List.perm_append_singleton entry c.retries)
  | failed error =>
    refine ⟨some (.resting (c.now + c.delayAfter run.key)), .failed error, before, ?_, reads,
      shown _⟩
    let hands := { c.hands with running := c.running.filter fun other => other.order ≠ run.order }
    let entry : ScheduledRetry := ⟨c.order, run.key, c.now + c.delayAfter run.key⟩
    exact Hands.board_retries { hands with retries := c.retries ++ [entry] }
      (List.perm_append_singleton entry c.retries)

theorem retried_shift (tidy : c.Tidy) {entry : ScheduledRetry}
    (found : c.retries.find? (fun other => other.order = entry.order) = some entry)
    (come : entry.due ≤ c.now) :
    c.Shift (.retry entry.order)
      { c with
        retries := c.retries.filter fun other => other.order ≠ entry.order
        queue := (c.queue.enqueue .retry entry.key).2 }
      entry.key (.resting entry.due) (some .waiting) [] []
      { c.hands with
        retries := c.retries.filter fun other => other.order ≠ entry.order }.board := by
  have before := c.hands.board_retries
    (perm_taken_out tidy.entries.distinct (List.mem_of_find?_eq_some found))
  have waits := enqueue_fresh tidy (by simp) before .retry
  constructor
  · exact .woken entry.due come
  · exact before
  · refine Hands.board_waiting (hands _) ?_
    simp only [hands]
    rw [waits]
    exact List.perm_append_singleton _ _
  · intro other
    exact (ite_self _).symm
  · rfl

theorem perform_shift (tidy : c.Tidy) {action : ControllerAction} {after : Controller} {next : σ}
    (comes : c.Comes action)
    (performed : c.perform access 0 action world = some (after, next)) :
    ∃ key left entered begun ended rest,
      c.Shift action after key left entered begun ended rest := by
  cases perform_acts action performed with
  | refused event rest metrics inbox refuses =>
    have admits := tidy.admits event (inbox ▸ List.mem_cons_self)
    cases refuses.symm.trans admits
  | admitted event rest metrics admission inbox admits =>
    exact ⟨_, _, _, _, _, _, admitted_shift tidy inbox metrics admission⟩
  | received key sender queue metrics admission goesOn free next =>
    exact ⟨_, _, _, _, _, _, received_shift metrics admission tidy free next⟩
  | started key goesOn held room => exact ⟨_, _, _, _, _, _, started_shift held⟩
  | advanced run found unfinished =>
    have fewer := Pass.step_left access c.settings.policy run.key run.pass world unfinished
    exact ⟨_, _, _, _, _, _, advanced_shift tidy found fewer⟩
  | settled run outcome found ended =>
    obtain ⟨entered, shift⟩ := settled_shift tidy found ended
    exact ⟨_, _, entered, _, _, _, shift⟩
  | retried entry found =>
    exact ⟨_, _, _, _, _, _, retried_shift tidy found (comes entry found)⟩

theorem shift_distinct {action : ControllerAction} {after : Controller} {key : ObjectName}
    {left : Place} {entered : Option Place} {begun : List Nat} {ended : List PassOutcome}
    {rest : List (ObjectName × Place)}
    (shift : c.Shift action after key left entered begun ended rest)
    (distinct : (c.hands.board.map Prod.fst).Nodup) :
    (after.hands.board.map Prod.fst).Nodup := by
  have before := (shift.before.map Prod.fst).nodup_iff.mp distinct
  refine (shift.after.map Prod.fst).nodup_iff.mpr ?_
  cases entered with
  | none => exact (List.nodup_cons.mp before).2
  | some place => exact before

section Told

variable {action : ControllerAction} {after : Controller} {key other : ObjectName} {left : Place}
  {entered : Option Place} {begun : List Nat} {ended : List PassOutcome}
  {rest : List (ObjectName × Place)}
  (shift : c.Shift action after key left entered begun ended rest) (trace : List Activity)
  (log : List (ObjectName × PassOutcome))

include shift

theorem shift_told :
    verdictsOf key (log ++ DispatchEvent.outcomes (c.dispatched action after)) =
        verdictsOf key log ++ ended.map PassOutcome.verdict ∧
      podReads key (trace ++ c.activity action) = podReads key trace ++ begun := by
  rw [verdicts_append, shift.ends, verdicts_of_one, pod_reads_append, shift.reads, if_pos rfl,
    if_pos rfl]
  exact ⟨rfl, rfl⟩

theorem shift_untold (different : key ≠ other) :
    verdictsOf other (log ++ DispatchEvent.outcomes (c.dispatched action after)) =
        verdictsOf other log ∧
      podReads other (trace ++ c.activity action) = podReads other trace := by
  rw [verdicts_append, shift.ends, verdicts_of_one, pod_reads_append, shift.reads,
    if_neg different, if_neg different, List.append_nil, List.append_nil]
  exact ⟨rfl, rfl⟩

end Told

end Shifts

section Tidiness

variable {σ : Type} {access : StoreAccess σ} {c after : Controller} {world next : σ}

theorem enqueue_keeps_line (tidy : c.Tidy) (sender : QueueSender) (key : ObjectName) :
    (c.queue.enqueue sender key).2.receiving = true ∧
      (c.queue.enqueue sender key).2.InLine ∧
      0 < (c.queue.enqueue sender key).2.capacity ∧
      ∀ waiter ∈ c.queue.suspended, waiter ∈ (c.queue.enqueue sender key).2.suspended := by
  rcases WorkQueue.enqueue_in_line c.queue sender key tidy.line tidy.receiving with
    ⟨_, same⟩ | ⟨_, _, _, same, line, receiving, capacity, _, joins⟩
  · rw [same]
    exact ⟨tidy.receiving, tidy.line, tidy.room, fun waiter member => member⟩
  · rw [same]
    refine ⟨receiving, line, capacity ▸ tidy.room, fun waiter member => ?_⟩
    rcases joins with ⟨_, suspended⟩ | ⟨_, suspended⟩ <;> rw [suspended]
    · exact member
    · exact List.mem_append_left _ member

theorem take_event_admitting (tidy : c.Tidy) (taken : c.takeEvent? = some after) :
    after.Admitting := by
  unfold takeEvent? at taken
  split at taken
  · rename_i event rest receives inbox
    dsimp only at taken
    split at taken
    · rcases WorkQueue.enqueue_in_line c.queue .admission event.pod.key tidy.line tidy.receiving with
        ⟨_, same⟩ | ⟨_, outcome, queue, same, _, _, _, _, joins⟩
      · rw [same] at taken
        cases taken
        exact Or.inl receives
      · rw [same] at taken
        rcases joins with ⟨rfl, _⟩ | ⟨rfl, suspended⟩
        · cases taken
          exact Or.inl receives
        · cases taken
          refine Or.inr ⟨rfl, ⟨.admission, event.pod.key⟩, ?_, rfl⟩
          simp [suspended]
    · cases taken
      exact Or.inl receives
  · cases taken

theorem receive_admitting (tidy : c.Tidy) (received : c.receive? = some after) :
    after.Admitting := by
  unfold receive? at received
  split at received
  · split at received
    · rename_i key sender queue next
      obtain ⟨_, _, _, _, suspended⟩ := WorkQueue.next_in_line _ _ _ _ next tidy.line
      split at received
      · cases received
        exact Or.inl rfl
      · rename_i other
        cases received
        rcases tidy.admitting with receives | ⟨sends, waiter, member, itself⟩
        · exact Or.inl receives
        · -- The sender that moved up is another one, so that of admission is suspended still.
          refine Or.inr ⟨sends, waiter, ?_, itself⟩
          rw [suspended] at member
          rcases List.mem_append.mp member with moved | still
          · obtain ⟨sender, key⟩ := waiter
            subst itself
            exact absurd (Option.mem_toList.mp moved) (other key)
          · exact still
    · cases received
  · cases received

/-- The handling of an outcome touches the retries, the counts and what is reported. -/
theorem handle_cases (c : Controller) (key : ObjectName) (outcome : PassOutcome) :
    ∃ retries failures health metrics order,
      c.handle key outcome =
        { c with
          retries := retries, failures := failures, health := health, metrics := metrics,
          order := order } ∧
      (retries = c.retries ∧ order = c.order ∨
        ∃ due, c.now ≤ due ∧ retries = c.retries ++ [⟨c.order, key, due⟩] ∧
          order = c.order + 1) := by
  cases outcome with
  | done work => exact ⟨_, _, _, _, _, rfl, Or.inl ⟨rfl, rfl⟩⟩
  | requeue => exact ⟨_, _, _, _, _, rfl, Or.inr ⟨_, Nat.le_add_right _ _, rfl, rfl⟩⟩
  | failed error => exact ⟨_, _, _, _, _, rfl, Or.inr ⟨_, Nat.le_add_right _ _, rfl, rfl⟩⟩

theorem perform_admitting (tidy : c.Tidy) {action : ControllerAction}
    (performed : c.perform access 0 action world = some (after, next)) : after.Admitting := by
  cases action with
  | takeEvent =>
    obtain ⟨_, taken, same⟩ := Option.map_eq_some_iff.mp performed
    cases same
    exact take_event_admitting tidy taken
  | receive =>
    obtain ⟨_, received, same⟩ := Option.map_eq_some_iff.mp performed
    cases same
    exact receive_admitting tidy received
  | start =>
    cases perform_acts _ performed with
    | started => exact tidy.admitting
  | advance order =>
    cases perform_acts _ performed with
    | advanced => exact tidy.admitting
  | settle order =>
    cases perform_acts _ performed with
    | settled run outcome found ended =>
      obtain ⟨_, _, _, _, _, same, _⟩ := handle_cases
        ((c.dropRun run.order).observeDuration (c.now - run.started)) run.key outcome
      rw [same]
      exact tidy.admitting
  | retry order =>
    cases perform_acts _ performed with
    | retried entry found =>
      obtain ⟨_, _, _, keeps⟩ := enqueue_keeps_line tidy .retry entry.key
      refine tidy.admitting.imp id ?_
      rintro ⟨sends, waiter, member, itself⟩
      exact ⟨sends, waiter, keeps waiter member, itself⟩

theorem perform_tidy (tidy : c.Tidy) {action : ControllerAction} (comes : c.Comes action)
    (performed : c.perform access 0 action world = some (after, next)) :
    after.Tidy ∧ after.now = c.now ∧ after.settings = c.settings := by
  obtain ⟨_, _, _, _, _, _, shift⟩ := perform_shift tidy comes performed
  have distinct := shift_distinct shift tidy.distinct
  have admitting := perform_admitting tidy performed
  have enqueued := enqueue_keeps_line tidy
  obtain ⟨dispatching, receiving, line, room, admits, _, passes, entries, _, awake, early⟩ := tidy
  cases perform_acts action performed with
  | refused event rest metrics inbox refuses =>
    have others (event : PodEvent) (member : event ∈ rest) :=
      admits event (inbox ▸ List.mem_cons_of_mem _ member)
    exact ⟨⟨dispatching, receiving, line, room, others, admitting, passes, entries, distinct, awake,
      early⟩, rfl, rfl⟩
  | admitted event rest metrics admission inbox admitted =>
    have others (event : PodEvent) (member : event ∈ rest) :=
      admits event (inbox ▸ List.mem_cons_of_mem _ member)
    obtain ⟨receiving, line, room, _⟩ := enqueued .admission event.pod.key
    exact ⟨⟨dispatching, receiving, line, room, others, admitting, passes, entries, distinct, awake,
      early⟩, rfl, rfl⟩
  | received key sender queue metrics admission goesOn free next =>
    obtain ⟨line, capacity, still, _⟩ := WorkQueue.next_in_line _ _ _ _ next line
    exact ⟨⟨dispatching, still.trans receiving, line, capacity ▸ room, admits, admitting, passes,
      entries, distinct, awake, early⟩, rfl, rfl⟩
  | started key goesOn held room' =>
    have passes' := numbered_next c.order _ passes
    refine ⟨⟨dispatching, receiving, line, room, admits, admitting, ?_, ?_, distinct, ?_, early⟩,
      rfl, rfl⟩
    · rw [List.map_append]
      exact passes'
    · exact numbered_later c.order _ entries
    · intro run member
      rcases List.mem_append.mp member with old | new
      · exact awake run old
      · rw [List.mem_singleton.mp new]
        exact Nat.le_refl _
  | advanced run found unfinished =>
    refine ⟨⟨dispatching, receiving, line, room, admits, admitting, ?_, entries, distinct, ?_,
      early⟩, rfl, rfl⟩
    · simpa only [replace, Workload.replaced_numbers] using passes
    · intro other member
      obtain ⟨former, present, rfl⟩ := List.mem_map.mp member
      have wakes := awake former present
      split <;> exact wakes
  | settled run outcome found ended =>
    have passes' : Numbered c.order ((c.dropRun run.order).running.map RunningPass.order) :=
      numbered_sublist _ _ _ (List.filter_sublist.map _) passes
    have awake' (other : RunningPass) (member : other ∈ (c.dropRun run.order).running) :=
      awake other (List.mem_filter.mp member).1
    obtain ⟨retries, failures, health, metrics, order, same, given⟩ := handle_cases
      ((c.dropRun run.order).observeDuration (c.now - run.started)) run.key outcome
    rw [same] at admitting distinct ⊢
    rcases given with ⟨rfl, rfl⟩ | ⟨due, later, rfl, rfl⟩
    · exact ⟨⟨dispatching, receiving, line, room, admits, admitting, passes', entries, distinct,
        awake', early⟩, rfl, rfl⟩
    · have entries' := numbered_next c.order _ entries
      refine ⟨⟨dispatching, receiving, line, room, admits, admitting,
        numbered_later c.order _ passes', ?_, distinct, awake', ?_⟩, rfl, rfl⟩
      · rw [List.map_append]
        exact entries'
      · intro entry member
        rcases List.mem_append.mp member with old | new
        · exact early entry old
        · rw [List.mem_singleton.mp new]
          exact later
  | retried entry found =>
    let retries := c.retries.filter fun other => other.order ≠ entry.order
    have entries' : Numbered c.order (retries.map ScheduledRetry.order) :=
      numbered_sublist _ _ _ (List.filter_sublist.map _) entries
    obtain ⟨receiving, line, room, _⟩ := enqueued .retry entry.key
    refine ⟨⟨dispatching, receiving, line, room, admits, admitting, passes, entries', distinct,
      awake, ?_⟩, rfl, rfl⟩
    intro other member
    exact early other (List.mem_filter.mp member).1

end Tidiness

end Controller
end StartupLatency
