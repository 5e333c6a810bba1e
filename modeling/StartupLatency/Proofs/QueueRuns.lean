import StartupLatency.Proofs.WaitingKeys

/-!
Runs of a work queue. Any number of callers and timers enqueue, and one receiver takes keys out, in
any order of their steps. Each call is numbered, so that its answer can be told from others, and
everything that is seen of the queue from outside is logged. While the queue is received from, the
waiting keys are what the log makes them: begun in order, delivered in that order, none twice.
-/

namespace StartupLatency

namespace WorkQueue

variable {τ : Type}

/-- The keys that wait stand in one line: the channel, and the senders behind it once it is full. -/
structure InLine (queue : WorkQueue τ) : Prop where
  distinct : queue.waiting.Nodup
  marks : ∀ key, queue.pending.contains key = true ↔ key ∈ queue.waiting
  bounded : queue.channel.length ≤ queue.capacity
  full : queue.suspended ≠ [] → queue.channel.length = queue.capacity

theorem in_line_empty (capacity : Nat) : InLine (empty capacity : WorkQueue τ) := by
  constructor
  · exact List.nodup_nil
  · intro key
    constructor
    · intro marked
      cases marked
    · intro member
      cases member
  · exact Nat.zero_le _
  · intro suspended
    exact absurd rfl suspended

/-- The marks are as many as the keys that wait. -/
theorem length_waiting (queue : WorkQueue τ) (line : queue.InLine) :
    queue.length = queue.waiting.length := by
  have same : queue.pending.keys.Perm queue.waiting := by
    refine (List.perm_ext_iff_of_nodup (SortedMap.nodup_keys _) line.distinct).mpr fun key => ?_
    rw [SortedMap.mem_keys, line.marks]
  rw [← same.length_eq, SortedMap.keys, List.length_map]
  rfl

/-- A new key that is marked and stands at the end keeps the line. -/
theorem line_extended (queue after : WorkQueue τ) (key : ObjectName) (line : queue.InLine)
    (fresh : key ∉ queue.waiting) (waits : after.waiting = queue.waiting ++ [key])
    (pending : after.pending = queue.pending.insert key ()) :
    after.waiting.Nodup ∧ ∀ other, after.pending.contains other = true ↔ other ∈ after.waiting := by
  rw [waits, pending]
  constructor
  · refine List.nodup_append.mpr ⟨line.distinct, by simp, ?_⟩
    intro other earlier new same
    cases List.mem_singleton.mp same
    rintro rfl
    exact fresh earlier
  · intro other
    rw [contains_insert, line.marks, List.mem_append, List.mem_singleton, or_comm]

/-- A key that waits already is refused. Any other one joins the end of the line, in the channel or
with a sender that is suspended. -/
theorem enqueue_in_line (queue : WorkQueue τ) (sender : τ) (key : ObjectName)
    (line : queue.InLine) (receiving : queue.receiving = true) :
    (key ∈ queue.waiting ∧ queue.enqueue sender key = (.refused, queue)) ∨
    (key ∉ queue.waiting ∧ ∃ outcome after, queue.enqueue sender key = (outcome, after) ∧
      after.InLine ∧ after.receiving = true ∧ after.capacity = queue.capacity ∧
      after.waiting = queue.waiting ++ [key] ∧
      ((outcome = .inserted ∧ after.suspended = queue.suspended) ∨
        (outcome = .suspended ∧ after.suspended = queue.suspended ++ [⟨sender, key⟩]))) := by
  by_cases known : key ∈ queue.waiting
  · have marked := (line.marks key).mpr known
    exact Or.inl ⟨known, by simp [enqueue, marked]⟩
  · refine Or.inr ⟨known, ?_⟩
    have unmarked : queue.pending.contains key = false := by
      rw [← Bool.not_eq_true, line.marks]
      exact known
    by_cases room : queue.channel.length < queue.capacity
    · -- With room in the channel no sender is suspended, so nobody is overtaken.
      have nobody : queue.suspended = [] := by
        refine Classical.byContradiction fun somebody => ?_
        have := line.full somebody
        omega
      let after : WorkQueue τ :=
        { queue with pending := queue.pending.insert key (), channel := queue.channel ++ [key] }
      have waits : after.waiting = queue.waiting ++ [key] := by simp [after, waiting, nobody]
      obtain ⟨distinct, marks⟩ := line_extended queue after key line known waits rfl
      have bounded : after.channel.length ≤ after.capacity := by
        change (queue.channel ++ [key]).length ≤ queue.capacity
        rw [List.length_append]
        exact room
      refine ⟨.inserted, after, by simp [enqueue, unmarked, receiving, room, after],
        ⟨distinct, marks, bounded, ?_⟩, receiving, rfl, waits, Or.inl ⟨rfl, rfl⟩⟩
      intro somebody
      exact absurd nobody somebody
    · have full : queue.channel.length = queue.capacity := Nat.le_antisymm line.bounded (by omega)
      let after : WorkQueue τ :=
        { queue with
          pending := queue.pending.insert key ()
          suspended := queue.suspended ++ [⟨sender, key⟩] }
      have waits : after.waiting = queue.waiting ++ [key] := by simp [after, waiting]
      obtain ⟨distinct, marks⟩ := line_extended queue after key line known waits rfl
      exact ⟨.suspended, after, by simp [enqueue, unmarked, receiving, room, after],
        ⟨distinct, marks, line.bounded, fun _ => full⟩, receiving, rfl, waits,
        Or.inr ⟨rfl, rfl⟩⟩

/-- The first of the line is delivered, and the first sender that is suspended moves up. -/
theorem next_in_line (queue after : WorkQueue τ) (key : ObjectName)
    (admitted : Option (Suspended τ)) (next : queue.next? = some (key, admitted, after))
    (line : queue.InLine) :
    after.InLine ∧ after.capacity = queue.capacity ∧ after.receiving = queue.receiving ∧
      queue.waiting = key :: after.waiting ∧
      queue.suspended = admitted.toList ++ after.suspended := by
  obtain ⟨waits, pending, receiving⟩ := next_cases queue after key admitted next
  have distinct := line.distinct
  rw [waits, List.nodup_cons] at distinct
  have marks : ∀ other, after.pending.contains other = true ↔ other ∈ after.waiting := by
    intro other
    rw [pending, contains_erase, line.marks, waits, List.mem_cons]
    constructor
    · rintro ⟨different, same | later⟩
      · exact absurd same different
      · exact later
    · intro later
      exact ⟨fun same => distinct.1 (same ▸ later), Or.inr later⟩
  have shape : after.capacity = queue.capacity ∧ after.channel.length ≤ after.capacity ∧
      (after.suspended ≠ [] → after.channel.length = after.capacity) ∧
      queue.suspended = admitted.toList ++ after.suspended := by
    have bounded := line.bounded
    have full := line.full
    unfold next? at next
    cases channel : queue.channel with
    | nil => simp [channel] at next
    | cons first rest =>
      cases suspended : queue.suspended with
      | nil =>
        simp only [channel, suspended, Option.some.injEq, Prod.mk.injEq] at next
        obtain ⟨rfl, rfl, rfl⟩ := next
        rw [channel, List.length_cons] at bounded
        exact ⟨rfl, by dsimp only; omega, fun some => absurd rfl some, rfl⟩
      | cons sender others =>
        simp only [channel, suspended, Option.some.injEq, Prod.mk.injEq] at next
        obtain ⟨rfl, rfl, rfl⟩ := next
        have packed := full (by simp [suspended])
        rw [channel, List.length_cons] at packed
        exact ⟨rfl, by simp [packed], fun _ => by simp [packed], rfl⟩
  exact ⟨⟨distinct.2, marks, shape.2.1, shape.2.2.1⟩, shape.1, receiving, waits, shape.2.2.2⟩

theorem contains_erase_all (waiters : List (Suspended τ)) (marks : SortedMap ObjectName Unit)
    (key : ObjectName) :
    (waiters.foldl (fun keys waiter => keys.erase waiter.key) marks).contains key = true ↔
      key ∉ waiters.map Suspended.key ∧ marks.contains key = true := by
  induction waiters generalizing marks with
  | nil => simp
  | cons waiter rest ih =>
    rw [List.foldl_cons, ih, contains_erase]
    simp only [List.map_cons, List.mem_cons, not_or, ne_eq, and_assoc, and_left_comm]

/-- Without a receiver, only the keys in the channel are left. -/
theorem close_in_line (queue : WorkQueue τ) (line : queue.InLine) :
    queue.close.2.InLine ∧ queue.close.2.waiting = queue.channel := by
  have waits : queue.close.2.waiting = queue.channel := List.append_nil _
  have parts := List.nodup_append.mp line.distinct
  refine ⟨⟨waits ▸ parts.1, fun key => ?_, line.bounded, fun some => absurd rfl some⟩, waits⟩
  rw [waits, close, contains_erase_all, line.marks, waiting, List.mem_append]
  constructor
  · rintro ⟨free, here | there⟩
    · exact here
    · exact absurd there free
  · intro here
    exact ⟨fun there => parts.2.2 key here key there rfl, Or.inl here⟩

end WorkQueue

/-- What is seen of a queue. Calls are numbered in the order in which they are made. -/
inductive QueueEvent where
  | called (call : Nat) (key : ObjectName)
  | begun (call : Nat) (key : ObjectName)
  | answered (call : Nat) (inserted : Bool)
  | delivered (key : ObjectName)
  | dropped
deriving DecidableEq

namespace QueueEvent

-- What is seen of a call at once; a suspended one is answered later.
def ofCall (call : Nat) (key : ObjectName) : Enqueued → List QueueEvent
  | .inserted => [.called call key, .begun call key, .answered call true]
  | .suspended => [.called call key, .begun call key]
  | .refused => [.called call key, .answered call false]

def begins (log : List QueueEvent) : List (Nat × ObjectName) :=
  log.filterMap fun
    | .begun call key => some (call, key)
    | _ => none

def deliveries (log : List QueueEvent) : List ObjectName :=
  log.filterMap fun
    | .delivered key => some key
    | _ => none

/-- What has begun to wait and is not delivered, when delivery is in the order of the beginnings. -/
def undelivered (log : List QueueEvent) : List ObjectName :=
  ((begins log).map Prod.snd).drop (deliveries log).length

/-- Every call that was answered with no had found its key waiting. -/
def Refused (log : List QueueEvent) : Prop :=
  ∀ before call after, log = before ++ .answered call false :: after →
    ∃ earlier key, before = earlier ++ [.called call key] ∧ key ∈ undelivered earlier

def Served (waiting : List ObjectName) (log : List QueueEvent) : Prop :=
  ∀ before call key after, log = before ++ .called call key :: after →
    .delivered key ∈ after ∨ key ∈ waiting

@[simp] theorem begins_append (log more : List QueueEvent) :
    begins (log ++ more) = begins log ++ begins more := List.filterMap_append

@[simp] theorem deliveries_append (log more : List QueueEvent) :
    deliveries (log ++ more) = deliveries log ++ deliveries more := List.filterMap_append

@[simp] theorem begins_of_call (call : Nat) (key : ObjectName) (outcome : Enqueued) :
    begins (ofCall call key outcome) = if outcome = .refused then [] else [(call, key)] := by
  cases outcome <;> rfl

@[simp] theorem deliveries_of_call (call : Nat) (key : ObjectName) (outcome : Enqueued) :
    deliveries (ofCall call key outcome) = [] := by
  cases outcome <;> rfl

@[simp] theorem called_of_call (call made : Nat) (key other : ObjectName) (outcome : Enqueued) :
    .called made other ∈ ofCall call key outcome ↔ made = call ∧ other = key := by
  cases outcome <;> simp [ofCall]

@[simp] theorem answered_of_call (call made : Nat) (key : ObjectName) (outcome : Enqueued)
    (inserted : Bool) :
    .answered made inserted ∈ ofCall call key outcome ↔
      made = call ∧
        (outcome = .inserted ∧ inserted = true ∨ outcome = .refused ∧ inserted = false) := by
  cases outcome <;> simp [ofCall]

/-- The calls of a log are numbered, begin at most once, and begin or are refused. -/
structure Coherent (calls : Nat) (log : List QueueEvent) : Prop where
  numbered : ∀ call key, .called call key ∈ log → call < calls
  made : ∀ call key, (call, key) ∈ begins log → .called call key ∈ log
  once : ((begins log).map Prod.fst).Nodup
  told : ∀ call key, .called call key ∈ log →
    (call, key) ∈ begins log ∨ .answered call false ∈ log

theorem coherent_call {calls : Nat} {log : List QueueEvent} (coherent : Coherent calls log)
    (key : ObjectName) (outcome : Enqueued) :
    Coherent (calls + 1) (log ++ ofCall calls key outcome) := by
  constructor
  · intro call other member
    rcases List.mem_append.mp member with old | new
    · exact Nat.lt_succ_of_lt (coherent.numbered call other old)
    · rw [((called_of_call ..).mp new).1]
      exact Nat.lt_succ_self calls
  · intro call other member
    rw [begins_append, List.mem_append] at member
    rcases member with old | new
    · exact List.mem_append_left _ (coherent.made call other old)
    · rw [begins_of_call] at new
      split at new
      · cases new
      · cases List.mem_singleton.mp new
        exact List.mem_append_right _ ((called_of_call ..).mpr ⟨rfl, rfl⟩)
  · rw [begins_append, begins_of_call, List.map_append]
    split
    · simpa using coherent.once
    · refine List.nodup_append.mpr ⟨coherent.once, by simp, fun call earlier other new => ?_⟩
      obtain ⟨⟨_, name⟩, member, rfl⟩ := List.mem_map.mp earlier
      have below := coherent.numbered _ name (coherent.made _ name member)
      simp only [List.map_cons, List.map_nil, List.mem_singleton] at new
      omega
  · intro call other member
    rcases List.mem_append.mp member with old | new
    · rw [begins_append]
      exact (coherent.told call other old).imp (List.mem_append_left _) (List.mem_append_left _)
    · obtain ⟨rfl, rfl⟩ := (called_of_call ..).mp new
      cases outcome <;> simp

/-- Answers and deliveries begin nothing. -/
theorem coherent_quiet {calls : Nat} {log : List QueueEvent} (coherent : Coherent calls log)
    (more : List QueueEvent) (quiet : begins more = [])
    (uncalled : ∀ call key, .called call key ∉ more) : Coherent calls (log ++ more) := by
  have same : begins (log ++ more) = begins log := by rw [begins_append, quiet, List.append_nil]
  have earlier : ∀ call key, .called call key ∈ log ++ more → .called call key ∈ log := by
    intro call key member
    exact (List.mem_append.mp member).resolve_right (uncalled call key)
  constructor
  · intro call key member
    exact coherent.numbered call key (earlier call key member)
  · intro call key member
    exact List.mem_append_left more (coherent.made call key (same ▸ member))
  · exact same ▸ coherent.once
  · intro call key member
    rw [same]
    exact (coherent.told call key (earlier call key member)).imp_right (List.mem_append_left more)

theorem split_append {log more before after : List QueueEvent} {event : QueueEvent}
    (parts : log ++ more = before ++ event :: after) :
    (∃ rest, log = before ++ event :: rest ∧ after = rest ++ more) ∨
      ∃ first, before = log ++ first ∧ more = first ++ event :: after := by
  rcases List.append_eq_append_iff.mp parts with ⟨first, before_eq, more_eq⟩ | ⟨rest, log_eq, tail⟩
  · exact Or.inr ⟨first, before_eq, more_eq⟩
  · cases rest with
    | nil => exact Or.inr ⟨[], by simpa using log_eq.symm, tail.symm⟩
    | cons head rest =>
      obtain ⟨rfl, rfl⟩ := List.cons.inj tail
      exact Or.inl ⟨rest, log_eq, rfl⟩

theorem refused_append {log more : List QueueEvent} (refused : Refused log)
    (affirmed : ∀ call, .answered call false ∉ more) : Refused (log ++ more) := by
  intro before call after parts
  rcases split_append parts with ⟨rest, earlier, _⟩ | ⟨first, _, new⟩
  · exact refused before call rest earlier
  · exact absurd (by simp [new]) (affirmed call)

theorem served_append {log more : List QueueEvent} {waiting later : List ObjectName}
    (served : Served waiting log) (kept : ∀ key ∈ waiting, .delivered key ∈ more ∨ key ∈ later)
    (joined : ∀ call key, .called call key ∈ more → key ∈ later) :
    Served later (log ++ more) := by
  intro before call key after parts
  rcases split_append parts with ⟨rest, earlier, rfl⟩ | ⟨first, _, new⟩
  · rcases served before call key rest earlier with delivered | waits
    · exact Or.inl (List.mem_append_left more delivered)
    · exact (kept key waits).imp_left (List.mem_append_right rest)
  · exact Or.inr (joined call key (by simp [new]))

end QueueEvent

/-- A queue, the keys whose timers run, and what has been seen so far. A sender is known by the
number of its call. -/
structure QueueRun where
  queue : WorkQueue Nat
  calls : Nat
  delayed : List ObjectName
  log : List QueueEvent

namespace QueueRun

open WorkQueue QueueEvent

-- The next step of some party. Timers run out in any order.
inductive Move where
  | enqueue (key : ObjectName)
  | delay (key : ObjectName)
  | elapse (timer : Nat)
  | receive
  | drop

def start (capacity : Nat) : QueueRun := ⟨.empty capacity, 0, [], []⟩

def enqueue (run : QueueRun) (key : ObjectName) : QueueRun :=
  let (outcome, queue) := run.queue.enqueue run.calls key
  { run with
    queue := queue
    calls := run.calls + 1
    log := run.log ++ ofCall run.calls key outcome }

-- A receiver that finds the channel empty goes on waiting.
def receive (run : QueueRun) : QueueRun :=
  match run.queue.next? with
  | some (key, admitted, queue) =>
    { run with
      queue := queue
      log := run.log ++ .delivered key :: admitted.toList.map fun waiter =>
        .answered waiter.sender true }
  | none => run

def drop (run : QueueRun) : QueueRun :=
  { run with
    queue := run.queue.close.2
    log := run.log ++ .dropped :: run.queue.close.1.map fun waiter =>
      .answered waiter.sender false }

-- A receiver that is gone neither receives nor goes again.
def after (run : QueueRun) : Move → QueueRun
  | .enqueue key => run.enqueue key
  | .delay key => { run with delayed := run.delayed ++ [key] }
  | .elapse timer =>
    match run.delayed[timer]? with
    | some key => { run with delayed := run.delayed.eraseIdx timer }.enqueue key
    | none => run
  | .receive => if run.queue.receiving then run.receive else run
  | .drop => if run.queue.receiving then run.drop else run

def replay (moves : List Move) (run : QueueRun) : QueueRun := moves.foldl after run

structure Recorded (run : QueueRun) : Prop where
  line : run.queue.InLine
  coherent : Coherent run.calls run.log
  -- Delivery is in the order in which keys began to wait, and what is left of that order waits.
  order : (begins run.log).map Prod.snd = deliveries run.log ++ run.queue.waiting
  -- The calls that made their keys wait are those that answer yes, some of them not yet.
  joined : ∀ call, (∃ key, (call, key) ∈ begins run.log) ↔
    .answered call true ∈ run.log ∨ ∃ waiter ∈ run.queue.suspended, waiter.sender = call
  refused : Refused run.log
  served : Served run.queue.waiting run.log
  undropped : .dropped ∉ run.log

theorem recorded_start (capacity : Nat) : Recorded (start capacity) where
  line := in_line_empty capacity
  coherent := ⟨fun _ _ member => (by cases member), fun _ _ member => (by cases member), .nil,
    fun _ _ member => (by cases member)⟩
  order := rfl
  joined call := by simp [start, begins, empty]
  refused before _ _ parts := by cases before <;> cases parts
  served before _ _ _ parts := by cases before <;> cases parts
  undropped member := by cases member

theorem undelivered_waiting (run : QueueRun) (recorded : run.Recorded) :
    undelivered run.log = run.queue.waiting := by
  rw [undelivered, recorded.order, List.drop_left]

/-- A call is refused because its key waits, and nothing else changes. -/
theorem refusal_recorded (run : QueueRun) (key : ObjectName) (recorded : run.Recorded)
    (waits : key ∈ run.queue.waiting) :
    Recorded
      { run with
        calls := run.calls + 1
        log := run.log ++ ofCall run.calls key .refused } := by
  constructor
  · exact recorded.line
  · exact coherent_call recorded.coherent key .refused
  · simpa using recorded.order
  · intro call
    simpa using recorded.joined call
  · intro before call after parts
    rcases split_append parts with ⟨rest, earlier, _⟩ | ⟨first, before_eq, new⟩
    · exact recorded.refused before call rest earlier
    · -- The answer stands behind its own call, which found the key waiting.
      rcases first with _ | ⟨head, _ | ⟨next, others⟩⟩
      · cases new
      · cases new
        exact ⟨run.log, key, before_eq, undelivered_waiting run recorded ▸ waits⟩
      · have sizes := congrArg List.length new
        simp [ofCall] at sizes
  · refine served_append recorded.served (fun other waits => Or.inr waits) ?_
    intro call other member
    exact ((called_of_call ..).mp member).2 ▸ waits
  · simpa [ofCall] using recorded.undropped

/-- A call makes its key wait, at once in the channel or with a sender that is suspended. -/
theorem joining_recorded (run : QueueRun) (key : ObjectName) (outcome : Enqueued)
    (queue : WorkQueue Nat) (recorded : run.Recorded) (line : queue.InLine)
    (waits : queue.waiting = run.queue.waiting ++ [key])
    (joins : (outcome = .inserted ∧ queue.suspended = run.queue.suspended) ∨
      (outcome = .suspended ∧ queue.suspended = run.queue.suspended ++ [⟨run.calls, key⟩])) :
    Recorded
      { run with
        queue := queue
        calls := run.calls + 1
        log := run.log ++ ofCall run.calls key outcome } := by
  have admitted : outcome ≠ .refused := by
    rintro rfl
    rcases joins with ⟨same, _⟩ | ⟨same, _⟩ <;> cases same
  constructor
  · exact line
  · exact coherent_call recorded.coherent key outcome
  · simp [admitted, recorded.order, waits]
  · intro call
    have begun : (∃ other, (call, other) ∈ begins (run.log ++ ofCall run.calls key outcome)) ↔
        (∃ other, (call, other) ∈ begins run.log) ∨ call = run.calls := by
      simp [admitted, exists_or]
    rw [begun, recorded.joined call]
    rcases joins with ⟨rfl, suspended⟩ | ⟨rfl, suspended⟩
    · simp [suspended, or_assoc, or_comm]
    · simp [suspended, or_and_right, exists_or, or_assoc, eq_comm]
  · refine refused_append recorded.refused fun call member => ?_
    simp [admitted] at member
  · rw [waits]
    refine served_append recorded.served (fun other waits => Or.inr ?_) fun call other member => ?_
    · exact List.mem_append_left _ waits
    · exact ((called_of_call ..).mp member).2 ▸ List.mem_append_right _ List.mem_cons_self
  · cases outcome <;> simpa [ofCall] using recorded.undropped

theorem enqueue_recorded (run : QueueRun) (key : ObjectName) (recorded : run.Recorded)
    (receiving : run.queue.receiving = true) :
    (run.enqueue key).Recorded ∧ (run.enqueue key).queue.receiving = true ∧
      (run.enqueue key).queue.capacity = run.queue.capacity := by
  rcases enqueue_in_line run.queue run.calls key recorded.line receiving with
    ⟨known, same⟩ | ⟨_, outcome, queue, same, line, still, size, waits, joins⟩
  · simp only [enqueue, same]
    exact ⟨refusal_recorded run key recorded known, receiving, trivial⟩
  · simp only [enqueue, same]
    exact ⟨joining_recorded run key outcome queue recorded line waits joins, still, size⟩

theorem receive_recorded (run : QueueRun) (recorded : run.Recorded)
    (receiving : run.queue.receiving = true) :
    run.receive.Recorded ∧ run.receive.queue.receiving = true ∧
      run.receive.queue.capacity = run.queue.capacity := by
  unfold receive
  cases next : run.queue.next? with
  | none => exact ⟨recorded, receiving, rfl⟩
  | some taken =>
    obtain ⟨key, admitted, queue⟩ := taken
    obtain ⟨line, size, still, waits, suspended⟩ :=
      next_in_line run.queue queue key admitted next recorded.line
    refine ⟨?_, still.trans receiving, size⟩
    have quiet : begins (.delivered key :: admitted.toList.map fun waiter =>
        .answered waiter.sender true) = [] := by
      cases admitted <;> rfl
    have delivered : deliveries (.delivered key :: admitted.toList.map fun waiter =>
        .answered waiter.sender true) = [key] := by
      cases admitted <;> rfl
    constructor
    · exact line
    · refine coherent_quiet recorded.coherent _ quiet fun call other member => ?_
      simp at member
    · simp only [begins_append, quiet, List.append_nil, deliveries_append, delivered,
        recorded.order, waits, List.append_assoc, List.singleton_append]
    · intro call
      -- The sender that moves up is suspended no longer, and answered instead.
      simp only [begins_append, quiet, List.append_nil, recorded.joined call, suspended]
      simp [or_and_right, exists_or, or_assoc, eq_comm]
    · refine refused_append recorded.refused fun call member => ?_
      simp at member
    · refine served_append recorded.served (fun other earlier => ?_) fun call other member => ?_
      · rw [waits] at earlier
        rcases List.mem_cons.mp earlier with rfl | later
        · exact Or.inl List.mem_cons_self
        · exact Or.inr later
      · simp at member
    · simpa using recorded.undropped

structure Closed (run : QueueRun) : Prop where
  silent : run.queue.suspended = []
  -- Only the keys that were in the channel when it was dropped are still marked.
  marks : ∀ key, run.queue.pending.contains key = true ↔ key ∈ run.queue.channel
  refuses : ∀ key, run.queue.enqueue run.calls key = (.refused, run.queue)
  answered : ∀ call key, .called call key ∈ run.log → ∃ inserted, .answered call inserted ∈ run.log
  denied : ∀ before call inserted after, run.log = before ++ .answered call inserted :: after →
    .dropped ∈ before → inserted = false

theorem enqueue_closed (queue : WorkQueue Nat) (sender : Nat) (key : ObjectName)
    (gone : queue.receiving = false) : queue.enqueue sender key = (.refused, queue) := by
  simp [WorkQueue.enqueue, gone]

theorem drop_closed (run : QueueRun) (recorded : run.Recorded) :
    run.drop.Closed ∧ run.drop.queue.receiving = false := by
  obtain ⟨line, waits⟩ := close_in_line run.queue recorded.line
  refine ⟨⟨rfl, fun key => ?_, fun key => enqueue_closed _ _ _ rfl, fun call key member => ?_,
    fun before call inserted after parts dropped => ?_⟩, rfl⟩
  · exact (line.marks key).trans (by rw [waits]; rfl)
  · have called : .called call key ∈ run.log := by simpa [drop] using member
    rcases recorded.coherent.told call key called with begun | refused
    · rcases (recorded.joined call).mp ⟨key, begun⟩ with answered | ⟨waiter, suspended, sender⟩
      · exact ⟨true, List.mem_append_left _ answered⟩
      · -- A sender that is suspended is told that nobody receives.
        refine ⟨false, List.mem_append_right _ (List.mem_cons_of_mem _ ?_)⟩
        exact List.mem_map.mpr ⟨waiter, suspended, by rw [sender]⟩
    · exact ⟨false, List.mem_append_left _ refused⟩
  · rcases split_append parts with ⟨rest, earlier, _⟩ | ⟨first, _, new⟩
    · exact absurd (by simp [earlier, dropped]) recorded.undropped
    · have member : .answered call inserted ∈ QueueEvent.dropped ::
          run.queue.close.1.map fun waiter => .answered waiter.sender false := by simp [new]
      simp only [List.mem_cons, reduceCtorEq, List.mem_map, QueueEvent.answered.injEq,
        false_or] at member
      obtain ⟨_, _, _, same⟩ := member
      exact same.symm

theorem enqueue_stays_closed (run : QueueRun) (key : ObjectName) (closed : run.Closed)
    (gone : run.queue.receiving = false) :
    (run.enqueue key).Closed ∧ (run.enqueue key).queue.receiving = false := by
  simp only [enqueue, enqueue_closed run.queue run.calls key gone]
  refine ⟨⟨closed.silent, closed.marks, fun other => enqueue_closed _ _ other gone,
    fun call other member => ?_, fun before call inserted after parts dropped => ?_⟩, gone⟩
  · rcases List.mem_append.mp member with old | new
    · obtain ⟨inserted, answered⟩ := closed.answered call other old
      exact ⟨inserted, List.mem_append_left _ answered⟩
    · obtain ⟨rfl, rfl⟩ := (called_of_call ..).mp new
      exact ⟨false, by simp⟩
  · rcases split_append parts with ⟨rest, earlier, _⟩ | ⟨first, _, new⟩
    · exact closed.denied before call inserted rest earlier dropped
    · have member : .answered call inserted ∈ ofCall run.calls key .refused := by simp [new]
      rcases ((answered_of_call ..).mp member).2 with ⟨same, _⟩ | ⟨_, no⟩
      · cases same
      · exact no

def Kept (capacity : Nat) (run : QueueRun) : Prop :=
  (run.queue.receiving = true ∧ run.Recorded ∧ run.queue.capacity = max 1 capacity) ∨
    (run.queue.receiving = false ∧ run.Closed)

theorem enqueue_kept (capacity : Nat) (run : QueueRun) (key : ObjectName)
    (kept : run.Kept capacity) : (run.enqueue key).Kept capacity := by
  rcases kept with ⟨receiving, recorded, size⟩ | ⟨gone, closed⟩
  · obtain ⟨after, still, same⟩ := enqueue_recorded run key recorded receiving
    exact Or.inl ⟨still, after, same.trans size⟩
  · obtain ⟨after, still⟩ := enqueue_stays_closed run key closed gone
    exact Or.inr ⟨still, after⟩

-- Timers are not looked at by what is kept.
theorem delayed_kept (capacity : Nat) (run : QueueRun) (delayed : List ObjectName)
    (kept : run.Kept capacity) : Kept capacity { run with delayed := delayed } := by
  rcases kept with ⟨receiving, recorded, size⟩ | ⟨gone, closed⟩
  · exact Or.inl ⟨receiving, ⟨recorded.line, recorded.coherent, recorded.order, recorded.joined,
      recorded.refused, recorded.served, recorded.undropped⟩, size⟩
  · exact Or.inr ⟨gone, closed.silent, closed.marks, closed.refuses, closed.answered,
      closed.denied⟩

theorem after_kept (capacity : Nat) (run : QueueRun) (move : Move) (kept : run.Kept capacity) :
    (run.after move).Kept capacity := by
  cases move with
  | enqueue key => exact enqueue_kept capacity run key kept
  | delay key => exact delayed_kept capacity run _ kept
  | elapse timer =>
    simp only [after]
    cases run.delayed[timer]? with
    | none => exact kept
    | some key => exact enqueue_kept capacity _ key (delayed_kept capacity run _ kept)
  | receive =>
    rcases kept with ⟨receiving, recorded, size⟩ | ⟨gone, closed⟩
    · obtain ⟨later, still, same⟩ := receive_recorded run recorded receiving
      simp only [after, receiving, ↓reduceIte]
      exact Or.inl ⟨still, later, same.trans size⟩
    · simp only [after, gone, Bool.false_eq_true, ↓reduceIte]
      exact Or.inr ⟨gone, closed⟩
  | drop =>
    rcases kept with ⟨receiving, recorded, size⟩ | ⟨gone, closed⟩
    · obtain ⟨closed, gone⟩ := drop_closed run recorded
      simp only [after, receiving, ↓reduceIte]
      exact Or.inr ⟨gone, closed⟩
    · simp only [after, gone, Bool.false_eq_true, ↓reduceIte]
      exact Or.inr ⟨gone, closed⟩

theorem replay_kept (capacity : Nat) (moves : List Move) (run : QueueRun)
    (kept : run.Kept capacity) : (replay moves run).Kept capacity := by
  induction moves generalizing run with
  | nil => exact kept
  | cons move rest ih => exact ih (run.after move) (after_kept capacity run move kept)

/-- Whatever callers, timers and the receiver do, in whatever order. While the queue is received
from, no key waits twice, the marks are the waiting keys and as many as `length` says, the channel
is within its bound, keys are delivered in the order in which they began to wait, and no call is in
vain. Once the receiver is gone, every call answers no, one that was suspended as well. -/
theorem queue_runs_kept (capacity : Nat) (moves : List Move) :
    ((replay moves (start capacity)).queue.receiving = true →
      (replay moves (start capacity)).Recorded ∧
      (replay moves (start capacity)).queue.length =
        (replay moves (start capacity)).queue.waiting.length ∧
      (replay moves (start capacity)).queue.channel.length ≤ max 1 capacity) ∧
    ((replay moves (start capacity)).queue.receiving = false →
      (replay moves (start capacity)).Closed) := by
  have fresh : (start capacity).Kept capacity := Or.inl ⟨rfl, recorded_start capacity, rfl⟩
  rcases replay_kept capacity moves _ fresh with ⟨receiving, recorded, size⟩ | ⟨gone, closed⟩
  · rw [receiving]
    refine ⟨fun _ => ⟨recorded, length_waiting _ recorded.line, ?_⟩, fun gone => by cases gone⟩
    exact size ▸ recorded.line.bounded
  · rw [gone]
    exact ⟨fun receiving => (by cases receiving), fun _ => closed⟩

end QueueRun
end StartupLatency
