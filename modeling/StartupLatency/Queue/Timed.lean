import StartupLatency.Queue
/-!
A work queue in virtual time, with enqueues that come after a delay. Time moves only when a caller
lets it pass or waits for a key.
-/

namespace StartupLatency

structure DelayedKey where
  due : Nat
  key : ObjectName
deriving DecidableEq

/-- Senders are marked by whether their caller waits for the answer. -/
structure TimedQueue where
  queue : WorkQueue Bool
  -- By time, and in the order of the calls at one time.
  delayed : List DelayedKey
  now : Nat
  -- Whether the producing side is still there; delayed and suspended enqueues keep their own.
  producing : Bool
  lastLength : Nat

inductive QueueCall where
  | enqueue (key : ObjectName)
  | enqueueAfter (key : ObjectName) (delay : Nat)
  | next
  -- Wait for a key, one hour at most.
  | nextWait
  | advance (millis : Nat)
  | closeReceiver
  | closeSender
deriving DecidableEq

inductive QueueAnswer where
  | nothing
  | returned
  | blocked
  | key (key : ObjectName)
  | waiting
  | finished
deriving DecidableEq

/-- What one call did: its own answer, and the enqueue calls that returned meanwhile. -/
structure QueueStep where
  answer : QueueAnswer
  enqueued : List (ObjectName × Bool)
deriving DecidableEq

namespace TimedQueue

def empty (capacity : Nat) : TimedQueue := ⟨.empty capacity, [], 0, true, 0⟩

def patience : Nat := 3600000

-- Behind every key that is due no later.
def insertDelayed (entry : DelayedKey) : List DelayedKey → List DelayedKey
  | [] => [entry]
  | first :: rest =>
    if first.due ≤ entry.due then first :: insertDelayed entry rest else entry :: first :: rest

def passTo (timed : TimedQueue) (time : Nat) : TimedQueue :=
  let due := timed.delayed.takeWhile fun entry => entry.due ≤ time
  { timed with
    queue := due.foldl (fun queue entry => (queue.enqueue false entry.key).2) timed.queue
    delayed := timed.delayed.drop due.length
    now := time }

def reportOf (waiter : Suspended Bool) (inserted : Bool) : List (ObjectName × Bool) :=
  if waiter.sender then [(waiter.key, inserted)] else []

def isFinished (timed : TimedQueue) : Bool :=
  !timed.producing && timed.delayed.isEmpty && timed.queue.suspended.isEmpty &&
    timed.queue.channel.isEmpty

def receive (timed : TimedQueue) : QueueStep × TimedQueue :=
  match timed.queue.next? with
  | some (key, admitted, queue) =>
    (⟨.key key, admitted.elim [] fun waiter => reportOf waiter true⟩, { timed with queue := queue })
  | none => (⟨if timed.isFinished then .finished else .waiting, []⟩, timed)

def receiveWaiting (timed : TimedQueue) : QueueStep × TimedQueue :=
  if !timed.queue.channel.isEmpty || timed.isFinished then timed.receive
  else
    let limit := timed.now + patience
    match timed.delayed with
    | entry :: _ =>
      if entry.due ≤ limit then (timed.passTo entry.due).receive
      else (⟨.waiting, []⟩, timed.passTo limit)
    | [] => (⟨.waiting, []⟩, timed.passTo limit)

def perform (timed : TimedQueue) : QueueCall → QueueStep × TimedQueue
  | .enqueue key =>
    if timed.producing then
      match timed.queue.enqueue true key with
      | (.inserted, queue) => (⟨.returned, [(key, true)]⟩, { timed with queue := queue })
      | (.refused, queue) => (⟨.returned, [(key, false)]⟩, { timed with queue := queue })
      | (.suspended, queue) => (⟨.blocked, []⟩, { timed with queue := queue })
    else (⟨.nothing, []⟩, timed)
  | .enqueueAfter key delay =>
    if timed.producing then
      let entry : DelayedKey := ⟨timed.now + delay, key⟩
      (⟨.nothing, []⟩,
        { timed with delayed := insertDelayed entry timed.delayed }.passTo timed.now)
    else (⟨.nothing, []⟩, timed)
  | .next => if timed.queue.receiving then timed.receive else (⟨.nothing, []⟩, timed)
  | .nextWait => if timed.queue.receiving then timed.receiveWaiting else (⟨.nothing, []⟩, timed)
  | .advance millis => (⟨.nothing, []⟩, timed.passTo (timed.now + millis))
  | .closeReceiver =>
    let (failed, queue) := timed.queue.close
    (⟨.nothing, failed.flatMap fun waiter => reportOf waiter false⟩, { timed with queue := queue })
  | .closeSender => (⟨.nothing, []⟩, { timed with producing := false })

def call (timed : TimedQueue) (request : QueueCall) : QueueStep × TimedQueue :=
  let (step, timed) := timed.perform request
  (step,
    if timed.producing then { timed with lastLength := timed.queue.length } else timed)

end TimedQueue
end StartupLatency
