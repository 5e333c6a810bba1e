import StartupLatency.Pod
/-!
The work queue: a bounded channel of keys, the senders that wait for room, and the set of waiting
keys, through which a key that waits already is taken as enqueued. A key waits until it is
received.
-/

namespace StartupLatency

structure Suspended (τ : Type) where
  sender : τ
  key : ObjectName
deriving DecidableEq

structure WorkQueue (τ : Type) where
  capacity : Nat
  channel : List ObjectName
  suspended : List (Suspended τ)
  -- The keys that wait in the channel or with a suspended sender.
  pending : SortedMap ObjectName Unit
  receiving : Bool

inductive Enqueued where
  | inserted
  -- The key waits already, or nobody receives any more.
  | refused
  | suspended
deriving DecidableEq

namespace WorkQueue

def empty (capacity : Nat) : WorkQueue τ := ⟨max 1 capacity, [], [], ∅, true⟩

def length (queue : WorkQueue τ) : Nat := queue.pending.size

/-- The waiting keys in the order in which they will be delivered. -/
def waiting (queue : WorkQueue τ) : List ObjectName :=
  queue.channel ++ queue.suspended.map Suspended.key

def enqueue (queue : WorkQueue τ) (sender : τ) (key : ObjectName) : Enqueued × WorkQueue τ :=
  if queue.pending.contains key || !queue.receiving then (.refused, queue)
  else
    let marked := { queue with pending := queue.pending.insert key () }
    if queue.channel.length < queue.capacity then
      (.inserted, { marked with channel := queue.channel ++ [key] })
    else (.suspended, { marked with suspended := queue.suspended ++ [⟨sender, key⟩] })

-- Take the first key out of the channel; the first suspended sender moves up.
def next? (queue : WorkQueue τ) : Option (ObjectName × Option (Suspended τ) × WorkQueue τ) :=
  match queue.channel with
  | [] => none
  | key :: rest =>
    let received := { queue with pending := queue.pending.erase key }
    match queue.suspended with
    | [] => some (key, none, { received with channel := rest })
    | first :: others =>
      some (key, some first,
        { received with channel := rest ++ [first.key], suspended := others })

/-- Drop the receiving side: the suspended senders fail, and their keys wait no longer. -/
def close (queue : WorkQueue τ) : List (Suspended τ) × WorkQueue τ :=
  (queue.suspended,
    { queue with
      suspended := []
      pending := queue.suspended.foldl (fun keys waiter => keys.erase waiter.key) queue.pending
      receiving := false })

end WorkQueue
end StartupLatency
