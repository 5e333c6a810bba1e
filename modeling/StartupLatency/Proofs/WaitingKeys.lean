import StartupLatency.Queue

/-!
The keys that wait in a work queue. A key is marked before it is put in, so an enqueue that finds
its key marked may leave it at that: the key is in the queue, or with a sender in front of it. As
long as the queue is received from, no enqueue is in vain.
-/

namespace StartupLatency.WorkQueue

variable {τ : Type}

structure Marked (queue : WorkQueue τ) : Prop where
  receiving : queue.receiving = true
  waits : ∀ key, queue.pending.contains key = true → key ∈ queue.waiting

theorem marked_empty (capacity : Nat) : Marked (empty capacity : WorkQueue τ) :=
  ⟨rfl, fun _ marked => absurd marked Bool.false_ne_true⟩

theorem contains_insert (marks : SortedMap ObjectName Unit) (key other : ObjectName) :
    (marks.insert key ()).contains other = true ↔ other = key ∨ marks.contains other = true := by
  by_cases same : other = key <;> simp [SortedMap.contains, same]

theorem contains_erase (marks : SortedMap ObjectName Unit) (key other : ObjectName) :
    (marks.erase key).contains other = true ↔ other ≠ key ∧ marks.contains other = true := by
  by_cases same : other = key <;> simp [SortedMap.contains, same]

/-- An enqueue finds its key marked, or puts it behind every key that waits already. -/
theorem enqueue_cases (queue : WorkQueue τ) (sender : τ) (key : ObjectName)
    (marked : queue.Marked) :
    (queue.pending.contains key = true ∧ (queue.enqueue sender key).2 = queue) ∨
    ((queue.enqueue sender key).2.receiving = true ∧
      (queue.enqueue sender key).2.pending = queue.pending.insert key () ∧
      ∀ other, other ∈ (queue.enqueue sender key).2.waiting ↔
        other ∈ queue.waiting ∨ other = key) := by
  by_cases known : queue.pending.contains key = true
  · exact Or.inl ⟨known, by simp [enqueue, known]⟩
  · refine Or.inr ?_
    have fresh : (queue.pending.contains key || !queue.receiving) = false := by
      simp [known, marked.receiving]
    simp only [enqueue, fresh, Bool.false_eq_true, ↓reduceIte]
    by_cases room : queue.channel.length < queue.capacity
    · simp only [room, ↓reduceIte]
      refine ⟨marked.receiving, trivial, fun other => ?_⟩
      simp [waiting, or_left_comm, or_comm]
    · simp only [room, ↓reduceIte]
      refine ⟨marked.receiving, trivial, fun other => ?_⟩
      simp [waiting, or_assoc]

theorem enqueue_marked (queue : WorkQueue τ) (sender : τ) (key : ObjectName)
    (marked : queue.Marked) : (queue.enqueue sender key).2.Marked := by
  rcases enqueue_cases queue sender key marked with ⟨_, same⟩ | ⟨receiving, marks, waits⟩
  · rw [same]
    exact marked
  · refine ⟨receiving, fun other found => (waits other).mpr ?_⟩
    rw [marks, contains_insert] at found
    rcases found with new | old
    · exact Or.inr new
    · exact Or.inl (marked.waits other old)

theorem enqueue_waits (queue : WorkQueue τ) (sender : τ) (key : ObjectName)
    (marked : queue.Marked) : key ∈ (queue.enqueue sender key).2.waiting := by
  rcases enqueue_cases queue sender key marked with ⟨known, same⟩ | ⟨_, _, waits⟩
  · rw [same]
    exact marked.waits key known
  · exact (waits key).mpr (Or.inr rfl)

theorem enqueue_keeps (queue : WorkQueue τ) (sender : τ) (key other : ObjectName)
    (marked : queue.Marked) (waits : other ∈ queue.waiting) :
    other ∈ (queue.enqueue sender key).2.waiting := by
  rcases enqueue_cases queue sender key marked with ⟨_, same⟩ | ⟨_, _, iff⟩
  · rw [same]
    exact waits
  · exact (iff other).mpr (Or.inl waits)

/-- What is received is what waited first; the sender that moves up stays in line. -/
theorem next_cases (queue after : WorkQueue τ) (key : ObjectName) (admitted : Option (Suspended τ))
    (next : queue.next? = some (key, admitted, after)) :
    queue.waiting = key :: after.waiting ∧ after.pending = queue.pending.erase key ∧
      after.receiving = queue.receiving := by
  unfold next? at next
  cases channel : queue.channel with
  | nil => simp [channel] at next
  | cons first rest =>
    cases suspended : queue.suspended with
    | nil =>
      simp only [channel, suspended, Option.some.injEq, Prod.mk.injEq] at next
      obtain ⟨rfl, _, rfl⟩ := next
      exact ⟨by simp [waiting, channel, suspended], rfl, rfl⟩
    | cons sender others =>
      simp only [channel, suspended, Option.some.injEq, Prod.mk.injEq] at next
      obtain ⟨rfl, _, rfl⟩ := next
      exact ⟨by simp [waiting, channel, suspended], rfl, rfl⟩

theorem next_marked (queue after : WorkQueue τ) (key : ObjectName)
    (admitted : Option (Suspended τ)) (next : queue.next? = some (key, admitted, after))
    (marked : queue.Marked) : after.Marked := by
  obtain ⟨waits, marks, receiving⟩ := next_cases queue after key admitted next
  refine ⟨receiving.trans marked.receiving, fun other found => ?_⟩
  rw [marks, contains_erase] at found
  have member := marked.waits other found.2
  rw [waits] at member
  exact (List.mem_cons.mp member).resolve_left found.1

end StartupLatency.WorkQueue
