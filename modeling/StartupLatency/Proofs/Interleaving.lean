import StartupLatency.Proofs.PassMoves

/-!
Any number of passes over the stores that they share. A move changes a pod, begins a pass, or makes
the next store call of some pass, which may be in trouble; a history is any list of moves, so every
interleaving is one. Whatever a record has got, later moves leave with it.
-/

namespace StartupLatency

structure Traffic where
  stores : Stores
  passes : List (ObjectName × Pass)

namespace Traffic

inductive Move where
  | upsert (pod : Pod)
  | start (key : ObjectName)
  | call (index : Nat) (trouble : Option StoreError)

def empty : Traffic := ⟨.empty, []⟩

def after (policy : Policy) (traffic : Traffic) : Move → Traffic
  | .upsert pod =>
    { traffic with stores := { traffic.stores with pods := traffic.stores.pods.upsert pod } }
  | .start key => { traffic with passes := traffic.passes ++ [(key, .readingPod)] }
  | .call index trouble =>
    match traffic.passes[index]? with
    | some (key, pass) =>
      let (next, stores) := pass.step (Stores.answering trouble) policy key traffic.stores
      ⟨stores, traffic.passes.set index (key, next)⟩
    | none => traffic

def replay (policy : Policy) (history : List Move) (traffic : Traffic) : Traffic :=
  history.foldl (after policy) traffic

/-- What holds between the stores and the passes after any history. -/
structure Coherent (policy : Policy) (traffic : Traffic) : Prop where
  sound : traffic.stores.records.Sound
  grounded : ∀ entry ∈ traffic.passes, entry.2.Grounded policy traffic.stores

theorem coherent_empty (policy : Policy) : Coherent policy empty :=
  ⟨RecordStore.sound_empty, fun _ member => absurd member List.not_mem_nil⟩

/-- One move keeps the passes coherent with the stores, and no record loses what it has got. -/
theorem after_coherent (policy : Policy) (traffic : Traffic) (move : Move)
    (coherent : Coherent policy traffic) :
    Coherent policy (traffic.after policy move) ∧
      traffic.stores.records.Retains policy (traffic.after policy move).stores.records := by
  have unmoved := RecordStore.retains_refl policy traffic.stores.records
  cases move with
  | upsert pod =>
    refine ⟨⟨coherent.sound, fun entry member => ?_⟩, unmoved⟩
    exact coherent.grounded entry member
  | start key =>
    refine ⟨⟨coherent.sound, fun entry member => ?_⟩, unmoved⟩
    rcases List.mem_append.mp member with old | new
    · exact coherent.grounded entry old
    · cases List.mem_singleton.mp new
      trivial
  | call index trouble =>
    simp only [after]
    cases present : traffic.passes[index]? with
    | none => exact ⟨coherent, unmoved⟩
    | some entry =>
      obtain ⟨key, pass⟩ := entry
      have moves := Pass.step_moves policy key trouble pass traffic.stores
      have grounded := coherent.grounded (key, pass) (List.mem_of_getElem? present)
      refine ⟨⟨Pass.moves_sound moves coherent.sound, fun entry member => ?_⟩,
        Pass.moves_retain moves coherent.sound grounded⟩
      rcases List.mem_or_eq_of_mem_set member with old | rfl
      · exact Pass.grounded_other moves (coherent.grounded entry old)
      · exact Pass.grounded_self moves coherent.sound

theorem replay_coherent (policy : Policy) (history : List Move) (traffic : Traffic)
    (coherent : Coherent policy traffic) :
    Coherent policy (replay policy history traffic) ∧
      traffic.stores.records.Retains policy (replay policy history traffic).stores.records := by
  induction history generalizing traffic with
  | nil => exact ⟨coherent, RecordStore.retains_refl policy _⟩
  | cons move rest ih =>
    obtain ⟨next, step⟩ := after_coherent policy traffic move coherent
    obtain ⟨last, others⟩ := ih (traffic.after policy move) next
    exact ⟨last, RecordStore.retains_trans policy _ _ _ step others⟩

/-- Whatever passes do after some point of an interleaving, a record of that point is still there,
under its name, with its identity, its creation and its labels; its node stays once it is known,
and its timestamps stay as the policy says. -/
theorem records_outlast_interleavings (policy : Policy) (history later : List Move)
    (key : ObjectName) (record : Record)
    (found : (replay policy history empty).stores.records.records.find? key = some record) :
    ∃ kept, (replay policy later (replay policy history empty)).stores.records.records.find? key =
        some kept ∧
      kept.ns = record.ns ∧ kept.name = record.name ∧
      RecordSpec.Keeps policy record.spec kept.spec := by
  have coherent := (replay_coherent policy history empty (coherent_empty policy)).1
  exact (replay_coherent policy later _ coherent).2 key record found

-- Two passes read two versions of one pod, and the one with the earlier version creates the record.
def crossedReads : List Move :=
  [.upsert earlyPod, .start earlyPod.key, .start earlyPod.key, .call 0 none, .upsert latePod,
    .call 1 none, .call 0 none, .call 0 none]

def firstRecord : Record := { Record.ofPod earlyPod .firstWriteWins with version := some "1" }

/-- The pass with the later version updates the record in a second attempt: it adds what is
missing and leaves the start as it is. -/
theorem start_outlasts_crossed_reads :
    (replay .firstWriteWins crossedReads empty).stores.records.records.find? firstRecord.key =
      some firstRecord ∧
    ∃ kept, (replay .firstWriteWins
        [.call 1 none, .call 1 (some (.backend "down")), .start latePod.key, .call 2 none,
          .call 2 none, .call 2 none]
        (replay .firstWriteWins crossedReads empty)).stores.records.records.find? firstRecord.key =
        some kept ∧
      kept.ns = firstRecord.ns ∧ kept.name = firstRecord.name ∧
      RecordSpec.Keeps .firstWriteWins firstRecord.spec kept.spec := by
  have found : (replay .firstWriteWins crossedReads empty).stores.records.records.find?
      firstRecord.key = some firstRecord := by decide +kernel
  exact ⟨found, records_outlast_interleavings _ _ _ _ firstRecord found⟩

end Traffic
end StartupLatency
