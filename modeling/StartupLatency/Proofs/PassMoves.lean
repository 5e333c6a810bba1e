import StartupLatency.Pass
import StartupLatency.Proofs.Intake
import StartupLatency.Proofs.RecordVersions

/-!
What one store call of a pass can do. The stores answer, or the call fails with an error and moves
nothing; `Moves` lists every outcome, and all that is proved about interleaved passes starts from
it. A pass that is about to write holds a record that it read some time ago: `Grounded` ties that
record to the version it was read at, and no write of another pass can break the tie, since every
write draws a version of its own. A pass that nothing disturbs takes one of four courses.
-/

namespace StartupLatency

namespace Pass

-- Store calls that a pass has before it, at most.
def callsLeft : Pass → Nat
  | .readingPod => 3
  | .readingRecord _ => 2
  | .creating _ => 1
  | .updating _ => 1
  | .ended _ => 0

theorem calls_left_le (pass : Pass) : pass.callsLeft ≤ 3 := by
  cases pass <;> simp [callsLeft]

theorem calls_left_zero (pass : Pass) (none : pass.callsLeft = 0) :
    ∃ outcome, pass = .ended outcome := by
  cases pass with
  | ended outcome => exact ⟨outcome, rfl⟩
  | _ => cases none

theorem unfinished_or_ended (pass : Pass) :
    pass.outcome? = none ∨ ∃ outcome, pass = .ended outcome := by
  cases pass with
  | ended outcome => exact Or.inr ⟨outcome, rfl⟩
  | _ => exact Or.inl rfl

theorem pod_read_left (answer : Except StoreError Pod) : (afterPodRead answer).callsLeft ≤ 2 := by
  cases answer with
  | ok pod => exact Nat.le_refl 2
  | error error => cases error <;> exact Nat.zero_le 2

theorem record_read_left (policy : Policy) (pod : Pod) (answer : Except StoreError Record) :
    (afterRecordRead policy pod answer).callsLeft ≤ 1 := by
  cases answer with
  | ok record =>
    rw [afterRecordRead]
    split
    · exact Nat.le_refl 1
    · exact Nat.zero_le 1
  | error error => cases error <;> simp [afterRecordRead, callsLeft]

theorem create_left (answer : Except StoreError Record) : (afterCreate answer).callsLeft = 0 := by
  cases answer with
  | ok record => rfl
  | error error => cases error <;> rfl

theorem update_left (answer : Except StoreError Record) : (afterUpdate answer).callsLeft = 0 := by
  cases answer with
  | ok record => rfl
  | error error => cases error <;> rfl

/-- Whatever the store answers, the call was one of those that the pass had before it. -/
theorem step_left {σ : Type} (access : StoreAccess σ) (policy : Policy) (key : ObjectName)
    (pass : Pass) (world : σ) (unfinished : pass.outcome? = none) :
    (pass.step access policy key world).1.callsLeft < pass.callsLeft := by
  cases pass with
  | readingPod => exact Nat.lt_succ_of_le (pod_read_left _)
  | readingRecord pod => exact Nat.lt_succ_of_le (record_read_left policy pod _)
  | creating record => exact Nat.lt_succ_of_le (Nat.le_of_eq (create_left _))
  | updating record => exact Nat.lt_succ_of_le (Nat.le_of_eq (update_left _))
  | ended outcome => cases unfinished

end Pass

namespace Stores

def answering : Option StoreError → StoreAccess Stores
  | none => access
  | some error => .failing error

def commit (stores : Stores) (record : Record) : Stores :=
  { stores with records := (stores.records.commit record).2 }

end Stores

namespace Pass

variable (policy : Policy) (key : ObjectName) (trouble : Option StoreError)

inductive Moves : Pass → Stores → Pass → Stores → Prop where
  | podRead {stores : Stores} (pod : Pod) (found : stores.pods.pods.find? key = some pod) :
      Moves .readingPod stores (.readingRecord pod) stores
  | podGone {stores : Stores}
      (gone : stores.pods.pods.find? key = none ∨ ∃ what, trouble = some (.notFound what)) :
      Moves .readingPod stores (.ended (.done .podGone)) stores
  | upToDate {stores : Stores} (pod : Pod) (record : Record)
      (found : stores.records.records.find? (recordKey pod) = some record)
      (unchanged : record.spec.changedBy (.ofPod pod) policy = false) :
      Moves (.readingRecord pod) stores (.ended (.done .upToDate)) stores
  | outOfDate {stores : Stores} (pod : Pod) (record : Record)
      (found : stores.records.records.find? (recordKey pod) = some record) :
      Moves (.readingRecord pod) stores
        (.updating { record with spec := record.spec.apply (.ofPod pod) policy }) stores
  | missing {stores : Stores} (pod : Pod) :
      Moves (.readingRecord pod) stores (.creating (.ofPod pod policy)) stores
  | created {stores : Stores} (record : Record)
      (free : stores.records.records.find? record.key = none) :
      Moves (.creating record) stores
        (.ended (.done (.created (stores.records.commit record).1))) (stores.commit record)
  | updated {stores : Stores} (record current : Record)
      (found : stores.records.records.find? record.key = some current)
      (same : current.version = record.version) :
      Moves (.updating record) stores
        (.ended (.done (.updated (stores.records.commit record).1))) (stores.commit record)
  | createOutrun {stores : Stores} (record : Record) :
      Moves (.creating record) stores (.ended .requeue) stores
  | updateOutrun {stores : Stores} (record : Record) :
      Moves (.updating record) stores (.ended .requeue) stores
  | failed {stores : Stores} (pass : Pass) (error : StoreError)
      (unfinished : pass.outcome? = none) :
      Moves pass stores (.ended (.failed error)) stores
  | idle {stores : Stores} (outcome : PassOutcome) :
      Moves (.ended outcome) stores (.ended outcome) stores

-- What a pass makes of a refused write depends on the error alone.
theorem refused_create_moves (stores : Stores) (record : Record) (error : StoreError) :
    Moves policy key trouble (.creating record) stores (afterCreate (.error error)) stores := by
  cases error with
  | alreadyExists what => exact .createOutrun record
  | notFound what => exact .failed _ _ rfl
  | conflict what => exact .failed _ _ rfl
  | backend what => exact .failed _ _ rfl

theorem refused_update_moves (stores : Stores) (record : Record) (error : StoreError) :
    Moves policy key trouble (.updating record) stores (afterUpdate (.error error)) stores := by
  cases error with
  | conflict what => exact .updateOutrun record
  | notFound what => exact .failed _ _ rfl
  | alreadyExists what => exact .failed _ _ rfl
  | backend what => exact .failed _ _ rfl

theorem refused_read_moves (stores : Stores) (pod : Pod) (error : StoreError) :
    Moves policy key trouble (.readingRecord pod) stores
      (afterRecordRead policy pod (.error error)) stores := by
  cases error with
  | notFound what => exact .missing pod
  | alreadyExists what => exact .failed _ _ rfl
  | conflict what => exact .failed _ _ rfl
  | backend what => exact .failed _ _ rfl

theorem answered_moves (pass : Pass) (stores : Stores) :
    Moves policy key trouble pass stores (pass.step Stores.access policy key stores).1
      (pass.step Stores.access policy key stores).2 := by
  cases pass with
  | readingPod =>
    simp only [step, Stores.access, PodStore.get]
    cases found : stores.pods.pods.find? key with
    | none => exact .podGone (Or.inl found)
    | some pod => exact .podRead pod found
  | readingRecord pod =>
    simp only [step, Stores.access, RecordStore.get]
    cases found : stores.records.records.find? (recordKey pod) with
    | none => exact .missing pod
    | some record =>
      simp only [afterRecordRead]
      split
      · exact .outOfDate pod record found
      · rename_i unchanged
        exact .upToDate pod record found (by simpa using unchanged)
  | creating record =>
    simp only [step, Stores.access]
    rcases RecordStore.create_cases stores.records record with ⟨_, result⟩ | ⟨free, result⟩
    · rw [result]
      exact refused_create_moves policy key trouble stores record _
    · rw [result]
      exact .created record free
  | updating record =>
    simp only [step, Stores.access]
    rcases RecordStore.update_cases stores.records record with
      ⟨_, result⟩ | ⟨_, _, _, result⟩ | ⟨current, found, same, result⟩
    · rw [result]
      exact refused_update_moves policy key trouble stores record _
    · rw [result]
      exact refused_update_moves policy key trouble stores record _
    · rw [result]
      exact .updated record current found same
  | ended outcome => exact .idle outcome

theorem step_moves (pass : Pass) (stores : Stores) :
    Moves policy key trouble pass stores
      (pass.step (Stores.answering trouble) policy key stores).1
      (pass.step (Stores.answering trouble) policy key stores).2 := by
  cases trouble with
  | none => exact answered_moves policy key none pass stores
  | some error =>
    cases pass with
    | readingPod =>
      cases error with
      | notFound what => exact .podGone (Or.inr ⟨what, rfl⟩)
      | alreadyExists what => exact .failed _ _ rfl
      | conflict what => exact .failed _ _ rfl
      | backend what => exact .failed _ _ rfl
    | readingRecord pod => exact refused_read_moves policy key _ stores pod error
    | creating record => exact refused_create_moves policy key _ stores record error
    | updating record => exact refused_update_moves policy key _ stores record error
    | ended outcome => exact .idle outcome

variable {policy key trouble} {pass next other : Pass} {stores after : Stores}

theorem moves_stores (moves : Moves policy key trouble pass stores next after) :
    after = stores ∨ ∃ record, after = stores.commit record := by
  cases moves with
  | created record free => exact Or.inr ⟨record, rfl⟩
  | updated record current found same => exact Or.inr ⟨record, rfl⟩
  | _ => exact Or.inl rfl

theorem moves_pods (moves : Moves policy key trouble pass stores next after) :
    after.pods = stores.pods := by
  rcases moves_stores moves with rfl | ⟨record, rfl⟩ <;> rfl

theorem moves_sound (moves : Moves policy key trouble pass stores next after)
    (sound : stores.records.Sound) : after.records.Sound := by
  rcases moves_stores moves with rfl | ⟨record, rfl⟩
  · exact sound
  · exact RecordStore.sound_commit stores.records record sound

/-- A pass that is about to update holds what it made of the stored record, as long as that record
is still stored in the version it was read in. -/
def Grounded (policy : Policy) (stores : Stores) : Pass → Prop
  | .updating record =>
    stores.records.Drew record.version ∧
      ∀ current, stores.records.records.find? record.key = some current →
        current.version = record.version →
        ∃ seen, record.spec = current.spec.apply seen policy
  | _ => True

theorem grounded_self (moves : Moves policy key trouble pass stores next after)
    (sound : stores.records.Sound) : Grounded policy after next := by
  cases moves with
  | outOfDate pod record found =>
    have drew : stores.records.Drew record.version := sound.drawn _ _ found
    refine ⟨drew, fun current stored _ => ⟨.ofPod pod, ?_⟩⟩
    have named : record.key = recordKey pod := sound.filed _ _ found
    change stores.records.records.find? record.key = some current at stored
    rw [named, found] at stored
    cases stored
    rfl
  | _ => trivial

-- The committed record bears a version that no pass has seen, so it is not the one that a pass
-- holds; every other record is as it was.
theorem grounded_commit (record : Record) (grounded : Grounded policy stores other) :
    Grounded policy (stores.commit record) other := by
  cases other with
  | updating held =>
    obtain ⟨drew, tied⟩ := grounded
    refine ⟨RecordStore.drew_commit _ record _ drew, fun current stored same => ?_⟩
    simp only [Stores.commit, RecordStore.find_commit] at stored
    split at stored
    · cases stored
      exact absurd same.symm (RecordStore.next_version_fresh stores.records held.version drew)
    · exact tied current stored same
  | _ => trivial

theorem grounded_other (moves : Moves policy key trouble pass stores next after)
    (grounded : Grounded policy stores other) : Grounded policy after other := by
  rcases moves_stores moves with rfl | ⟨record, rfl⟩
  · exact grounded
  · exact grounded_commit record grounded

end Pass

/-- Every record is still there, with all that its intakes leave standing. -/
def RecordStore.Retains (policy : Policy) (before after : RecordStore) : Prop :=
  ∀ key record, before.records.find? key = some record →
    ∃ later, after.records.find? key = some later ∧ later.ns = record.ns ∧
      later.name = record.name ∧ RecordSpec.Keeps policy record.spec later.spec

theorem RecordStore.retains_refl (policy : Policy) (store : RecordStore) :
    store.Retains policy store :=
  fun _ record found => ⟨record, found, rfl, rfl, RecordSpec.keeps_refl policy record.spec⟩

theorem RecordStore.retains_trans (policy : Policy) (a b c : RecordStore)
    (first : a.Retains policy b) (second : b.Retains policy c) : a.Retains policy c := by
  intro key record found
  obtain ⟨middle, found, ns, name, kept⟩ := first key record found
  obtain ⟨later, found, ns', name', kept'⟩ := second key middle found
  exact ⟨later, found, ns'.trans ns, name'.trans name,
    RecordSpec.keeps_trans policy _ _ _ kept kept'⟩

namespace Pass

variable {policy : Policy} {key : ObjectName} {trouble : Option StoreError} {pass next : Pass}
  {stores after : Stores}

/-- A create meets a free name, and an update puts what it took in on top of what is stored. -/
theorem moves_retain (moves : Moves policy key trouble pass stores next after)
    (sound : stores.records.Sound) (grounded : Grounded policy stores pass) :
    stores.records.Retains policy after.records := by
  cases moves with
  | created record free =>
    intro wanted stored found
    have elsewhere : wanted ≠ record.key := by
      rintro rfl
      rw [free] at found
      cases found
    exact ⟨stored, by simp [Stores.commit, elsewhere, found], rfl, rfl,
      RecordSpec.keeps_refl policy stored.spec⟩
  | updated record current held same =>
    intro wanted stored found
    by_cases here : wanted = record.key
    · subst here
      rw [held] at found
      cases found
      have named : current.key = record.key := sound.filed _ _ held
      obtain ⟨seen, taken⟩ := grounded.2 current held same
      refine ⟨(stores.records.commit record).1, by simp [Stores.commit],
        (congrArg ObjectName.ns named).symm, (congrArg ObjectName.name named).symm, ?_⟩
      rw [RecordStore.commit_spec, taken]
      exact RecordSpec.keeps_apply current.spec seen policy
    · exact ⟨stored, by simp [Stores.commit, here, found], rfl, rfl,
        RecordSpec.keeps_refl policy stored.spec⟩
  | _ => exact RecordStore.retains_refl policy stores.records

section Undisturbed

variable {policy : Policy} {key : ObjectName} {stores : Stores}

theorem run_gone (gone : stores.pods.pods.find? key = none) :
    Pass.run Stores.access policy key stores = (.ended (.done .podGone), [], stores) := by
  have read : stores.pods.get key = .error (.notFound (Pod.title key)) := by
    rw [PodStore.get, gone]
  simp only [run, finish, step, Stores.access, read]
  rfl

theorem run_creates (pod : Pod) (held : stores.pods.pods.find? key = some pod)
    (free : stores.records.records.find? (recordKey pod) = none) :
    Pass.run Stores.access policy key stores =
      (.ended (.done (.created (stores.records.commit (.ofPod pod policy)).1)),
        [⟨"get", recordKey pod⟩, ⟨"create", recordKey pod⟩],
        stores.commit (.ofPod pod policy)) := by
  have read : stores.pods.get key = .ok pod := by rw [PodStore.get, held]
  have missing : stores.records.get (recordKey pod) =
      .error (.notFound (Record.title (recordKey pod))) := by rw [RecordStore.get, free]
  have created : stores.records.create (.ofPod pod policy) =
      (.ok (stores.records.commit (.ofPod pod policy)).1,
        (stores.records.commit (.ofPod pod policy)).2) := by
    rw [RecordStore.create, show (Record.ofPod pod policy).key = recordKey pod from rfl, free]
  simp only [run, finish, step, Stores.access, read, afterPodRead, missing, afterRecordRead,
    created]
  rfl

theorem run_up_to_date (pod : Pod) (record : Record)
    (held : stores.pods.pods.find? key = some pod)
    (found : stores.records.records.find? (recordKey pod) = some record)
    (unchanged : record.spec.changedBy (.ofPod pod) policy = false) :
    Pass.run Stores.access policy key stores =
      (.ended (.done .upToDate), [⟨"get", recordKey pod⟩], stores) := by
  have read : stores.pods.get key = .ok pod := by rw [PodStore.get, held]
  have stored : stores.records.get (recordKey pod) = .ok record := by rw [RecordStore.get, found]
  simp only [run, finish, step, Stores.access, read, afterPodRead, stored, afterRecordRead,
    unchanged]
  rfl

theorem run_updates (pod : Pod) (record : Record) (sound : stores.records.Sound)
    (held : stores.pods.pods.find? key = some pod)
    (found : stores.records.records.find? (recordKey pod) = some record)
    (changed : record.spec.changedBy (.ofPod pod) policy = true) :
    let taken := { record with spec := record.spec.apply (.ofPod pod) policy }
    Pass.run Stores.access policy key stores =
      (.ended (.done (.updated (stores.records.commit taken).1)),
        [⟨"get", recordKey pod⟩, ⟨"update", recordKey pod⟩], stores.commit taken) := by
  intro taken
  have read : stores.pods.get key = .ok pod := by rw [PodStore.get, held]
  have stored : stores.records.get (recordKey pod) = .ok record := by rw [RecordStore.get, found]
  have named : record.key = recordKey pod := sound.filed _ _ found
  replace named : taken.key = recordKey pod := named
  have call : (Pass.updating taken).recordCall? = some ⟨"update", recordKey pod⟩ := by
    rw [← named]
    rfl
  have updated : stores.records.update taken =
      (.ok (stores.records.commit taken).1, (stores.records.commit taken).2) := by
    rw [RecordStore.update, named, found]
    exact if_pos rfl
  have next : afterRecordRead policy pod (.ok record) = .updating taken := by
    rw [afterRecordRead, if_pos changed]
  simp only [run, finish, step, Stores.access, read, afterPodRead, stored, next, updated, call]
  rfl

end Undisturbed

end Pass
end StartupLatency
