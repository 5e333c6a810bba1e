import StartupLatency.Proofs.Decimal
import StartupLatency.Store.Records

/-!
Versions of the records in memory. A write draws the next number of the store's counter, so a
version names one write: what was drawn before is never drawn again. `Sound` is what every store
that its own calls have built satisfies.
-/

namespace StartupLatency.RecordStore

def Drew (store : RecordStore) (version : Option String) : Prop :=
  ∃ n, n ≤ store.version ∧ version = some (Text.Decimal.text n)

structure Sound (store : RecordStore) : Prop where
  filed : ∀ key record, store.records.find? key = some record → record.key = key
  drawn : ∀ key record, store.records.find? key = some record → store.Drew record.version

theorem sound_empty : Sound empty := ⟨nofun, nofun⟩

theorem next_version_fresh (store : RecordStore) (version : Option String)
    (drew : store.Drew version) : version ≠ some store.nextVersion := by
  obtain ⟨n, bound, rfl⟩ := drew
  intro same
  have number := Text.Decimal.text_injective n (store.version + 1) (Option.some.inj same)
  omega

-- The committed record differs from the given one in its version only.
@[simp] theorem commit_spec (store : RecordStore) (record : Record) :
    (store.commit record).1.spec = record.spec := rfl

@[simp] theorem find_commit (store : RecordStore) (record : Record) (key : ObjectName) :
    (store.commit record).2.records.find? key =
      if key = record.key then some (store.commit record).1 else store.records.find? key := by
  simp [commit]

theorem drew_commit (store : RecordStore) (record : Record) (version : Option String)
    (drew : store.Drew version) : (store.commit record).2.Drew version := by
  obtain ⟨n, bound, same⟩ := drew
  exact ⟨n, Nat.le_succ_of_le bound, same⟩

theorem sound_commit (store : RecordStore) (record : Record) (sound : store.Sound) :
    (store.commit record).2.Sound := by
  constructor
  · intro key stored found
    rw [find_commit] at found
    split at found
    · rename_i same
      cases found
      exact same.symm
    · exact sound.filed key stored found
  · intro key stored found
    rw [find_commit] at found
    split at found
    · cases found
      exact ⟨store.version + 1, Nat.le_refl _, rfl⟩
    · exact drew_commit store record _ (sound.drawn key stored found)

/-- A create either finds the name taken and leaves the store alone, or commits. -/
theorem create_cases (store : RecordStore) (record : Record) :
    ((∃ current, store.records.find? record.key = some current) ∧
      store.create record = (.error (.alreadyExists (Record.title record.key)), store)) ∨
    (store.records.find? record.key = none ∧
      store.create record = (.ok (store.commit record).1, (store.commit record).2)) := by
  unfold create
  cases found : store.records.find? record.key with
  | none => exact Or.inr ⟨rfl, rfl⟩
  | some current => exact Or.inl ⟨⟨current, rfl⟩, rfl⟩

/-- An update goes through exactly from the version that is stored. -/
theorem update_cases (store : RecordStore) (record : Record) :
    (store.records.find? record.key = none ∧
      store.update record = (.error (.notFound (Record.title record.key)), store)) ∨
    (∃ current, store.records.find? record.key = some current ∧
      current.version ≠ record.version ∧
      store.update record = (.error (.conflict (Record.title record.key)), store)) ∨
    (∃ current, store.records.find? record.key = some current ∧
      current.version = record.version ∧
      store.update record = (.ok (store.commit record).1, (store.commit record).2)) := by
  unfold update
  cases found : store.records.find? record.key with
  | none => exact Or.inl ⟨rfl, rfl⟩
  | some current =>
    by_cases same : current.version = record.version
    · exact Or.inr (Or.inr ⟨current, rfl, same, by simp [same]⟩)
    · exact Or.inr (Or.inl ⟨current, rfl, same, by simp [same]⟩)

theorem sound_create (store : RecordStore) (record : Record) (sound : store.Sound) :
    (store.create record).2.Sound := by
  rcases create_cases store record with ⟨_, result⟩ | ⟨_, result⟩
  · rwa [result]
  · rw [result]
    exact sound_commit store record sound

theorem sound_update (store : RecordStore) (record : Record) (sound : store.Sound) :
    (store.update record).2.Sound := by
  rcases update_cases store record with ⟨_, result⟩ | ⟨_, _, _, result⟩ | ⟨_, _, _, result⟩
  · rwa [result]
  · rwa [result]
  · rw [result]
    exact sound_commit store record sound

end StartupLatency.RecordStore
