import Mathlib.Data.List.Chain
import StartupLatency.Proofs.RecordVersions

/-!
The writes of a store of records, whoever makes them. What the store answers depends on the writes
that went through alone: `due` says it of their list, in which the writes of one record are a
create and then updates that each presented the version of the one before. The store keeps no
list; its records and its counter are what the list comes down to. Versions are counted without a
bound, which a counter of 64 bits does as well for fewer than 2^64 writes.
-/

namespace StartupLatency.RecordStore

inductive Call where
  | get (key : ObjectName)
  | create (record : Record)
  | update (record : Record)

def serve (store : RecordStore) : Call → Except StoreError Record × RecordStore
  | .get key => (store.get key, store)
  | .create record => store.create record
  | .update record => store.update record

def servedTo (calls : List Call) (store : RecordStore) : RecordStore :=
  calls.foldl (fun store call => (store.serve call).2) store

structure Write where
  call : Call
  stored : Record

def written? (store : RecordStore) (call : Call) : Option Write :=
  match call, (store.serve call).1 with
  | .get _, _ => none
  | _, .error _ => none
  | call, .ok stored => some ⟨call, stored⟩

def writes (store : RecordStore) : List Call → List Write
  | [] => []
  | call :: rest => (store.written? call).toList ++ writes (store.serve call).2 rest

namespace Write

def ofKey (key : ObjectName) (log : List Write) : List Write :=
  log.filter fun write => write.stored.key = key

def last? (key : ObjectName) (log : List Write) : Option Write := (ofKey key log).getLast?

def Creates (write : Write) : Prop := ∃ record, write.call = .create record

/-- An update that presented the version that the write before it was given. -/
def Replaces (before write : Write) : Prop :=
  ∃ record, write.call = .update record ∧ record.version = before.stored.version

/-- One create, and then updates, each of the version before it. -/
def Chained (log : List Write) : Prop :=
  (∀ first ∈ log.head?, first.Creates) ∧ log.IsChain Replaces

def Whole (write : Write) : Prop :=
  ∃ record, (write.call = .create record ∨ write.call = .update record) ∧
    write.stored = { record with version := write.stored.version }

/-- The answer that is due after the given writes. -/
def due (log : List Write) : Call → Except StoreError Record
  | .get key =>
    match last? key log with
    | some last => .ok last.stored
    | none => .error (.notFound (Record.title key))
  | .create record =>
    match last? record.key log with
    | some _ => .error (.alreadyExists (Record.title record.key))
    | none => .ok { record with version := some (Text.Decimal.text (log.length + 1)) }
  | .update record =>
    match last? record.key log with
    | none => .error (.notFound (Record.title record.key))
    | some last =>
      if last.stored.version = record.version then
        .ok { record with version := some (Text.Decimal.text (log.length + 1)) }
      else .error (.conflict (Record.title record.key))

theorem of_key_append (key : ObjectName) (log : List Write) (write : Write) :
    ofKey key (log ++ [write]) =
      if write.stored.key = key then ofKey key log ++ [write] else ofKey key log := by
  by_cases here : write.stored.key = key <;> simp [ofKey, here]

theorem last_append (key : ObjectName) (log : List Write) (write : Write) :
    last? key (log ++ [write]) =
      if key = write.stored.key then some write else last? key log := by
  rw [last?, of_key_append]
  by_cases here : key = write.stored.key
  · simp [here]
  · simp [here, Ne.symm here, last?]

theorem chained_create (log : List Write) (write : Write) (none : log.getLast? = none)
    (creates : write.Creates) : Chained (log ++ [write]) := by
  rw [List.getLast?_eq_none_iff] at none
  subst none
  exact ⟨by simpa using creates, .singleton write⟩

theorem chained_update (log : List Write) (last write : Write) (chained : Chained log)
    (latest : log.getLast? = some last) (replaces : last.Replaces write) :
    Chained (log ++ [write]) := by
  constructor
  · intro first member
    cases log with
    | nil => cases latest
    | cons head rest => exact chained.1 first member
  · refine chained.2.append (.singleton write) fun before ends after starts => ?_
    simp only [latest, Option.mem_def, Option.some.injEq] at ends
    simp only [List.head?_cons, Option.mem_def, Option.some.injEq] at starts
    exact ends ▸ starts ▸ replaces

end Write

open Write

structure Logged (store : RecordStore) (log : List Write) : Prop where
  counted : store.version = log.length
  latest : ∀ key, store.records.find? key = (last? key log).map Write.stored
  numbered : ∀ i write, log[i]? = some write →
    write.stored.version = some (Text.Decimal.text (i + 1))
  chained : ∀ key, Chained (ofKey key log)
  whole : ∀ write ∈ log, write.Whole

theorem logged_empty : empty.Logged [] where
  counted := rfl
  latest _ := rfl
  numbered _ _ found := by cases found
  chained _ := ⟨fun _ member => (by cases member), .nil⟩
  whole _ member := by cases member

variable {store : RecordStore} {log : List Write}

theorem commit_key (record : Record) : (store.commit record).1.key = record.key := rfl

/-- A committed record joins the writes of its name, as the next one of all. -/
theorem logged_commit (record : Record) (call : Call)
    (given : call = .create record ∨ call = .update record) (logged : store.Logged log)
    (chained : Chained (ofKey record.key log ++ [⟨call, (store.commit record).1⟩])) :
    (store.commit record).2.Logged (log ++ [⟨call, (store.commit record).1⟩]) := by
  constructor
  · simp [commit, logged.counted]
  · intro key
    rw [find_commit, last_append, logged.latest key, commit_key]
    split <;> rfl
  · intro i write found
    rw [List.getElem?_append] at found
    split at found
    · exact logged.numbered i write found
    · rename_i past
      obtain ⟨here, rfl⟩ : i - log.length = 0 ∧
          Write.mk call (store.commit record).1 = write := by
        cases same : i - log.length with
        | zero => simpa [same] using found
        | succ n => simp [same] at found
      have at_end : store.version + 1 = i + 1 := by
        rw [logged.counted]
        omega
      simp only [commit, nextVersion, at_end]
  · intro key
    rw [of_key_append]
    split
    · rename_i here
      have name : record.key = key := here
      exact name ▸ chained
    · exact logged.chained key
  · intro write member
    rcases List.mem_append.mp member with old | new
    · exact logged.whole write old
    · cases List.mem_singleton.mp new
      exact ⟨record, given, rfl⟩

/-- A call is answered as is due, and a write that goes through joins the list. -/
theorem serve_logged (call : Call) (logged : store.Logged log) :
    (store.serve call).1 = due log call ∧
      (store.serve call).2.Logged (log ++ (store.written? call).toList) := by
  have next : some store.nextVersion = some (Text.Decimal.text (log.length + 1)) := by
    rw [nextVersion, logged.counted]
  cases call with
  | get key =>
    refine ⟨?_, by simpa [serve, written?] using logged⟩
    simp only [serve, get, due, logged.latest key]
    cases last? key log <;> rfl
  | create record =>
    have stored := logged.latest record.key
    rcases create_cases store record with ⟨⟨current, found⟩, result⟩ | ⟨free, result⟩
    · refine ⟨?_, by simpa [serve, written?, result] using logged⟩
      cases last : last? record.key log with
      | none => simp [last, found] at stored
      | some write => simp only [serve, result, due, last]
    · have last : last? record.key log = none := by simpa [free] using stored.symm
      refine ⟨by simp only [serve, result, due, last, commit, next], ?_⟩
      simpa only [serve, written?, result, Option.toList_some] using
        logged_commit record _ (Or.inl rfl) logged (chained_create _ _ last ⟨record, rfl⟩)
  | update record =>
    have stored := logged.latest record.key
    rcases update_cases store record with
      ⟨missing, result⟩ | ⟨current, found, differs, result⟩ | ⟨current, found, same, result⟩
    · have last : last? record.key log = none := by simpa [missing] using stored.symm
      exact ⟨by simp only [serve, result, due, last],
        by simpa [serve, written?, result] using logged⟩
    · obtain ⟨write, last, rfl⟩ := Option.map_eq_some_iff.mp (stored.symm.trans found)
      exact ⟨by simp only [serve, result, due, last, if_neg differs],
        by simpa [serve, written?, result] using logged⟩
    · -- What the store holds is the last write of its name, and that is what the update presents.
      obtain ⟨write, last, rfl⟩ := Option.map_eq_some_iff.mp (stored.symm.trans found)
      refine ⟨by simp only [serve, result, due, last, if_pos same, commit, next], ?_⟩
      simpa only [serve, written?, result, Option.toList_some] using
        logged_commit record _ (Or.inr rfl) logged
          (chained_update _ write _ (logged.chained record.key) last ⟨record, rfl, same.symm⟩)

theorem served_logged (calls : List Call) (logged : store.Logged log) :
    (servedTo calls store).Logged (log ++ writes store calls) := by
  induction calls generalizing store log with
  | nil => simpa [servedTo, writes] using logged
  | cons call rest ih =>
    have later := ih (serve_logged call logged).2
    rwa [List.append_assoc] at later

theorem serve_fails (call : Call) (fault : StoreError)
    (failed : (store.serve call).1 = .error fault) : (store.serve call).2 = store := by
  cases call with
  | get key => rfl
  | create record =>
    rcases create_cases store record with ⟨_, result⟩ | ⟨_, result⟩
    · rw [serve, result]
    · rw [serve, result] at failed
      cases failed
  | update record =>
    rcases update_cases store record with ⟨_, result⟩ | ⟨_, _, _, result⟩ | ⟨_, _, _, result⟩
    · rw [serve, result]
    · rw [serve, result]
    · rw [serve, result] at failed
      cases failed

/-- No update is lost. After any calls, whoever made them, the writes of each record are one chain
that begins with its create, and each update in it presented the version of the write before; the
versions are the numbers of the writes, counted over all records; the next call is answered as the
writes make due, and if that is an error, the store stays as it is. -/
theorem writes_are_chained (calls : List Call) :
    (∀ key, Chained (ofKey key (writes empty calls))) ∧
    (∀ write ∈ writes empty calls, write.Whole) ∧
    (∀ i write, (writes empty calls)[i]? = some write →
      write.stored.version = some (Text.Decimal.text (i + 1))) ∧
    (writes empty calls).Pairwise (fun before write => ∃ m n, m < n ∧
      before.stored.version = some (Text.Decimal.text m) ∧
      write.stored.version = some (Text.Decimal.text n)) ∧
    ((writes empty calls).map fun write => write.stored.version).Nodup ∧
    (∀ call, ((servedTo calls empty).serve call).1 = due (writes empty calls) call ∧
      ∀ fault, ((servedTo calls empty).serve call).1 = .error fault →
        ((servedTo calls empty).serve call).2 = servedTo calls empty) := by
  have logged := served_logged calls logged_empty
  rw [List.nil_append] at logged
  have ordered : (writes empty calls).Pairwise fun before write => ∃ m n, m < n ∧
      before.stored.version = some (Text.Decimal.text m) ∧
      write.stored.version = some (Text.Decimal.text n) := by
    rw [List.pairwise_iff_getElem]
    intro i j inside within less
    exact ⟨i + 1, j + 1, by omega, logged.numbered i _ (List.getElem?_eq_getElem inside),
      logged.numbered j _ (List.getElem?_eq_getElem within)⟩
  refine ⟨logged.chained, logged.whole, logged.numbered, ordered, ?_,
    fun call => ⟨(serve_logged call logged).1, fun fault => serve_fails call fault⟩⟩
  refine List.pairwise_map.mpr (ordered.imp ?_)
  rintro before write ⟨m, n, less, first, second⟩ same
  rw [first, second] at same
  have numbers := Text.Decimal.text_injective m n (Option.some.inj same)
  omega

end StartupLatency.RecordStore
