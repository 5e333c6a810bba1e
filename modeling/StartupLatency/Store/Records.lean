import StartupLatency.Store.Error
import StartupLatency.Text.Decimal
/-!
Records in memory. Every write draws the next version of one counter; a create needs a free name,
and an update goes through only from the version that is stored. A call that fails leaves
everything as it was.
-/

namespace StartupLatency

/-- `version` counts the writes that went through and is the number of the latest version. It stands
for a word of 64 bits, so what is said of versions is said of fewer than `2 ^ 64` writes. -/
structure RecordStore where
  records : SortedMap ObjectName Record
  version : Nat
deriving DecidableEq

namespace RecordStore

def empty : RecordStore := ⟨∅, 0⟩

def size (store : RecordStore) : Nat := store.records.size

def get (store : RecordStore) (key : ObjectName) : Except StoreError Record :=
  match store.records.find? key with
  | some record => .ok record
  | none => .error (.notFound (Record.title key))

def list (store : RecordStore) (scope : Scope) : List Record :=
  store.records.values.filter fun record => scope.covers record.ns record.spec.labels

def nextVersion (store : RecordStore) : String := Text.Decimal.text (store.version + 1)

def commit (store : RecordStore) (record : Record) : Record × RecordStore :=
  let stored := { record with version := some store.nextVersion }
  (stored, ⟨store.records.insert record.key stored, store.version + 1⟩)

def create (store : RecordStore) (record : Record) : Except StoreError Record × RecordStore :=
  match store.records.find? record.key with
  | some _ => (.error (.alreadyExists (Record.title record.key)), store)
  | none => (.ok (store.commit record).1, (store.commit record).2)

def update (store : RecordStore) (record : Record) : Except StoreError Record × RecordStore :=
  match store.records.find? record.key with
  | none => (.error (.notFound (Record.title record.key)), store)
  | some current =>
    if current.version = record.version then (.ok (store.commit record).1, (store.commit record).2)
    else (.error (.conflict (Record.title record.key)), store)

def write (store : RecordStore) (record : Record) : RecordStore := (store.commit record).2

def writeAll (store : RecordStore) (records : List Record) : RecordStore :=
  records.foldl write store

def createAll (store : RecordStore) (records : List Record) : Except StoreError RecordStore :=
  records.foldlM (fun store record =>
    let (answer, store) := store.create record
    answer.map fun _ => store) store

end RecordStore
end StartupLatency
