import StartupLatency.Store.Pods
import StartupLatency.Store.Records
/-!
The store calls that a reconcile pass makes, over any kind of world: stores in memory, stores that
fail, a cluster's API server.
-/

namespace StartupLatency

/-- Reads of pods and reads and conditional writes of records, each with the world after it. -/
structure StoreAccess (σ : Type) where
  getPod : ObjectName → σ → Except StoreError Pod × σ
  getRecord : ObjectName → σ → Except StoreError Record × σ
  createRecord : Record → σ → Except StoreError Record × σ
  updateRecord : Record → σ → Except StoreError Record × σ

structure Stores where
  pods : PodStore
  records : RecordStore
deriving DecidableEq

namespace Stores

def empty : Stores := ⟨.empty, .empty⟩

def access : StoreAccess Stores where
  getPod key stores := (stores.pods.get key, stores)
  getRecord key stores := (stores.records.get key, stores)
  createRecord record stores :=
    let (answer, records) := stores.records.create record
    (answer, { stores with records := records })
  updateRecord record stores :=
    let (answer, records) := stores.records.update record
    (answer, { stores with records := records })

end Stores

namespace StoreAccess

def failing (error : StoreError) : StoreAccess σ where
  getPod _ world := (.error error, world)
  getRecord _ world := (.error error, world)
  createRecord _ world := (.error error, world)
  updateRecord _ world := (.error error, world)

end StoreAccess
end StartupLatency
