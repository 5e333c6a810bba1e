import StartupLatency.Health
import StartupLatency.Watch.Event
/-!
Forwarding a watch: every report is translated into events, which are handed over one by one to a
channel that may be slow. The first complete listing that is handed over in full makes the process
ready; a fault of the watch degrades its component. What the watch delivers, when the channel
accepts an event, whether its receiver goes away and when the shutdown comes is up to the outside.
-/

namespace StartupLatency

inductive WatchItem where
  | update (update : WatchUpdate)
  -- A fault; the watch goes on by itself.
  | fault (message : String)
deriving DecidableEq

/-- The events of a report that the channel has not accepted yet. -/
structure Handover where
  pending : List PodEvent
  isListing : Bool
deriving DecidableEq

structure Forwarder where
  view : PodView
  -- The report that is being handed over.
  hand? : Option Handover
  registry : HealthRegistry
  -- Events that the channel accepted.
  sent : List PodEvent
  running : Bool
deriving DecidableEq

inductive ForwardAction where
  | take (item : WatchItem)
  | accept
  | refuse
  | shutdown
  | ended
deriving DecidableEq

namespace Forwarder

def start (registry : HealthRegistry) : Forwarder := ⟨∅, none, registry, [], true⟩

def conclude (f : Forwarder) : Forwarder :=
  match f.hand? with
  | some ⟨[], isListing⟩ =>
    { f with
      hand? := none
      registry :=
        if isListing then
          (f.registry.setSynced true).report HealthRegistry.podWatcher .healthy
        else f.registry }
  | _ => f

def isListing : WatchUpdate → Bool
  | .restarted _ _ => true
  | _ => false

def take (f : Forwarder) : WatchItem → Forwarder
  | .update update =>
    let (events, view) := f.view.translate update
    { f with view := view, hand? := some ⟨events, isListing update⟩ }.conclude
  | .fault message =>
    { f with registry := f.registry.report HealthRegistry.podWatcher (.degraded message) }

/-- One step; `none` when the action cannot be taken. While events are handed over nothing else is
looked at, not even the shutdown. -/
def step? (f : Forwarder) (action : ForwardAction) : Option Forwarder :=
  if !f.running then none
  else
    match f.hand?, action with
    | none, .take item => some (f.take item)
    | none, .shutdown => some { f with running := false }
    | none, .ended =>
      some { f with
        running := false
        registry :=
          f.registry.report HealthRegistry.podWatcher (.unhealthy "watch stream ended") }
    | some ⟨event :: rest, isListing⟩, .accept =>
      some { f with hand? := some ⟨rest, isListing⟩, sent := f.sent ++ [event] }.conclude
    | some ⟨_ :: _, _⟩, .refuse => some { f with running := false, hand? := none }
    | _, _ => none

def pending (f : Forwarder) : List PodEvent := (f.hand?.map Handover.pending).getD []

/-- Hand over all that is pending to a channel with room, or to one without a receiver. -/
def handOver (open_ : Bool) (f : Forwarder) : Forwarder :=
  if open_ then (f.pending.foldl (fun f _ => (f.step? .accept).getD f)) f
  else (f.step? .refuse).getD f

end Forwarder
end StartupLatency
