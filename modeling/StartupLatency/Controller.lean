import StartupLatency.Backoff
import StartupLatency.Health
import StartupLatency.Metrics
import StartupLatency.Pass
import StartupLatency.Queue
import StartupLatency.Watch.Event
/-!
The controller: events are admitted into the work queue, a dispatcher takes keys out and starts
passes within a bound, and the outcomes of passes schedule retries. Each action of one of these
parts is one step, `perform`; a run is any sequence of steps, and `Controller.Schedule` picks one
by virtual time.
-/

namespace StartupLatency

structure ControllerSettings where
  policy : Policy
  filter : Scope
  maxConcurrent : Nat
  queueCapacity : Nat
  backoff : Backoff
deriving DecidableEq

/-- The queue and the permits for passes can be made. A bound of zero counts as one. -/
structure ControllerSettings.Accepted (settings : ControllerSettings) : Prop where
  queue : settings.queueCapacity ≤ Word.mostPermits
  passes : settings.maxConcurrent ≤ Word.mostPermits

instance (settings : ControllerSettings) : Decidable settings.Accepted :=
  decidable_of_iff
    (settings.queueCapacity ≤ Word.mostPermits ∧ settings.maxConcurrent ≤ Word.mostPermits)
    ⟨fun ⟨queue, passes⟩ => ⟨queue, passes⟩, fun accepted => ⟨accepted.queue, accepted.passes⟩⟩

structure RunningPass where
  order : Nat
  key : ObjectName
  pass : Pass
  started : Nat
  -- The time at which its pod read has answered.
  wakes : Nat
deriving DecidableEq

structure ScheduledRetry where
  order : Nat
  key : ObjectName
  due : Nat
deriving DecidableEq

inductive QueueSender where
  | admission
  | retry
deriving DecidableEq

inductive Admission where
  | receiving
  | sending
  | ended
deriving DecidableEq

structure Controller where
  settings : ControllerSettings
  now : Nat
  inbox : List PodEvent
  inboxOpen : Bool
  admission : Admission
  queue : WorkQueue QueueSender
  held : Option ObjectName
  running : List RunningPass
  retries : List ScheduledRetry
  -- Failures in a row of the keys whose latest pass failed, as words of 32 bits.
  failures : SortedMap ObjectName Nat
  health : HealthRegistry
  metrics : Metrics
  dispatching : Bool
  order : Nat

inductive ControllerAction where
  | takeEvent
  | receive
  | start
  | advance (order : Nat)
  | settle (order : Nat)
  | retry (order : Nat)
deriving DecidableEq

namespace Controller

/-- With bounds that are not accepted the controller comes down before it looks at an event. -/
def initial (settings : ControllerSettings) (health : HealthRegistry) : Controller :=
  { settings := settings
    now := 0
    inbox := []
    inboxOpen := true
    admission := if settings.Accepted then .receiving else .ended
    queue := .empty settings.queueCapacity
    held := none
    running := []
    retries := []
    failures := ∅
    health := health
    metrics := .empty
    dispatching := decide settings.Accepted
    order := 0 }

def limit (c : Controller) : Nat := max 1 c.settings.maxConcurrent

-- An event for the controller; lost when nobody receives it.
def send (c : Controller) (event : PodEvent) : Controller :=
  if c.inboxOpen && c.admission != .ended then { c with inbox := c.inbox ++ [event] } else c

def closeInbox (c : Controller) : Controller := { c with inboxOpen := false }

/-- Stop dispatching. Passes in progress go on; a key that waits for its pass is dropped, and
nothing is admitted or enqueued any more. -/
def shutdown (c : Controller) : Controller :=
  if c.dispatching then
    { c with
      dispatching := false
      held := none
      admission := .ended
      inbox := []
      queue := c.queue.close.2 }
  else c

def noteDepth (c : Controller) : Controller :=
  { c with metrics := c.metrics.setQueueDepth c.queue.length }

def takeEvent? (c : Controller) : Option Controller :=
  match c.admission, c.inbox with
  | .receiving, event :: rest =>
    let admitted := c.settings.filter.admits event
    let c := { c with inbox := rest, metrics := c.metrics.countWatchEvent admitted }
    if admitted then
      match c.queue.enqueue .admission event.pod.key with
      | (.suspended, queue) => some { c with queue := queue, admission := .sending }
      | (_, queue) => some { c with queue := queue }.noteDepth
    else some c
  | _, _ => none

-- Take the next key; the sender that moves up in the queue goes on.
def receive? (c : Controller) : Option Controller :=
  if c.dispatching && c.held.isNone then
    match c.queue.next? with
    | some (key, admitted, queue) =>
      let c := { c with queue := queue, held := some key }.noteDepth
      match admitted with
      | some ⟨.admission, _⟩ => some { c with admission := .receiving }
      | _ => some c
    | none => none
  else none

def start? (c : Controller) (readTakes : Nat) : Option Controller :=
  match c.held with
  | some key =>
    if c.dispatching && decide (c.running.length < c.limit) then
      some { c with
        held := none
        running := c.running ++ [⟨c.order, key, .readingPod, c.now, c.now + readTakes⟩]
        order := c.order + 1 }
    else none
  | none => none

def find? (c : Controller) (order : Nat) : Option RunningPass :=
  c.running.find? fun run => run.order = order

def replace (c : Controller) (order : Nat) (pass : Pass) : Controller :=
  { c with
    running := c.running.map fun run => if run.order = order then { run with pass := pass } else run }

def dropRun (c : Controller) (order : Nat) : Controller :=
  { c with running := c.running.filter fun run => run.order ≠ order }

def scheduleRetry (c : Controller) (key : ObjectName) (delay : Nat) : Controller :=
  { c with
    retries := c.retries ++ [⟨c.order, key, c.now + delay⟩]
    order := c.order + 1 }

-- A pass came through: the key has no failures any more, and when no key has, the reconciler is
-- healthy again.
def recover (c : Controller) (key : ObjectName) : Controller :=
  let failures := c.failures.erase key
  { c with
    failures := failures
    health :=
      if c.failures.contains key && failures.isEmpty then
        c.health.report HealthRegistry.reconciler .healthy
      else c.health }

/-- Failures in a row of a key, counting one more; behind the greatest word comes zero. -/
def failuresAfter (c : Controller) (key : ObjectName) : Nat :=
  ((c.failures.find? key).getD 0 + 1) % Word.limit32

def fail (c : Controller) (key : ObjectName) (error : StoreError) : Controller :=
  let count := c.failuresAfter key
  { c with
    failures := c.failures.insert key count
    health :=
      c.health.report HealthRegistry.reconciler (.degraded (Pass.failureText key error)) }
  |>.scheduleRetry key (c.settings.backoff.delay count).ticks

def countOutcome (c : Controller) (outcome : String) : Controller :=
  { c with metrics := c.metrics.countPass outcome }

def handle (c : Controller) (key : ObjectName) : PassOutcome → Controller
  | .done _ => (c.recover key).countOutcome "done"
  | .requeue => ((c.recover key).countOutcome "requeue").scheduleRetry key 0
  | .failed error => (c.countOutcome "error").fail key error

def observeDuration (c : Controller) (millis : Nat) : Controller :=
  { c with metrics := c.metrics.observePass (.ofRatio false millis 1000) }

def settle? (c : Controller) (order : Nat) : Option Controller :=
  match c.find? order with
  | some ⟨_, key, .ended outcome, started, _⟩ =>
    some (((c.dropRun order).observeDuration (c.now - started)).handle key outcome)
  | _ => none

def retry? (c : Controller) (order : Nat) : Option Controller :=
  match c.retries.find? fun entry => entry.order = order with
  | some entry =>
    some { c with
      retries := c.retries.filter fun other => other.order ≠ order
      queue := (c.queue.enqueue .retry entry.key).2 }
  | none => none

/-- One step; `none` when the action cannot be taken. A store call goes through `access`, which
may differ from step to step. -/
def perform (access : StoreAccess σ) (readTakes : Nat) (action : ControllerAction)
    (c : Controller) (world : σ) : Option (Controller × σ) :=
  match action with
  | .takeEvent => c.takeEvent?.map fun c => (c, world)
  | .receive => c.receive?.map fun c => (c, world)
  | .start => (c.start? readTakes).map fun c => (c, world)
  | .advance order =>
    match c.find? order with
    | some run =>
      match run.pass with
      | .ended _ => none
      | pass =>
        let (next, world) := pass.step access c.settings.policy run.key world
        some (c.replace order next, world)
    | none => none
  | .settle order => (c.settle? order).map fun c => (c, world)
  | .retry order => (c.retry? order).map fun c => (c, world)

end Controller
end StartupLatency
