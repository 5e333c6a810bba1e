import StartupLatency.Proofs.ScriptedPasses

/-!
The order in which the simulation takes actions is one of those that a run in virtual time may take
them in. With fuel for all of them it reaches any time, and there every key has had the passes that
its schedule has up to that time.
-/

namespace StartupLatency

namespace Due

theorem first_cases (a b : Due) :
    (a.first b = a ∨ a.first b = b) ∧ (a.first b).time ≤ a.time ∧ (a.first b).time ≤ b.time := by
  unfold first
  split
  · rename_i ahead
    refine ⟨Or.inl rfl, Nat.le_refl _, ?_⟩
    simp only [Bool.or_eq_true, Bool.and_eq_true, decide_eq_true_eq, beq_iff_eq] at ahead
    rcases ahead with less | ⟨same, _⟩
    · exact Nat.le_of_lt less
    · exact Nat.le_of_eq same
  · rename_i behind
    refine ⟨Or.inr rfl, ?_, Nat.le_refl _⟩
    simp only [Bool.or_eq_true, decide_eq_true_eq, not_or, Nat.not_lt] at behind
    exact behind.1

/-- The one of all that comes first. -/
theorem fold_first (dues : List Due) (best : Due) :
    ∃ due ∈ best :: dues,
      dues.foldl (fun best due => some (best.elim due fun best => best.first due)) (some best) =
        some due ∧
      ∀ other ∈ best :: dues, due.time ≤ other.time := by
  induction dues generalizing best with
  | nil =>
    refine ⟨best, List.mem_cons_self, rfl, fun other member => ?_⟩
    rw [List.mem_singleton.mp member]
  | cons next rest ih =>
    obtain ⟨either, first, second⟩ := first_cases best next
    obtain ⟨due, member, folded, least⟩ := ih (best.first next)
    have early := least _ List.mem_cons_self
    refine ⟨due, ?_, folded, fun other present => ?_⟩
    · rcases List.mem_cons.mp member with rfl | later
      · rcases either with same | same <;> simp [same]
      · exact List.mem_cons_of_mem _ (List.mem_cons_of_mem _ later)
    · rcases List.mem_cons.mp present with rfl | present
      · exact Nat.le_trans early first
      · rcases List.mem_cons.mp present with rfl | present
        · exact Nat.le_trans early second
        · exact least other (List.mem_cons_of_mem _ present)

end Due

namespace Controller

variable {σ : Type} {access : StoreAccess σ} {c : Controller} {world : σ}

def dues (c : Controller) : List Due := c.running.map dueOfRun ++ c.retries.map dueOfRetry

theorem first_due_least {due : Due} (first : c.firstDue? = some due) :
    due ∈ c.dues ∧ ∀ other ∈ c.dues, due.time ≤ other.time := by
  change c.dues.foldl _ none = some due at first
  cases dues : c.dues with
  | nil =>
    rw [dues] at first
    cases first
  | cons best rest =>
    rw [dues] at first
    obtain ⟨found, member, folded, least⟩ := Due.fold_first rest best
    cases folded.symm.trans first
    exact ⟨member, least⟩

theorem first_due_none (none : c.firstDue? = none) : c.dues = [] := by
  change c.dues.foldl _ Option.none = Option.none at none
  cases dues : c.dues with
  | nil => rfl
  | cons best rest =>
    rw [dues] at none
    obtain ⟨found, _, folded, _⟩ := Due.fold_first rest best
    cases folded.symm.trans none

theorem due_of_run (run : RunningPass) (member : run ∈ c.running) :
    ∃ due ∈ c.dues, due.time = run.wakes := by
  refine ⟨dueOfRun run, List.mem_append_left _ (List.mem_map_of_mem member), ?_⟩
  unfold dueOfRun
  split <;> rfl

/-- A piece of work whose time has come can go on. -/
theorem due_performs (tidy : c.Tidy) {due : Due} (member : due ∈ c.dues)
    (come : due.time ≤ c.now) :
    c.Comes due.action ∧ c.perform access 0 due.action world ≠ none := by
  rcases List.mem_append.mp member with runs | rests
  · obtain ⟨run, present, rfl⟩ := List.mem_map.mp runs
    exact pass_goes_on access world tidy present
  · obtain ⟨entry, present, rfl⟩ := List.mem_map.mp rests
    exact retry_goes_on access world tidy present come

theorem ready_performs (tidy : c.Tidy) {action : ControllerAction}
    (ready : c.ready? = some action) :
    c.Comes action ∧ c.perform access 0 action world ≠ none := by
  have parts (chosen : ready?.parts c = some action) :
      c.Comes action ∧ c.perform access 0 action world ≠ none := by
    unfold ready?.parts at chosen
    split at chosen
    · rename_i takes
      cases chosen
      exact ⟨trivial, by simpa [perform, Option.isSome_iff_ne_none] using takes⟩
    · split at chosen
      · rename_i receives
        cases chosen
        exact ⟨trivial, by simpa [perform, Option.isSome_iff_ne_none] using receives⟩
      · split at chosen
        · rename_i starts
          cases chosen
          exact ⟨trivial, by simpa [perform, Option.isSome_iff_ne_none] using starts⟩
        · cases chosen
  unfold ready? at ready
  split at ready
  · rename_i due first
    split at ready
    · rename_i come
      cases ready
      exact due_performs tidy (first_due_least first).1 come
    · exact parts ready
  · exact parts ready

theorem unready_cases (unready : c.ready? = none) :
    (∀ due ∈ c.dues, c.now < due.time) ∧
      c.takeEvent? = none ∧ c.receive? = none ∧ c.start? 0 = none := by
  have parts (none : ready?.parts c = Option.none) :
      c.takeEvent? = Option.none ∧ c.receive? = Option.none ∧ c.start? 0 = Option.none := by
    unfold ready?.parts at none
    split at none
    · cases none
    · rename_i takes
      split at none
      · cases none
      · rename_i receives
        split at none
        · cases none
        · rename_i starts
          exact ⟨Option.not_isSome_iff_eq_none.mp takes, Option.not_isSome_iff_eq_none.mp receives,
            Option.not_isSome_iff_eq_none.mp starts⟩
  unfold ready? at unready
  split at unready
  · rename_i due first
    split at unready
    · cases unready
    · rename_i early
      refine ⟨fun other member => ?_, parts unready⟩
      have least := (first_due_least first).2 other member
      omega
  · rename_i none
    rw [first_due_none none]
    exact ⟨nofun, parts unready⟩

theorem idle_of_unready (unready : c.ready? = none) (action : ControllerAction)
    (comes : c.Comes action) : c.perform access 0 action world = none := by
  obtain ⟨later, takes, receives, starts⟩ := unready_cases unready
  have asleep (order : Nat) (awake : ∀ run, c.find? order = some run → run.wakes ≤ c.now) :
      c.find? order = none := by
    refine Option.eq_none_iff_forall_ne_some.mpr fun run found => ?_
    obtain ⟨due, member, time⟩ := due_of_run run (List.mem_of_find?_eq_some found)
    have early := later due member
    rw [time] at early
    exact absurd (awake run found) (Nat.not_le_of_lt early)
  cases action with
  | takeEvent => rw [perform, takes]; rfl
  | receive => rw [perform, receives]; rfl
  | start => rw [perform, starts]; rfl
  | advance order => simp [perform, asleep order comes]
  | settle order => simp [perform, settle?, asleep order comes]
  | retry order =>
    cases found : c.retries.find? fun entry => entry.order = order with
    | none => simp [perform, retry?, found]
    | some entry =>
      have member : dueOfRetry entry ∈ c.dues :=
        List.mem_append_right _ (List.mem_map_of_mem (List.mem_of_find?_eq_some found))
      exact absurd (comes entry found) (Nat.not_le_of_lt (later _ member))

end Controller

namespace Simulation

variable {σ : Type} {access : StoreAccess σ} {first : Controller} {keys : List ObjectName}
  {start run : TimedRun σ} {sim : Simulation σ} {count : Nat}

structure At (sim : Simulation σ) (run : TimedRun σ) : Prop where
  controller : sim.controller = run.controller
  world : sim.world = run.world
  trace : sim.trace = run.trace
  instant : sim.readTakes = 0

open TimedRun

/-- With the fuel given, actions are taken until none can be taken, or as many as the fuel allows. -/
theorem settle_reaches (blank : first.failures = ∅) (onTime : start.OnTime first keys)
    (fuel : Nat) (reached : Reaches access start count run) (place : sim.At run) :
    ∃ taken after, Reaches access start (count + taken) after ∧
      (sim.settle access fuel).At after ∧ after.controller.now = run.controller.now ∧
      (after.Idle access ∨ taken = fuel) ∧ (run.Idle access ∨ fuel = 0 ∨ 0 < taken) := by
  induction fuel generalizing sim run count with
  | zero => exact ⟨0, run, reached, place, rfl, Or.inr rfl, Or.inr (Or.inl rfl)⟩
  | succ fuel ih =>
    have tidy := (reaches_on_time blank onTime reached).tidy
    rw [settle, place.controller]
    cases ready : run.controller.ready? with
    | none =>
      have idle : run.Idle access := fun action comes =>
        Controller.idle_of_unready ready action comes
      exact ⟨0, run, reached, place, rfl, Or.inl idle, Or.inl idle⟩
    | some action =>
      obtain ⟨comes, possible⟩ : run.controller.Comes action ∧
          run.controller.perform access 0 action run.world ≠ none :=
        Controller.ready_performs tidy ready
      obtain ⟨⟨controller, world⟩, performed⟩ := Option.ne_none_iff_exists'.mp possible
      let moved : Simulation σ :=
        { sim with
          controller := controller
          world := world
          trace := sim.trace ++ run.controller.activity action }
      have further := reached.act action comes performed
      have place' : moved.At
          ⟨controller, world, run.trace ++ run.controller.activity action,
            run.log ++ DispatchEvent.outcomes (run.controller.dispatched action controller)⟩ :=
        ⟨rfl, rfl, congrArg (· ++ _) place.trace, place.instant⟩
      obtain ⟨taken, after, later, there, now, ended, _⟩ := ih further place'
      have same := (Controller.perform_tidy tidy comes performed).2.1
      refine ⟨taken + 1, after, ?_, ?_, now.trans same, ended.imp id (congrArg (· + 1)),
        Or.inr (Or.inr (Nat.succ_pos _))⟩
      · rw [Nat.add_comm taken, ← Nat.add_assoc]
        exact later
      · have performed' : run.controller.perform access sim.readTakes action sim.world =
            some (controller, world) := by
          rw [place.instant, place.world]
          exact performed
        simp only [performed']
        exact there

/-- Time passes to a moment that is not beyond any retry. -/
theorem waits (reached : Reaches access start count run) (place : sim.At run)
    (calm : run.controller.Calm) (idle : run.Idle access) (time : Nat)
    (later : run.controller.now ≤ time)
    (retries : ∀ entry ∈ run.controller.retries, time ≤ entry.due) :
    Reaches access start count { run with controller := { run.controller with now := time } } ∧
      (sim.onController fun c => { c with now := time }).At
        { run with controller := { run.controller with now := time } } := by
  constructor
  · refine reached.wait idle time later (fun pass member => ?_) retries
    rw [calm.running] at member
    cases member
  · refine ⟨?_, place.world, place.trace, place.instant⟩
    rw [onController, place.controller]

theorem waits_calmly (reached : Reaches access start count run) (place : sim.At run)
    (calm : run.controller.Calm) (idle : run.Idle access) (time : Nat)
    (later : run.controller.now ≤ time)
    (beyond : ∀ entry ∈ run.controller.retries, time < entry.due) :
    ∃ further after, Reaches access start further after ∧
      (sim.onController fun c => { c with now := time }).At after ∧
      after.controller.Calm ∧ after.controller.now = time := by
  obtain ⟨waited, there⟩ := waits reached place calm idle time later fun entry member =>
    Nat.le_of_lt (beyond entry member)
  exact ⟨_, _, waited, there, ⟨calm.inbox, calm.waiting, calm.held, calm.running, beyond⟩, rfl⟩

section Bounded

variable {bound : Nat} (blank : first.failures = ∅) (onTime : start.OnTime first keys)
  (bounded : ∀ count run, Reaches access start count run → count ≤ bound)

include blank onTime bounded

/-- When time has passed to the first of the retries, actions are taken until there is none. -/
theorem first_retry_settled (reached : Reaches access start count run) (place : sim.At run)
    (idle : run.Idle access) (fuel : Nat) (enough : bound < count + fuel + 1)
    {entry : ScheduledRetry} (present : entry ∈ run.controller.retries)
    (least : ∀ other ∈ run.controller.retries, entry.due ≤ other.due) :
    ∃ taken after, 0 < taken ∧ Reaches access start (count + taken) after ∧
      ((sim.onController fun c => { c with now := max c.now entry.due }).settle access
        (fuel + 1)).At after ∧
      after.Idle access ∧ after.controller.now = entry.due := by
  have calm := Controller.calm_of_idle (reaches_on_time blank onTime reached).tidy idle
  have ahead : run.controller.now ≤ entry.due := Nat.le_of_lt (calm.later entry present)
  have moment : (sim.onController fun c => { c with now := max c.now entry.due }) =
      sim.onController fun c => { c with now := entry.due } := by
    simp only [onController, place.controller, Nat.max_eq_right ahead]
  obtain ⟨waited, there⟩ := waits reached place calm idle entry.due ahead least
  obtain ⟨taken, after, further, there, still, ended, some⟩ :=
    settle_reaches blank onTime (fuel + 1) waited there
  have counted := bounded _ _ further
  refine ⟨taken, after, ?_, further, moment ▸ there, ?_, still⟩
  · -- The retry that is due now can be taken, so that the fuel that is used is made good for.
    obtain ⟨comes, possible⟩ := Controller.retry_goes_on access run.world
      (reaches_on_time blank onTime waited).tidy present (Nat.le_refl _)
    rcases some with idle | none | more
    · exact absurd (idle _ comes) possible
    · cases none
    · exact more
  · rcases ended with idle | all
    · exact idle
    · omega

theorem passTo_reaches (fuel time : Nat) (reached : Reaches access start count run)
    (place : sim.At run) (idle : run.Idle access) (early : run.controller.now ≤ time)
    (enough : bound < count + fuel) :
    ∃ later after, Reaches access start later after ∧ (sim.passTo access fuel time).At after ∧
      after.controller.Calm ∧ after.controller.now = time := by
  induction fuel generalizing sim run count with
  | zero => exact absurd (bounded count run reached) (Nat.not_le_of_lt enough)
  | succ fuel ih =>
    have calm := Controller.calm_of_idle (reaches_on_time blank onTime reached).tidy idle
    have dues : run.controller.dues = run.controller.retries.map Controller.dueOfRetry := by
      rw [Controller.dues, calm.running]
      rfl
    rw [passTo, place.controller]
    cases first : run.controller.firstDue? with
    | none =>
      have nothing := Controller.first_due_none first
      rw [dues, List.map_eq_nil_iff] at nothing
      refine waits_calmly reached place calm idle time early fun entry member => ?_
      rw [nothing] at member
      cases member
    | some due =>
      obtain ⟨member, earliest⟩ := Controller.first_due_least first
      rw [dues] at member earliest
      obtain ⟨entry, present, rfl⟩ := List.mem_map.mp member
      have least (other : ScheduledRetry) (member : other ∈ run.controller.retries) :
          entry.due ≤ other.due := earliest _ (List.mem_map_of_mem member)
      dsimp only
      split
      · rename_i within
        obtain ⟨taken, after, more, further, there, idle', now⟩ :=
          first_retry_settled blank onTime bounded reached place idle fuel enough present least
        exact ih further there idle' (now ▸ within) (by omega)
      · rename_i beyond
        refine waits_calmly reached place calm idle time early fun other member => ?_
        exact Nat.lt_of_lt_of_le (Nat.lt_of_not_le beyond) (least other member)

end Bounded

end Simulation

def beganAt (key : ObjectName) (trace : List Activity) : List Nat :=
  (podReads key trace).map (· * 1000000)

namespace TimedRun

variable {σ : Type}

/-- Whatever order actions are taken in, the passes of each key come to the verdicts of its script,
and through when it is used up. -/
def Follows (access : StoreAccess σ) (start : TimedRun σ) (script : ObjectName → List Verdict) :
    Prop :=
  ∀ count run, Reaches access start count run →
    ∀ key, verdictsOf key run.log <+: script key ++ [.done]

variable {settings : ControllerSettings} {events : List PodEvent} {access : StoreAccess σ}
  (health : HealthRegistry) (world : σ)

theorem start_moves_left (accepted : settings.Accepted) :
    Place.allMovesLeft (start settings health events world).controller.hands.board =
      7 * events.length := by
  rw [start_board settings health events world accepted]
  induction events with
  | nil => rfl
  | cons event rest ih =>
    rw [List.map_cons, Place.allMovesLeft, ih, List.length_cons, Nat.mul_succ, Nat.add_comm]
    rfl

variable {health world}

section Started

variable (accepted : settings.Accepted)
  (distinct : (events.map fun event => event.pod.key).Nodup)
  (admitted : ∀ event ∈ events, settings.filter.admits event = true) {count : Nat}
  {run : TimedRun σ}

include accepted distinct admitted

theorem start_reaches (reached : Reaches access (start settings health events world) count run) :
    run.OnTime (start settings health events world).controller
        (events.map fun event => event.pod.key) ∧
      count ≤ 7 * (events.length + run.log.length) := by
  have onTime := start_on_time health world accepted distinct admitted
  have blank : (start settings health events world).controller.failures = ∅ := by
    rw [start_controller _ _ _ _ accepted]
    rfl
  have bounded := reaches_bounded blank onTime rfl reached
  rw [start_moves_left health world accepted] at bounded
  exact ⟨reaches_on_time blank onTime reached, by omega⟩

theorem follows_bounded {script : ObjectName → List Verdict}
    (follows : Follows access (start settings health events world) script) :
    ∃ bound, ∀ count run, Reaches access (start settings health events world) count run →
      count ≤ bound := by
  obtain ⟨bound, logged⟩ := log_bounded (fun key => (script key).length + 1)
    (events.map fun event => event.pod.key)
  refine ⟨7 * (events.length + bound), fun count run reached => ?_⟩
  obtain ⟨onTime, bounded⟩ := start_reaches accepted distinct admitted reached
  have outcomes := logged run.log (logged_wanted onTime) fun key => by
    simpa using (follows count run reached key).length_le
  omega

theorem scripted_follows (script : ObjectName → List Verdict) :
    Follows Verdict.scripted (start settings health events script) script := by
  intro count run reached
  have onTime := start_on_time health script accepted distinct admitted
  have initial := start_controller settings health events script accepted
  have blank : (start settings health events script).controller.failures = ∅ := by
    rw [initial]
    rfl
  have fresh : Scripted script (start settings health events script).controller.running
      (start settings health events script).world (start settings health events script).log := by
    rw [initial]
    constructor
    · intro key
      exact List.nil_prefix
    · intro key _ _
      rfl
    · intro pass member
      cases member
  exact (reaches_scripted blank onTime fresh reached).told

end Started

end TimedRun

namespace Simulation

variable {σ : Type}

def ofEvents (access : StoreAccess σ) (settings : ControllerSettings) (events : List PodEvent)
    (world : σ) (fuel time : Nat) : Simulation σ :=
  (((start settings 0 world).onController fun c => events.foldl Controller.send c).settle access
    fuel).passTo access fuel time

end Simulation

section Schedules

variable {settings : ControllerSettings} {events : List PodEvent} {σ : Type}
  {access : StoreAccess σ} (accepted : settings.Accepted) (whole : settings.backoff.Whole)
  (distinct : (events.map fun event => event.pod.key).Nodup)
  (admitted : ∀ event ∈ events, settings.filter.admits event = true)

include accepted whole distinct admitted

theorem runs_on_schedule {health : HealthRegistry} {world : σ} {count : Nat} {run : TimedRun σ}
    (reached : TimedRun.Reaches access (.start settings health events world) count run)
    (key : ObjectName) (wanted : key ∈ events.map fun event => event.pod.key) :
    beganAt key run.trace <+: settings.backoff.schedule (verdictsOf key run.log) ∧
      (run.Idle access →
        beganAt key run.trace =
            (settings.backoff.schedule (verdictsOf key run.log)).filter
              (fun time => time ≤ run.controller.now * 1000000) ∧
          (run.controller.retries = [] →
            .done ∈ verdictsOf key run.log ∧
              beganAt key run.trace = settings.backoff.schedule (verdictsOf key run.log))) := by
  obtain ⟨onTime, _⟩ := TimedRun.start_reaches accepted distinct admitted reached
  have told : verdictsOf key run.log <+: verdictsOf key run.log ++ [.done] := List.prefix_append _ _
  have same : (TimedRun.start settings health events world).controller.settings = settings := by
    rw [TimedRun.start_controller _ _ _ _ accepted]
    rfl
  refine ⟨?_, fun idle => ?_⟩
  · have reads := TimedRun.reads_prefix onTime wanted told
    rw [same] at reads
    rw [Backoff.schedule_ticks whole]
    exact reads.map _
  · have calm := Controller.calm_of_idle onTime.tidy idle
    constructor
    · have reads := TimedRun.calm_reads onTime calm wanted told
      rw [same] at reads
      rw [beganAt, reads, Backoff.schedule_until whole]
    · intro finished
      obtain ⟨done, reads⟩ := TimedRun.over_reads onTime calm finished wanted told
      rw [same] at reads
      rw [beganAt, reads, Backoff.schedule_ticks whole]
      exact ⟨done, rfl⟩

theorem simulation_on_schedule {world : σ} {script : ObjectName → List Verdict}
    (follows : TimedRun.Follows access (.start settings .empty events world) script) :
    ∃ enough, ∀ fuel, enough ≤ fuel → ∀ time key,
      beganAt key (Simulation.ofEvents access settings events world fuel time).trace =
        if key ∈ events.map fun event => event.pod.key then
          (settings.backoff.schedule (script key)).filter fun began => began ≤ time * 1000000
        else [] := by
  obtain ⟨bound, bounded⟩ := TimedRun.follows_bounded accepted distinct admitted follows
  refine ⟨bound + 1, fun fuel enough time key => ?_⟩
  have started := TimedRun.start_on_time .empty world accepted distinct admitted
  have initial := TimedRun.start_controller settings .empty events world accepted
  have blank : (TimedRun.start settings .empty events world).controller.failures = ∅ := by
    rw [initial]
    rfl
  have place : Simulation.At
      ((Simulation.start settings 0 world).onController fun c => events.foldl Controller.send c)
      (TimedRun.start settings .empty events world) := ⟨rfl, rfl, rfl, rfl⟩
  obtain ⟨taken, settled, reached, place, still, ended, _⟩ :=
    Simulation.settle_reaches blank started fuel .start place
  have idle : settled.Idle access := by
    have counted := bounded _ _ reached
    rcases ended with idle | all
    · exact idle
    · omega
  have early : settled.controller.now ≤ time := by
    rw [still, initial]
    exact Nat.zero_le time
  obtain ⟨count, last, reached, place, calm, now⟩ :=
    Simulation.passTo_reaches blank started bounded fuel time reached place idle early (by omega)
  obtain ⟨onTime, _⟩ := TimedRun.start_reaches accepted distinct admitted reached
  rw [Simulation.ofEvents, beganAt, place.trace]
  split
  · rename_i wanted
    have reads := TimedRun.calm_reads onTime calm wanted (follows _ _ reached key)
    rw [initial, now] at reads
    rw [reads]
    exact Backoff.schedule_until whole (script key) time
  · rename_i unknown
    rw [(onTime.strangers key unknown).2]
    rfl

end Schedules

end StartupLatency
