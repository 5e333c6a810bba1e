import StartupLatency.Proofs.KeyPlaces

/-!
Runs of the controller in virtual time, with stores that answer at once. Actions whose time has come
are taken in any order; time passes when there is none. What becomes of a key then depends on the
verdicts of its own passes alone: wherever it is, its passes have begun when its schedule says.
-/

namespace StartupLatency

structure TimedRun (σ : Type) where
  controller : Controller
  world : σ
  trace : List Activity
  log : List (ObjectName × PassOutcome)

namespace TimedRun

variable {σ : Type}

-- The events are there from the beginning, and no others come.
def start (settings : ControllerSettings) (health : HealthRegistry) (events : List PodEvent)
    (world : σ) : TimedRun σ :=
  ⟨events.foldl Controller.send (.initial settings health), world, [], []⟩

def Idle (access : StoreAccess σ) (run : TimedRun σ) : Prop :=
  ∀ action, run.controller.Comes action →
    run.controller.perform access 0 action run.world = none

/-- Runs, with the number of their actions. Time passes when no action can be taken, at most to the
moment at which one can. -/
inductive Reaches (access : StoreAccess σ) (first : TimedRun σ) : Nat → TimedRun σ → Prop where
  | start : Reaches access first 0 first
  | act {count : Nat} {run : TimedRun σ} (reached : Reaches access first count run)
      (action : ControllerAction) (comes : run.controller.Comes action) {controller : Controller}
      {world : σ}
      (performed : run.controller.perform access 0 action run.world = some (controller, world)) :
      Reaches access first (count + 1)
        ⟨controller, world, run.trace ++ run.controller.activity action,
          run.log ++ DispatchEvent.outcomes (run.controller.dispatched action controller)⟩
  | wait {count : Nat} {run : TimedRun σ} (reached : Reaches access first count run)
      (idle : run.Idle access) (time : Nat) (later : run.controller.now ≤ time)
      (passes : ∀ pass ∈ run.controller.running, time ≤ pass.wakes)
      (retries : ∀ entry ∈ run.controller.retries, time ≤ entry.due) :
      Reaches access first count { run with controller := { run.controller with now := time } }

end TimedRun

namespace Controller

structure Calm (c : Controller) : Prop where
  inbox : c.inbox = []
  waiting : c.queue.waiting = []
  held : c.held = none
  running : c.running = []
  later : ∀ entry ∈ c.retries, c.now < entry.due

theorem found_by_number {α : Type} {number : α → Nat} {all : List α} {entry : α}
    (distinct : (all.map number).Nodup) (member : entry ∈ all) :
    all.find? (fun other => number other = number entry) = some entry := by
  cases found : all.find? (fun other => number other = number entry) with
  | none => simpa using List.find?_eq_none.mp found entry member
  | some other =>
    have same : number other = number entry := by simpa using List.find?_some found
    have present := List.mem_of_find?_eq_some found
    exact congrArg some (List.inj_on_of_nodup_map distinct present member same)

variable {σ : Type} {access : StoreAccess σ} {c : Controller} {world : σ}

theorem receive_none (goesOn : c.dispatching = true) (free : c.held = none)
    (none : c.receive? = none) : c.queue.channel = [] := by
  cases channel : c.queue.channel with
  | nil => rfl
  | cons key rest =>
    exfalso
    simp only [receive?, goesOn, free, WorkQueue.next?, channel] at none
    cases suspended : c.queue.suspended with
    | nil => simp [suspended] at none
    | cons first others =>
      obtain ⟨sender, waiter⟩ := first
      cases sender <;> simp [suspended] at none

theorem take_event_none (receives : c.admission = .receiving) (none : c.takeEvent? = none) :
    c.inbox = [] := by
  cases inbox : c.inbox with
  | nil => rfl
  | cons event rest =>
    exfalso
    simp only [takeEvent?, receives, inbox] at none
    split at none
    · split at none <;> cases none
    · cases none

/-- A pass in progress can go on. -/
theorem pass_goes_on (access : StoreAccess σ) (world : σ) (tidy : c.Tidy) {run : RunningPass}
    (member : run ∈ c.running) :
    c.Comes (dueOfRun run).action ∧ c.perform access 0 (dueOfRun run).action world ≠ none := by
  have found : c.find? run.order = some run := found_by_number tidy.passes.distinct member
  have awake (other : RunningPass) (same : c.find? run.order = some other) :
      other.wakes ≤ c.now := tidy.awake other (List.mem_of_find?_eq_some same)
  rcases run.pass.unfinished_or_ended with unfinished | ⟨outcome, ended⟩
  · have action : (dueOfRun run).action = .advance run.order := by
      obtain ⟨order, key, pass, started, wakes⟩ := run
      cases pass with
      | ended outcome => cases unfinished
      | _ => rfl
    rw [action, perform_advance access 0 c world run run.order found unfinished]
    exact ⟨awake, Option.some_ne_none _⟩
  · have action : (dueOfRun run).action = .settle run.order := by
      rw [dueOfRun, ended]
    rw [action, perform, settle_ended c run outcome found ended]
    exact ⟨awake, Option.some_ne_none _⟩

/-- A retry whose time has come can be taken. -/
theorem retry_goes_on (access : StoreAccess σ) (world : σ) (tidy : c.Tidy) {entry : ScheduledRetry}
    (member : entry ∈ c.retries) (come : entry.due ≤ c.now) :
    c.Comes (dueOfRetry entry).action ∧
      c.perform access 0 (dueOfRetry entry).action world ≠ none := by
  have found := found_by_number tidy.entries.distinct member
  constructor
  · intro other same
    cases found.symm.trans same
    exact come
  · simp [dueOfRetry, perform, retry?, found]

theorem calm_of_idle (tidy : c.Tidy)
    (idle : ∀ action, c.Comes action → c.perform access 0 action world = none) : c.Calm := by
  have running : c.running = [] := by
    refine List.eq_nil_iff_forall_not_mem.mpr fun run member => ?_
    obtain ⟨comes, possible⟩ := pass_goes_on access world tidy member
    exact possible (idle _ comes)
  have held : c.held = none := by
    refine Option.eq_none_iff_forall_ne_some.mpr fun key held => ?_
    have none : c.start? 0 = none := Option.map_eq_none_iff.mp (idle .start trivial)
    have room : c.running.length < c.limit := by
      rw [running]
      exact Nat.le_max_left 1 _
    have some := (start_iff_room c key held tidy.dispatching 0).mpr room
    rw [none] at some
    cases some
  have channel : c.queue.channel = [] := by
    have none : c.receive? = none := Option.map_eq_none_iff.mp (idle .receive trivial)
    exact receive_none tidy.dispatching held none
  have suspended : c.queue.suspended = [] := by
    refine Classical.byContradiction fun some => ?_
    have full := tidy.line.full some
    rw [channel] at full
    exact absurd tidy.room (Nat.not_lt_of_le (Nat.le_of_eq full.symm))
  constructor
  · have receiving : c.admission = .receiving := by
      rcases tidy.admitting with receives | ⟨_, waiter, member, _⟩
      · exact receives
      · rw [suspended] at member
        cases member
    have none : c.takeEvent? = none := Option.map_eq_none_iff.mp (idle .takeEvent trivial)
    exact take_event_none receiving none
  · rw [WorkQueue.waiting, channel, suspended]
    rfl
  · exact held
  · exact running
  · intro entry member
    refine Nat.lt_of_not_le fun come => ?_
    obtain ⟨comes, possible⟩ := retry_goes_on access world tidy member come
    exact possible (idle _ comes)

end Controller

namespace Place

/-- What is known of a key that is there: which time its next pass has, and which passes have
begun. -/
def Stands (delay : Nat → Nat) (now : Nat) (verdicts : List Verdict) (reads : List Nat) :
    Place → Prop
  | .running _ =>
    (Turn.first.next delay verdicts).time = now ∧
      reads = Turn.first.past delay verdicts ++ [now]
  | .resting due =>
    (Turn.first.next delay verdicts).time = due ∧ now ≤ due ∧
      reads = Turn.first.past delay verdicts
  | _ => (Turn.first.next delay verdicts).time = now ∧ reads = Turn.first.past delay verdicts

variable {delay : Nat → Nat} {now wait : Nat} {left place : Place} {begun : List Nat}
  {ended : List PassOutcome} {verdicts : List Verdict} {reads : List Nat}

theorem past_verdict (delay : Nat → Nat) (verdicts : List Verdict) (verdict : Verdict) :
    Turn.first.past delay (verdicts ++ [verdict]) =
      Turn.first.past delay verdicts ++ [(Turn.first.next delay verdicts).time] := by
  rw [Turn.past_append]
  rfl

/-- Wherever a key goes, its next pass has its time, and those that have begun had theirs. -/
theorem moves_stand (moves : Moves now wait left (some place) begun ended)
    (waits : wait = delay ((Turn.first.next delay verdicts).failures + 1))
    (undone : .done ∉ verdicts) (stands : left.Stands delay now verdicts reads) :
    .done ∉ verdicts ++ ended.map PassOutcome.verdict ∧
      place.Stands delay now (verdicts ++ ended.map PassOutcome.verdict) (reads ++ begun) := by
  cases moves with
  | admitted => simpa [Stands] using ⟨undone, stands⟩
  | received => simpa [Stands] using ⟨undone, stands⟩
  | begun =>
    obtain ⟨time, rfl⟩ := stands
    simpa [Stands] using ⟨undone, time⟩
  | advanced => simpa [Stands] using ⟨undone, stands⟩
  | requeued =>
    obtain ⟨time, rfl⟩ := stands
    refine ⟨by simpa [PassOutcome.verdict] using undone, ?_, Nat.le_refl _, ?_⟩
    · rw [Turn.next_append]
      exact time
    · rw [List.append_nil, ← time]
      exact (past_verdict delay verdicts .requeue).symm
  | failed error =>
    obtain ⟨time, rfl⟩ := stands
    refine ⟨by simpa [PassOutcome.verdict] using undone, ?_, Nat.le_add_right _ _, ?_⟩
    · rw [Turn.next_append, waits, ← time]
      rfl
    · rw [List.append_nil, ← time]
      exact (past_verdict delay verdicts .error).symm
  | woken due come =>
    obtain ⟨time, early, same⟩ := stands
    cases Nat.le_antisymm come early
    simpa [Stands] using ⟨undone, time, same⟩

/-- A key that leaves is through. -/
theorem moves_through (moves : Moves now wait left none begun ended)
    (stands : left.Stands delay now verdicts reads) :
    ended.map PassOutcome.verdict = [.done] ∧
      reads ++ begun = Turn.first.past delay (verdicts ++ [.done]) := by
  cases moves with
  | done work =>
    obtain ⟨time, rfl⟩ := stands
    refine ⟨rfl, ?_⟩
    rw [List.append_nil, past_verdict, time]

-- Moves that a key at a place makes until its pass has an outcome, at most.
def movesLeft : Place → Nat
  | .announced => 7
  | .waiting => 6
  | .held => 5
  | .running calls => calls + 1
  | .resting _ => 7

def allMovesLeft : List (ObjectName × Place) → Nat
  | [] => 0
  | entry :: rest => entry.2.movesLeft + allMovesLeft rest

theorem all_moves_perm {board other : List (ObjectName × Place)} (same : board.Perm other) :
    allMovesLeft board = allMovesLeft other := by
  induction same with
  | nil => rfl
  | cons entry _ ih => rw [allMovesLeft, allMovesLeft, ih]
  | swap first second rest =>
    simp only [allMovesLeft]
    omega
  | trans _ _ first second => exact first.trans second

theorem moves_left {entered : Option Place} (moves : Moves now wait left entered begun ended)
    (key : ObjectName) (rest : List (ObjectName × Place)) :
    allMovesLeft (entered.toList.map (fun place => (key, place)) ++ rest) + 1 ≤
      allMovesLeft ((key, left) :: rest) + 7 * ended.length := by
  cases moves <;>
    simp only [Option.toList_some, Option.toList_none, List.map_cons, List.map_nil, List.cons_append,
      List.nil_append, List.length_cons, List.length_nil, allMovesLeft, movesLeft] <;>
    omega

theorem moves_begin_now {entered : Option Place} (moves : Moves now wait left entered begun ended) :
    ∀ time ∈ begun, time = now := by
  intro time member
  cases moves with
  | begun => exact List.mem_singleton.mp member
  | _ => cases member

end Place

namespace TimedRun

variable {σ : Type} {access : StoreAccess σ}

/-- All keys are where they have to be, and their passes have begun when they had to. -/
structure OnTime (first : Controller) (keys : List ObjectName) (run : TimedRun σ) : Prop where
  tidy : run.controller.Tidy
  handles : first.Handles run.log run.controller
  atHand : ∀ key place, (key, place) ∈ run.controller.hands.board →
    key ∈ keys ∧ .done ∉ verdictsOf key run.log ∧
      place.Stands first.settings.backoff.waits
        run.controller.now (verdictsOf key run.log) (podReads key run.trace)
  through : ∀ key ∈ keys, (∀ place, (key, place) ∉ run.controller.hands.board) →
    ∃ before, verdictsOf key run.log = before ++ [.done] ∧ .done ∉ before ∧
      podReads key run.trace =
        Turn.first.past first.settings.backoff.waits
          (verdictsOf key run.log)
  strangers : ∀ key ∉ keys, verdictsOf key run.log = [] ∧ podReads key run.trace = []
  elapsed : ∀ key, ∀ time ∈ podReads key run.trace, time ≤ run.controller.now

variable {first : Controller} {keys : List ObjectName} {run : TimedRun σ}

theorem delay_counted (blank : first.failures = ∅) (onTime : run.OnTime first keys)
    (key : ObjectName) :
    run.controller.delayAfter key =
      first.settings.backoff.waits
        ((Turn.first.next first.settings.backoff.waits (verdictsOf key run.log)).failures + 1) := by
  have follows := Controller.handles_follows first run.controller run.log blank onTime.handles
  have backoff : run.controller.settings.backoff = first.settings.backoff := follows.backoff
  rw [Controller.delayAfter, backoff, Controller.failures_after follows.counts, next_failures]
  rfl

theorem act_on_time (blank : first.failures = ∅) (onTime : run.OnTime first keys)
    {action : ControllerAction} (comes : run.controller.Comes action) {controller : Controller}
    {world : σ}
    (performed : run.controller.perform access 0 action run.world = some (controller, world)) :
    OnTime first keys
      ⟨controller, world, run.trace ++ run.controller.activity action,
        run.log ++ DispatchEvent.outcomes (run.controller.dispatched action controller)⟩ := by
  obtain ⟨key, left, entered, begun, ended, rest, shift⟩ :=
    Controller.perform_shift onTime.tidy comes performed
  obtain ⟨tidy, now, _⟩ := Controller.perform_tidy onTime.tidy comes performed
  have handles := Controller.handles_trans onTime.handles
    (Controller.perform_handles access 0 action _ _ _ _ performed)
  have delay := delay_counted blank onTime key
  obtain ⟨present, undone, stands⟩ :=
    onTime.atHand key left (shift.before.mem_iff.mpr List.mem_cons_self)
  have alone : key ∉ rest.map Prod.fst :=
    (List.nodup_cons.mp ((shift.before.map Prod.fst).nodup_iff.mp onTime.tidy.distinct)).1
  obtain ⟨told, began⟩ := Controller.shift_told shift run.trace run.log
  have others (other : ObjectName) (different : key ≠ other) :=
    Controller.shift_untold shift run.trace run.log different
  constructor
  · exact tidy
  · exact handles
  · intro other place member
    dsimp only at member ⊢
    rw [now]
    rcases List.mem_append.mp (shift.after.mem_iff.mp member) with moved | stayed
    · obtain ⟨_, there, same⟩ := List.mem_map.mp moved
      cases same
      cases Option.mem_toList.mp there
      rw [told, began]
      exact ⟨present, Place.moves_stand shift.moves delay undone stands⟩
    · have different : key ≠ other := by
        rintro rfl
        exact alone (List.mem_map_of_mem stayed)
      rw [(others other different).1, (others other different).2]
      exact onTime.atHand other place (shift.before.mem_iff.mpr (List.mem_cons_of_mem _ stayed))
  · intro other wanted gone
    dsimp only at gone ⊢
    by_cases same : key = other
    · subst same
      cases entered with
      | none =>
        obtain ⟨last, past⟩ := Place.moves_through shift.moves stands
        rw [told, began, last, past]
        exact ⟨_, rfl, undone, rfl⟩
      | some place => exact absurd (shift.after.mem_iff.mpr List.mem_cons_self) (gone place)
    · rw [(others other same).1, (others other same).2]
      refine onTime.through other wanted fun place member => gone place ?_
      rcases List.mem_cons.mp (shift.before.mem_iff.mp member) with moved | stayed
      · exact absurd (congrArg Prod.fst moved).symm same
      · exact shift.after.mem_iff.mpr (List.mem_append_right _ stayed)
  · intro other unknown
    have different : key ≠ other := by
      rintro rfl
      exact unknown present
    dsimp only
    rw [(others other different).1, (others other different).2]
    exact onTime.strangers other unknown
  · intro other time member
    dsimp only at member ⊢
    rw [now]
    by_cases same : key = other
    · subst same
      rw [began] at member
      rcases List.mem_append.mp member with earlier | begins
      · exact onTime.elapsed key time earlier
      · exact Nat.le_of_eq (Place.moves_begin_now shift.moves time begins)
    · rw [(others other same).2] at member
      exact onTime.elapsed other time member

/-- Whatever is at hand when nothing can be done rests, so that no pass is late for it. -/
theorem wait_on_time (onTime : run.OnTime first keys) (idle : run.Idle access) (time : Nat)
    (later : run.controller.now ≤ time)
    (retries : ∀ entry ∈ run.controller.retries, time ≤ entry.due) :
    OnTime first keys { run with controller := { run.controller with now := time } } := by
  obtain ⟨inbox, waiting, held, running, _⟩ := Controller.calm_of_idle onTime.tidy idle
  obtain ⟨tidy, handles, atHand, through, strangers, elapsed⟩ := onTime
  constructor
  · obtain ⟨dispatching, receiving, line, room, admits, admitting, passes, entries, distinct, _, _⟩ :=
      tidy
    refine ⟨dispatching, receiving, line, room, admits, admitting, passes, entries, distinct, ?_,
      retries⟩
    intro pass member
    simp only [running, List.not_mem_nil] at member
  · exact handles.meanwhile rfl
  · intro key place member
    obtain ⟨wanted, undone, stands⟩ := atHand key place member
    refine ⟨wanted, undone, ?_⟩
    simp only [Hands.board, Controller.hands, inbox, waiting, held, running, List.map_nil,
      Option.toList_none, List.nil_append, List.mem_map, Prod.mk.injEq] at member
    obtain ⟨entry, present, rfl, rfl⟩ := member
    exact ⟨stands.1, retries entry present, stands.2.2⟩
  · exact through
  · exact strangers
  · intro key read member
    exact Nat.le_trans (elapsed key read member) later

section Start

variable (settings : ControllerSettings) (health : HealthRegistry) (events : List PodEvent)
  (world : σ)

theorem sent_events (c : Controller) (opened : c.inboxOpen = true)
    (admission : c.admission = .receiving) :
    events.foldl Controller.send c = { c with inbox := c.inbox ++ events } := by
  induction events generalizing c with
  | nil => simp
  | cons event rest ih =>
    have sent : c.send event = { c with inbox := c.inbox ++ [event] } := by
      simp [Controller.send, opened, admission]
    rw [List.foldl_cons, sent]
    refine (ih { c with inbox := c.inbox ++ [event] } opened admission).trans ?_
    rw [List.append_assoc]
    rfl

variable (accepted : settings.Accepted)
include accepted

theorem start_controller : (start settings health events world).controller =
    { Controller.initial settings health with inbox := events } :=
  sent_events events (.initial settings health) rfl (if_pos accepted)

theorem start_board : (start settings health events world).controller.hands.board =
    events.map fun event => (event.pod.key, .announced) := by
  rw [start_controller settings health events world accepted]
  simp [Hands.board, Controller.hands, Controller.initial, WorkQueue.waiting, WorkQueue.empty]

variable {settings events}

theorem start_on_time (distinct : (events.map fun event => event.pod.key).Nodup)
    (admitted : ∀ event ∈ events, settings.filter.admits event = true) :
    (start settings health events world).OnTime (start settings health events world).controller
      (events.map fun event => event.pod.key) := by
  have board := start_board settings health events world accepted
  have begins := start_controller settings health events world accepted
  constructor
  · have keys : (start settings health events world).controller.hands.board.map Prod.fst =
        events.map fun event => event.pod.key := by
      rw [board, List.map_map]
      rfl
    rw [← keys] at distinct
    rw [begins] at distinct ⊢
    refine ⟨decide_eq_true accepted, rfl, WorkQueue.in_line_empty _, Nat.le_max_left 1 _, admitted,
      Or.inl (if_pos accepted),
      numbered_none _, numbered_none _, distinct, ?_, ?_⟩
    · intro pass member
      cases member
    · intro entry member
      cases member
  · exact .start
  · intro key place member
    rw [board] at member
    obtain ⟨event, present, same⟩ := List.mem_map.mp member
    cases same
    refine ⟨List.mem_map.mpr ⟨event, present, rfl⟩, List.not_mem_nil, ?_, rfl⟩
    rw [begins]
    rfl
  · intro key wanted gone
    obtain ⟨event, present, rfl⟩ := List.mem_map.mp wanted
    refine absurd ?_ (gone .announced)
    rw [board]
    exact List.mem_map.mpr ⟨event, present, rfl⟩
  · intro key _
    exact ⟨rfl, rfl⟩
  · intro key time member
    cases member

end Start

theorem reaches_on_time {start : TimedRun σ} {count : Nat} (blank : first.failures = ∅)
    (onTime : start.OnTime first keys) (reached : Reaches access start count run) :
    run.OnTime first keys := by
  induction reached with
  | start => exact onTime
  | act _ action comes performed ih => exact act_on_time blank ih comes performed
  | wait _ idle time later _ retries ih => exact wait_on_time ih idle time later retries

/-- Every action is one of the moves that were left, or of those that an outcome gave rise to. -/
theorem reaches_bounded {start : TimedRun σ} {count : Nat} (blank : first.failures = ∅)
    (onTime : start.OnTime first keys) (unlogged : start.log = [])
    (reached : Reaches access start count run) :
    count + Place.allMovesLeft run.controller.hands.board ≤
      Place.allMovesLeft start.controller.hands.board + 7 * run.log.length := by
  induction reached with
  | start =>
    rw [unlogged, Nat.zero_add]
    exact Nat.le_refl _
  | act reached action comes performed ih =>
    have tidy := (reaches_on_time blank onTime reached).tidy
    obtain ⟨key, left, entered, begun, ended, rest, shift⟩ :=
      Controller.perform_shift tidy comes performed
    have fewer := Place.moves_left shift.moves key rest
    rw [← Place.all_moves_perm shift.before, ← Place.all_moves_perm shift.after] at fewer
    rw [List.length_append, shift.ends, List.length_map]
    dsimp only
    omega
  | wait _ _ _ _ _ _ ih => exact ih

theorem logged_wanted (onTime : run.OnTime first keys) :
    ∀ entry ∈ run.log, entry.1 ∈ keys := by
  rintro ⟨key, outcome⟩ member
  by_contra unknown
  have none := (onTime.strangers key unknown).1
  rw [verdictsOf, List.map_eq_nil_iff, outcomesOf, List.filterMap_eq_nil_iff] at none
  simpa using none _ member

section Reads

variable {key : ObjectName} {script : List Verdict}

/-- The passes that have begun are the first ones of any script that the outcomes follow. -/
theorem reads_prefix (onTime : run.OnTime first keys) (wanted : key ∈ keys)
    (told : verdictsOf key run.log <+: script ++ [.done]) :
    podReads key run.trace <+: Turn.first.starts first.settings.backoff.waits script := by
  by_cases gone : ∀ place, (key, place) ∉ run.controller.hands.board
  · obtain ⟨before, last, undone, began⟩ := onTime.through key wanted gone
    rw [last] at told began
    exact ⟨[], by rw [List.append_nil, began, Turn.starts_ended _ _ told undone]⟩
  · obtain ⟨place, member⟩ := not_forall_not.mp gone
    obtain ⟨_, undone, stands⟩ := onTime.atHand key place member
    obtain ⟨later, parts, _⟩ := Turn.starts_waiting first.settings.backoff.waits .first told undone
    rw [parts]
    cases place with
    | running calls =>
      obtain ⟨time, began⟩ := stands
      rw [began, time]
      exact ⟨later, by simp⟩
    | resting due => exact ⟨_, by rw [stands.2.2]⟩
    | _ => exact ⟨_, by rw [stands.2]⟩

/-- When nothing can be done, they are those whose time has come. -/
theorem calm_reads (onTime : run.OnTime first keys) (calm : run.controller.Calm)
    (wanted : key ∈ keys) (told : verdictsOf key run.log <+: script ++ [.done]) :
    podReads key run.trace =
      (Turn.first.starts first.settings.backoff.waits script).filter fun time =>
        decide (time ≤ run.controller.now) := by
  have elapsed : (podReads key run.trace).filter (fun time => decide (time ≤ run.controller.now)) =
      podReads key run.trace :=
    List.filter_eq_self.mpr fun time member => decide_eq_true (onTime.elapsed key time member)
  by_cases gone : ∀ place, (key, place) ∉ run.controller.hands.board
  · obtain ⟨before, last, undone, began⟩ := onTime.through key wanted gone
    rw [last] at told began
    rw [Turn.starts_ended _ _ told undone, ← began, elapsed]
  · obtain ⟨place, member⟩ := not_forall_not.mp gone
    obtain ⟨_, undone, stands⟩ := onTime.atHand key place member
    obtain ⟨later, parts, grows⟩ := Turn.starts_waiting first.settings.backoff.waits .first told undone
    simp only [Hands.board, Controller.hands, calm.inbox, calm.waiting, calm.held, calm.running,
      List.map_nil, Option.toList_none, List.nil_append, List.mem_map, Prod.mk.injEq] at member
    obtain ⟨entry, present, rfl, rfl⟩ := member
    obtain ⟨time, _, began⟩ := stands
    have rests := calm.later entry present
    rw [time] at parts grows
    have ahead : ∀ time ∈ entry.due :: later, ¬ decide (time ≤ run.controller.now) = true := by
      intro other coming
      rw [decide_eq_true_eq, Nat.not_le]
      rcases List.mem_cons.mp coming with rfl | after
      · exact rests
      · exact Nat.lt_of_lt_of_le rests (grows other after)
    rw [parts, List.filter_append, List.filter_eq_nil_iff.mpr ahead, List.append_nil, ← began,
      elapsed]

/-- When no retry is to come either, they are all. -/
theorem over_reads (onTime : run.OnTime first keys) (calm : run.controller.Calm)
    (finished : run.controller.retries = []) (wanted : key ∈ keys)
    (told : verdictsOf key run.log <+: script ++ [.done]) :
    .done ∈ verdictsOf key run.log ∧
      podReads key run.trace = Turn.first.starts first.settings.backoff.waits script := by
  have gone (place : Place) : (key, place) ∉ run.controller.hands.board := by
    simp [Hands.board, Controller.hands, calm.inbox, calm.waiting, calm.held, calm.running,
      finished]
  obtain ⟨before, last, undone, began⟩ := onTime.through key wanted gone
  rw [last] at told began ⊢
  rw [began, Turn.starts_ended _ _ told undone]
  exact ⟨List.mem_append_right _ List.mem_cons_self, rfl⟩

end Reads

end TimedRun

end StartupLatency
