import StartupLatency.Proofs.OrderlyRuns

/-!
Runs of the controller through its shutdown, over any world. A store call may go through any access,
so passes take any course; others change the world, and the shutdown comes at any moment. The log
says which keys were taken from the queue, which passes were begun and which have come to their
end. Of all that the controller has at hand, `Desk` is what dispatching looks at.
-/

namespace StartupLatency

inductive DispatchEvent where
  | taken (key : ObjectName)
  | begun (order : Nat) (key : ObjectName)
  | settled (order : Nat) (key : ObjectName) (outcome : PassOutcome)
deriving DecidableEq

namespace DispatchEvent

def takenKeys (log : List DispatchEvent) : List ObjectName :=
  log.filterMap fun
    | .taken key => some key
    | _ => none

def passes (log : List DispatchEvent) : List (Nat × ObjectName) :=
  log.filterMap fun
    | .begun order key => some (order, key)
    | _ => none

def ends (log : List DispatchEvent) : List Nat :=
  log.filterMap fun
    | .settled order _ _ => some order
    | _ => none

@[simp] theorem taken_keys_append (log more : List DispatchEvent) :
    takenKeys (log ++ more) = takenKeys log ++ takenKeys more := List.filterMap_append

@[simp] theorem passes_append (log more : List DispatchEvent) :
    passes (log ++ more) = passes log ++ passes more := List.filterMap_append

@[simp] theorem ends_append (log more : List DispatchEvent) :
    ends (log ++ more) = ends log ++ ends more := List.filterMap_append

end DispatchEvent

open DispatchEvent

structure Desk where
  limit : Nat
  dispatching : Bool
  held : Option ObjectName
  running : List RunningPass
  order : Nat

namespace Desk

/-- All that one move can do to the desk, and what it shows. -/
inductive Turns : Desk → Desk → List DispatchEvent → Prop where
  | untouched {desk : Desk} : Turns desk desk []
  | taken {desk : Desk} (key : ObjectName) (goesOn : desk.dispatching = true)
      (free : desk.held = none) : Turns desk { desk with held := some key } [.taken key]
  | begun {desk : Desk} (key : ObjectName) (since wakes : Nat) (goesOn : desk.dispatching = true)
      (held : desk.held = some key) (room : desk.running.length < desk.limit) :
      Turns desk
        { desk with
          held := none
          running := desk.running ++ [⟨desk.order, key, .readingPod, since, wakes⟩]
          order := desk.order + 1 } [.begun desk.order key]
  | advanced {desk : Desk} (run : RunningPass) (next : Pass) (member : run ∈ desk.running)
      (fewer : next.callsLeft < run.pass.callsLeft) :
      Turns desk
        { desk with
          running := desk.running.map fun other =>
            if other.order = run.order then { other with pass := next } else other } []
  | settled {desk : Desk} (run : RunningPass) (outcome : PassOutcome) (order : Nat)
      (member : run ∈ desk.running) (later : desk.order ≤ order) :
      Turns desk
        { desk with
          running := desk.running.filter fun other => other.order ≠ run.order
          order := order } [.settled run.order run.key outcome]
  | stopped {desk : Desk} : Turns desk { desk with dispatching := false, held := none } []

/-- The log accounts for the desk: for the key that waits for its pass, and for every pass that was
begun, which is in progress or has ended, and that once. -/
structure Accounts (desk : Desk) (log : List DispatchEvent) : Prop where
  bounded : desk.running.length ≤ desk.limit
  numbered : Numbered desk.order ((passes log).map Prod.fst)
  balanced : ∃ unstarted, takenKeys log = (passes log).map Prod.snd ++ unstarted ∧
    unstarted.length ≤ 1 ∧ (desk.dispatching = true → unstarted = desk.held.toList)
  whereabouts : ∀ order key, (order, key) ∈ passes log ↔
    (∃ run ∈ desk.running, run.order = order ∧ run.key = key) ∨
      ∃ outcome, .settled order key outcome ∈ log
  once : Numbered desk.order (ends log ++ desk.running.map RunningPass.order)

variable {desk after : Desk} {log shown : List DispatchEvent}

-- A number says which pass is meant.
theorem pass_unique (accounts : desk.Accounts log) (a b : RunningPass) (inA : a ∈ desk.running)
    (inB : b ∈ desk.running) (same : a.order = b.order) : a = b :=
  List.inj_on_of_nodup_map (List.nodup_append.mp accounts.once.distinct).2.1 inA inB same

theorem begun_accounts (accounts : desk.Accounts log) (key : ObjectName) (since wakes : Nat)
    (goesOn : desk.dispatching = true) (held : desk.held = some key)
    (room : desk.running.length < desk.limit) :
    Accounts
      { desk with
        held := none
        running := desk.running ++ [⟨desk.order, key, .readingPod, since, wakes⟩]
        order := desk.order + 1 } (log ++ [.begun desk.order key]) := by
  obtain ⟨bounded, numbered, ⟨unstarted, balanced, single, waits⟩, whereabouts, once⟩ := accounts
  have waiting : unstarted = [key] := by rw [waits goesOn, held]; rfl
  subst waiting
  constructor
  · rw [List.length_append]
    exact room
  · simpa [passes] using numbered_next desk.order _ numbered
  · refine ⟨[], ?_, Nat.zero_le 1, fun _ => rfl⟩
    rw [taken_keys_append, passes_append, balanced]
    simp [takenKeys, passes]
  · intro order other
    rw [passes_append, List.mem_append, whereabouts]
    simp only [passes, List.filterMap_cons, List.filterMap_nil, List.mem_singleton, Prod.mk.injEq,
      List.mem_append, or_and_right, exists_or, exists_eq_left, reduceCtorEq, or_false]
    rw [or_right_comm, eq_comm (a := order), eq_comm (a := other)]
  · simpa [ends] using numbered_next desk.order _ once

theorem advanced_accounts (accounts : desk.Accounts log) (order : Nat) (next : Pass) :
    Accounts
      { desk with
        running := desk.running.map fun other =>
          if other.order = order then { other with pass := next } else other } log := by
  obtain ⟨bounded, numbered, balanced, whereabouts, once⟩ := accounts
  refine ⟨by simpa using bounded, numbered, balanced, fun number key => ?_, ?_⟩
  · rw [whereabouts]
    refine or_congr_left ⟨?_, ?_⟩
    · rintro ⟨run, member, number, same⟩
      refine ⟨_, List.mem_map_of_mem member, ?_⟩
      split <;> exact ⟨number, same⟩
    · rintro ⟨_, member, number, same⟩
      obtain ⟨run, present, rfl⟩ := List.mem_map.mp member
      refine ⟨run, present, ?_⟩
      split at number <;> split at same <;> exact ⟨number, same⟩
  · simpa only [Workload.replaced_numbers] using once

theorem settled_accounts (accounts : desk.Accounts log) (run : RunningPass)
    (outcome : PassOutcome) (order : Nat) (member : run ∈ desk.running)
    (later : desk.order ≤ order) :
    Accounts
      { desk with
        running := desk.running.filter fun other => other.order ≠ run.order
        order := order } (log ++ [.settled run.order run.key outcome]) := by
  have unique := pass_unique accounts
  obtain ⟨bounded, numbered, ⟨unstarted, balanced, single, waits⟩, whereabouts, once⟩ := accounts
  constructor
  · exact Nat.le_trans (List.length_filter_le _ _) bounded
  · simpa [passes] using numbered_mono later numbered
  · refine ⟨unstarted, ?_, single, waits⟩
    simpa [takenKeys, passes] using balanced
  · intro number key
    have same : passes (log ++ [.settled run.order run.key outcome]) = passes log := by
      simp [passes]
    rw [same, whereabouts]
    constructor
    · rintro (⟨other, present, rfl, rfl⟩ | ⟨former, settled⟩)
      · by_cases itself : other.order = run.order
        · rw [unique other run present member itself]
          exact Or.inr ⟨outcome, List.mem_append_right _ List.mem_cons_self⟩
        · exact Or.inl ⟨other, List.mem_filter.mpr ⟨present, decide_eq_true itself⟩, rfl, rfl⟩
      · exact Or.inr ⟨former, List.mem_append_left _ settled⟩
    · rintro (⟨other, present, found⟩ | ⟨former, settled⟩)
      · exact Or.inl ⟨other, (List.mem_filter.mp present).1, found⟩
      · rcases List.mem_append.mp settled with earlier | now
        · exact Or.inr ⟨former, earlier⟩
        · cases List.mem_singleton.mp now
          exact Or.inl ⟨run, member, rfl, rfl⟩
  · have moved := numbered_moved later (List.mem_map_of_mem member) once
    simpa [ends, List.filter_map, Function.comp_def] using moved

theorem turns_accounts (turns : Turns desk after shown) (accounts : desk.Accounts log) :
    after.Accounts (log ++ shown) := by
  cases turns with
  | untouched => simpa using accounts
  | taken key goesOn free =>
    obtain ⟨bounded, numbered, ⟨unstarted, balanced, single, waits⟩, whereabouts, once⟩ := accounts
    have nobody : unstarted = [] := by rw [waits goesOn, free]; rfl
    subst nobody
    refine ⟨bounded, by simpa [passes] using numbered, ⟨[key], ?_, Nat.le_refl 1, fun _ => rfl⟩,
      fun order other => ?_, by simpa [ends] using once⟩
    · rw [taken_keys_append, passes_append, balanced]
      simp [takenKeys, passes]
    · simpa [passes] using whereabouts order other
  | begun key since wakes goesOn held room =>
    exact begun_accounts accounts key since wakes goesOn held room
  | advanced run next member fewer =>
    simpa using advanced_accounts accounts run.order next
  | settled run outcome order member later =>
    exact settled_accounts accounts run outcome order member later
  | stopped =>
    obtain ⟨bounded, numbered, ⟨unstarted, balanced, single, _⟩, whereabouts, once⟩ := accounts
    rw [List.append_nil]
    exact ⟨bounded, numbered, ⟨unstarted, balanced, single, nofun⟩, whereabouts, once⟩

theorem turns_limit (turns : Turns desk after shown) : after.limit = desk.limit := by
  cases turns <;> rfl

/-- Once the loop has ended, no key is taken and no pass is begun. -/
theorem turns_closed (turns : Turns desk after shown) (ended : desk.dispatching = false) :
    after.dispatching = false ∧ takenKeys shown = [] ∧ passes shown = [] := by
  cases turns with
  | untouched => exact ⟨ended, rfl, rfl⟩
  | taken key goesOn free => cases ended.symm.trans goesOn
  | begun key since wakes goesOn held room => cases ended.symm.trans goesOn
  | advanced run next member fewer => exact ⟨ended, rfl, rfl⟩
  | settled run outcome order member later => exact ⟨ended, rfl, rfl⟩
  | stopped => exact ⟨rfl, rfl, rfl⟩

-- The pass of that number is in progress, with so many calls before it at most.
def InProgress (desk : Desk) (order : Nat) (key : ObjectName) (calls : Nat) : Prop :=
  ∃ run ∈ desk.running, run.order = order ∧ run.key = key ∧ run.pass.callsLeft ≤ calls

/-- Nothing takes a pass away: it goes on, or it comes to its end. -/
theorem turns_carry (turns : Turns desk after shown) (accounts : desk.Accounts log) (order : Nat)
    (key : ObjectName) (calls : Nat) (goesOn : desk.InProgress order key calls) :
    after.InProgress order key calls ∨ ∃ outcome, .settled order key outcome ∈ shown := by
  obtain ⟨run, member, rfl, rfl, left⟩ := goesOn
  cases turns with
  | untouched => exact Or.inl ⟨run, member, rfl, rfl, left⟩
  | taken => exact Or.inl ⟨run, member, rfl, rfl, left⟩
  | begun => exact Or.inl ⟨run, List.mem_append_left _ member, rfl, rfl, left⟩
  | stopped => exact Or.inl ⟨run, member, rfl, rfl, left⟩
  | advanced other next present fewer =>
    refine Or.inl ⟨_, List.mem_map_of_mem member, ?_⟩
    split
    · rename_i same
      cases pass_unique accounts run other member present same
      exact ⟨rfl, rfl, Nat.le_trans (Nat.le_of_lt fewer) left⟩
    · exact ⟨rfl, rfl, left⟩
  | settled other outcome next present later =>
    by_cases same : run.order = other.order
    · cases pass_unique accounts run other member present same
      exact Or.inr ⟨outcome, List.mem_cons_self⟩
    · exact Or.inl ⟨run, List.mem_filter.mpr ⟨member, decide_eq_true same⟩, rfl, rfl, left⟩

end Desk

namespace Controller

variable {σ : Type}

def desk (c : Controller) : Desk := ⟨c.limit, c.dispatching, c.held, c.running, c.order⟩

def dispatched (before : Controller) (action : ControllerAction) (after : Controller) :
    List DispatchEvent :=
  match action with
  | .receive => after.held.toList.map .taken
  | .start => before.held.toList.map (.begun before.order)
  | .settle order =>
    match before.find? order with
    | some ⟨_, key, .ended outcome, _, _⟩ => [.settled order key outcome]
    | _ => []
  | _ => []

theorem handle_desk (c : Controller) (key : ObjectName) (outcome : PassOutcome) :
    ∃ order, c.order ≤ order ∧ (c.handle key outcome).desk = { c.desk with order := order } := by
  cases outcome with
  | done work => exact ⟨c.order, Nat.le_refl _, rfl⟩
  | requeue => exact ⟨c.order + 1, Nat.le_succ _, rfl⟩
  | failed error => exact ⟨c.order + 1, Nat.le_succ _, rfl⟩

theorem dispatched_settle (c after : Controller) (run : RunningPass) (outcome : PassOutcome)
    (found : c.find? run.order = some run) (ended : run.pass = .ended outcome) :
    c.dispatched (.settle run.order) after = [.settled run.order run.key outcome] := by
  obtain ⟨order, key, pass, started, wakes⟩ := run
  dsimp only at ended found ⊢
  subst ended
  simp only [dispatched, found]

/-- Whatever a controller does, it does to the desk in one of the listed ways. -/
theorem perform_desk (access : StoreAccess σ) (readTakes : Nat) (action : ControllerAction)
    (c after : Controller) (world next : σ)
    (performed : c.perform access readTakes action world = some (after, next)) :
    Desk.Turns c.desk after.desk (c.dispatched action after) := by
  cases perform_acts action performed with
  | refused => exact .untouched
  | admitted => exact .untouched
  | received key sender queue metrics admission goesOn free next => exact .taken key goesOn free
  | started key goesOn held room =>
    simp only [dispatched, held]
    exact .begun key c.now (c.now + readTakes) goesOn held room
  | advanced run found unfinished =>
    have fewer := Pass.step_left access c.settings.policy run.key run.pass world unfinished
    exact .advanced run _ (List.mem_of_find?_eq_some found) fewer
  | settled run outcome found ended =>
    obtain ⟨later, grows, same⟩ :=
      handle_desk ((c.dropRun run.order).observeDuration (c.now - run.started)) run.key outcome
    rw [same, dispatched_settle c _ run outcome found ended]
    exact .settled run outcome later (List.mem_of_find?_eq_some found) grows
  | retried entry found => exact .untouched

-- In good accounts, a pass is found by its number.
theorem find_member {c : Controller} {log : List DispatchEvent} (accounts : c.desk.Accounts log)
    (run : RunningPass) (member : run ∈ c.running) : c.find? run.order = some run := by
  cases found : c.find? run.order with
  | none => simpa using List.find?_eq_none.mp found run member
  | some other =>
    have same : other.order = run.order := found_itself c.running run.order other found
    have present : other ∈ c.running := List.mem_of_find?_eq_some found
    exact congrArg some (Desk.pass_unique accounts other run present member same)

theorem perform_advance (access : StoreAccess σ) (readTakes : Nat) (c : Controller) (world : σ)
    (run : RunningPass) (order : Nat) (found : c.find? order = some run)
    (unfinished : run.pass.outcome? = none) :
    c.perform access readTakes (.advance order) world =
      some (c.replace order (run.pass.step access c.settings.policy run.key world).1,
        (run.pass.step access c.settings.policy run.key world).2) := by
  simp only [perform, found]
  cases pass : run.pass with
  | ended outcome =>
    rw [pass] at unfinished
    cases unfinished
  | _ => rfl

-- A key that was taken waits for nothing but room.
theorem start_iff_room (c : Controller) (key : ObjectName) (held : c.held = some key)
    (goesOn : c.dispatching = true) (readTakes : Nat) :
    (c.start? readTakes).isSome ↔ c.running.length < c.limit := by
  by_cases room : c.running.length < c.limit <;> simp [start?, held, goesOn, room]

theorem settle_ended (c : Controller) (run : RunningPass) (outcome : PassOutcome)
    (found : c.find? run.order = some run) (ended : run.pass = .ended outcome) :
    c.settle? run.order =
      some (((c.dropRun run.order).observeDuration (c.now - run.started)).handle run.key
        outcome) := by
  obtain ⟨order, key, pass, started, wakes⟩ := run
  dsimp only at ended found ⊢
  subst ended
  simp only [settle?, found]

/-- An outcome other than done gives the key back, whether keys are still dispatched or not. -/
theorem handle_gives_back (c : Controller) (key : ObjectName) (outcome : PassOutcome)
    (undone : ∀ work, outcome ≠ .done work) :
    ∃ due, c.now ≤ due ∧ (c.handle key outcome).retries = c.retries ++ [⟨c.order, key, due⟩] := by
  cases outcome with
  | done work => exact absurd rfl (undone work)
  | requeue => exact ⟨c.now + 0, Nat.le_refl _, rfl⟩
  | failed error => exact ⟨_, Nat.le_add_right _ _, rfl⟩

end Controller

inductive DispatchMove (σ : Type) where
  -- Others change the world.
  | elsewhere (world : σ)
  | send (event : PodEvent)
  | closeInbox
  | wait (millis : Nat)
  | shutdown
  | act (access : StoreAccess σ) (readTakes : Nat) (action : ControllerAction)

structure DispatchRun (σ : Type) where
  controller : Controller
  world : σ
  log : List DispatchEvent

namespace DispatchRun

variable {σ : Type}

def start (settings : ControllerSettings) (health : HealthRegistry) (world : σ) : DispatchRun σ :=
  ⟨.initial settings health, world, []⟩

def after (run : DispatchRun σ) : DispatchMove σ → DispatchRun σ
  | .elsewhere world => { run with world := world }
  | .send event => { run with controller := run.controller.send event }
  | .closeInbox => { run with controller := run.controller.closeInbox }
  | .wait millis =>
    { run with controller := { run.controller with now := run.controller.now + millis } }
  | .shutdown => { run with controller := run.controller.shutdown }
  | .act access readTakes action =>
    match run.controller.perform access readTakes action run.world with
    | some (controller, world) =>
      ⟨controller, world, run.log ++ run.controller.dispatched action controller⟩
    | none => run

def replay (moves : List (DispatchMove σ)) (run : DispatchRun σ) : DispatchRun σ :=
  moves.foldl after run

def actions (moves : List (DispatchMove σ)) : List ControllerAction :=
  moves.filterMap fun
    | .act _ _ action => some action
    | _ => none

theorem after_desk (run : DispatchRun σ) (move : DispatchMove σ) :
    ∃ shown, Desk.Turns run.controller.desk (run.after move).controller.desk shown ∧
      (run.after move).log = run.log ++ shown := by
  have unseen : run.log = run.log ++ [] := (List.append_nil run.log).symm
  cases move with
  | elsewhere world => exact ⟨[], .untouched, unseen⟩
  | send event =>
    have same : (run.controller.send event).desk = run.controller.desk := by
      unfold Controller.send
      split <;> rfl
    exact ⟨[], by simpa only [after, same] using .untouched, unseen⟩
  | closeInbox => exact ⟨[], .untouched, unseen⟩
  | wait millis => exact ⟨[], .untouched, unseen⟩
  | shutdown =>
    refine ⟨[], ?_, unseen⟩
    simp only [after, Controller.shutdown]
    split
    · exact .stopped
    · exact .untouched
  | act access readTakes action =>
    simp only [after]
    split
    · rename_i controller world performed
      exact ⟨_, Controller.perform_desk access readTakes action _ _ _ _ performed, rfl⟩
    · exact ⟨[], .untouched, unseen⟩

def Accounted (run : DispatchRun σ) : Prop := run.controller.desk.Accounts run.log

theorem start_accounted (settings : ControllerSettings) (health : HealthRegistry) (world : σ) :
    (start settings health world).Accounted := by
  refine ⟨Nat.zero_le _, numbered_none 0, ⟨[], rfl, Nat.zero_le 1, fun _ => rfl⟩,
    fun order key => ?_, numbered_none 0⟩
  simp [start, passes, Controller.desk, Controller.initial]

theorem after_accounted (run : DispatchRun σ) (move : DispatchMove σ) (accounted : run.Accounted) :
    (run.after move).Accounted := by
  obtain ⟨shown, turns, log⟩ := after_desk run move
  rw [Accounted, log]
  exact Desk.turns_accounts turns accounted

theorem replay_accounted (moves : List (DispatchMove σ)) (run : DispatchRun σ)
    (accounted : run.Accounted) : (replay moves run).Accounted := by
  induction moves generalizing run with
  | nil => exact accounted
  | cons move rest ih => exact ih (run.after move) (after_accounted run move accounted)

theorem replay_log (moves : List (DispatchMove σ)) (run : DispatchRun σ) (event : DispatchEvent)
    (member : event ∈ run.log) : event ∈ (replay moves run).log := by
  induction moves generalizing run with
  | nil => exact member
  | cons move rest ih =>
    obtain ⟨shown, _, log⟩ := after_desk run move
    exact ih (run.after move) (log ▸ List.mem_append_left shown member)

/-- After the end of the loop, the log has nothing more to say of keys and of beginnings. -/
theorem replay_closed (moves : List (DispatchMove σ)) (run : DispatchRun σ)
    (ended : run.controller.dispatching = false) :
    (replay moves run).controller.dispatching = false ∧
      takenKeys (replay moves run).log = takenKeys run.log ∧
      passes (replay moves run).log = passes run.log := by
  induction moves generalizing run with
  | nil => exact ⟨ended, rfl, rfl⟩
  | cons move rest ih =>
    obtain ⟨shown, turns, log⟩ := after_desk run move
    obtain ⟨still, untaken, unbegun⟩ := Desk.turns_closed turns ended
    obtain ⟨last, keys, begun⟩ := ih (run.after move) still
    rw [log, taken_keys_append, untaken, List.append_nil] at keys
    rw [log, passes_append, unbegun, List.append_nil] at begun
    exact ⟨last, keys, begun⟩

/-- A limit is never moved. -/
theorem replay_limit (moves : List (DispatchMove σ)) (run : DispatchRun σ) :
    (replay moves run).controller.limit = run.controller.limit := by
  induction moves generalizing run with
  | nil => rfl
  | cons move rest ih =>
    obtain ⟨shown, turns, _⟩ := after_desk run move
    exact (ih (run.after move)).trans (Desk.turns_limit turns)

/-- The steps that a pass still has to make: its calls, and the handling of its outcome. -/
def stepsLeft (order calls : Nat) : List ControllerAction :=
  List.replicate calls (.advance order) ++ [.settle order]

theorem advance_goes_on (run : DispatchRun σ) (accounted : run.Accounted)
    (access : StoreAccess σ) (readTakes order : Nat) (key : ObjectName) (calls : Nat)
    (goesOn : run.controller.desk.InProgress order key (calls + 1)) :
    (run.after (.act access readTakes (.advance order))).controller.desk.InProgress order key
      calls := by
  obtain ⟨pass, member, rfl, rfl, left⟩ := goesOn
  have found := Controller.find_member accounted pass member
  rcases pass.pass.unfinished_or_ended with unfinished | ⟨outcome, ended⟩
  · have fewer :=
      Pass.step_left access run.controller.settings.policy pass.key pass.pass run.world unfinished
    simp only [after, Controller.perform_advance _ _ _ _ pass _ found unfinished]
    refine ⟨_, List.mem_map_of_mem member, ?_⟩
    rw [if_pos rfl]
    exact ⟨rfl, rfl, Nat.le_of_lt_succ (Nat.lt_of_lt_of_le fewer left)⟩
  · -- It has ended already, and only its outcome is left to be handled.
    have stays : run.controller.perform access readTakes (.advance pass.order) run.world = none := by
      simp only [Controller.perform, found, ended]
    simp only [after, stays]
    exact ⟨pass, member, rfl, rfl, by rw [ended]; exact Nat.zero_le calls⟩

theorem settle_ends (run : DispatchRun σ) (accounted : run.Accounted) (access : StoreAccess σ)
    (readTakes order : Nat) (key : ObjectName)
    (goesOn : run.controller.desk.InProgress order key 0) :
    ∃ outcome, .settled order key outcome ∈
      (run.after (.act access readTakes (.settle order))).log := by
  obtain ⟨pass, member, rfl, rfl, left⟩ := goesOn
  obtain ⟨outcome, ended⟩ := Pass.calls_left_zero _ (Nat.le_zero.mp left)
  have found := Controller.find_member accounted pass member
  refine ⟨outcome, ?_⟩
  simp only [after, Controller.perform, Controller.settle_ended _ _ _ found ended,
    Option.map_some, Controller.dispatched_settle _ _ pass outcome found ended]
  exact List.mem_append_right _ List.mem_cons_self

/-- A pass that is given its steps comes to its end, whatever happens in between. -/
theorem ends_in_time (later : List (DispatchMove σ)) (run : DispatchRun σ)
    (accounted : run.Accounted) (order : Nat) (key : ObjectName) (calls : Nat)
    (goesOn : run.controller.desk.InProgress order key calls)
    (enough : (stepsLeft order calls).Sublist (actions later)) :
    ∃ outcome, .settled order key outcome ∈ (replay later run).log := by
  induction later generalizing run calls with
  | nil =>
    rw [actions, List.filterMap_nil, List.sublist_nil] at enough
    simp [stepsLeft] at enough
  | cons move rest ih =>
    have accounted' := after_accounted run move accounted
    obtain ⟨shown, turns, log⟩ := after_desk run move
    -- Steps that are made later on are enough after this move as well.
    have passed (enough : (stepsLeft order calls).Sublist (actions rest)) :
        ∃ outcome, .settled order key outcome ∈ (replay rest (run.after move)).log := by
      rcases Desk.turns_carry turns accounted order key calls goesOn with still | ⟨outcome, now⟩
      · exact ih _ accounted' calls still enough
      · exact ⟨outcome, replay_log rest _ _ (log ▸ List.mem_append_right _ now)⟩
    cases move with
    | act access readTakes action =>
      rcases List.sublist_cons_iff.mp enough with unused | ⟨others, first, enough⟩
      · exact passed unused
      · cases calls with
        | zero =>
          cases first
          obtain ⟨outcome, now⟩ := settle_ends run accounted access readTakes order key goesOn
          exact ⟨outcome, replay_log rest _ _ now⟩
        | succ calls =>
          cases first
          exact ih _ accounted' calls
            (advance_goes_on run accounted access readTakes order key calls goesOn) enough
    | _ => exact passed enough

/-- Whatever the stores answer, whatever events come and whenever the shutdown does: the passes in
progress are within the bound. The keys that were taken have each had a pass begun for them, in
order, but for one at most, which waits for room as long as the loop goes on. A pass that was begun
is in progress or has ended, and that once; one in progress ends as soon as it has made its steps,
through a shutdown too, and then gives its key back unless it is done. From a shutdown on no key is
taken and no pass is begun. -/
theorem dispatch_bounded_and_complete (settings : ControllerSettings) (health : HealthRegistry)
    (world : σ) (moves : List (DispatchMove σ)) :
    let run := replay moves (start settings health world)
    run.controller.running.length ≤ max 1 settings.maxConcurrent ∧
    (∃ unstarted, takenKeys run.log = (passes run.log).map Prod.snd ++ unstarted ∧
      unstarted.length ≤ 1 ∧
      (run.controller.dispatching = true → unstarted = run.controller.held.toList ∧
        ∀ key, run.controller.held = some key → ∀ readTakes,
          (run.controller.start? readTakes).isSome ↔
            run.controller.running.length < max 1 settings.maxConcurrent)) ∧
    ((passes run.log).map Prod.fst).Nodup ∧
    (∀ order key, (order, key) ∈ passes run.log ↔
      (∃ pass ∈ run.controller.running, pass.order = order ∧ pass.key = key) ∨
        ∃ outcome, .settled order key outcome ∈ run.log) ∧
    (ends run.log ++ run.controller.running.map RunningPass.order).Nodup ∧
    (∀ pass ∈ run.controller.running,
      (∀ later, (stepsLeft pass.order 3).Sublist (actions later) →
        ∃ outcome, .settled pass.order pass.key outcome ∈ (replay later run).log) ∧
      ∀ outcome, pass.pass = .ended outcome → (∀ work, outcome ≠ .done work) →
        ∃ settled due, run.controller.settle? pass.order = some settled ∧
          run.controller.now ≤ due ∧
          settled.retries =
            run.controller.retries ++ [⟨run.controller.order, pass.key, due⟩]) ∧
    ∀ later, (replay later (run.after .shutdown)).controller.dispatching = false ∧
      takenKeys (replay later (run.after .shutdown)).log = takenKeys run.log ∧
      passes (replay later (run.after .shutdown)).log = passes run.log := by
  intro run
  have accounted : run.Accounted :=
    replay_accounted moves _ (start_accounted settings health world)
  have limit : run.controller.limit = max 1 settings.maxConcurrent :=
    replay_limit moves (start settings health world)
  have ⟨bounded, numbered, ⟨unstarted, balanced, single, waits⟩, whereabouts, once⟩ := accounted
  refine ⟨limit ▸ bounded, ⟨unstarted, balanced, single, fun goesOn => ⟨waits goesOn, ?_⟩⟩,
    numbered.distinct, whereabouts, once.distinct, fun pass member => ⟨?_, ?_⟩, fun later => ?_⟩
  · intro key held readTakes
    rw [← limit]
    exact Controller.start_iff_room _ key held goesOn readTakes
  · intro later enough
    exact ends_in_time later run accounted pass.order pass.key 3
      ⟨pass, member, rfl, rfl, pass.pass.calls_left_le⟩ enough
  · intro outcome ended undone
    have found := Controller.find_member accounted pass member
    obtain ⟨due, later, retries⟩ := Controller.handle_gives_back
      ((run.controller.dropRun pass.order).observeDuration (run.controller.now - pass.started))
      pass.key outcome undone
    exact ⟨_, due, Controller.settle_ended _ pass outcome found ended, later, retries⟩
  · refine replay_closed later (run.after .shutdown) ?_
    simp only [after, Controller.shutdown]
    split
    · rfl
    · rename_i stopped
      exact Bool.eq_false_iff.mpr stopped

-- The moves that bring an event for a pod to a key that was taken.
def arrival (pod : Pod) : List (DispatchMove Unit) :=
  [.send (.created pod), .act (.failing (.backend "down")) 0 .takeEvent,
    .act (.failing (.backend "down")) 0 .receive]

def begin (action : ControllerAction) : DispatchMove Unit :=
  .act (.failing (.backend "down")) 0 action

-- A pass is in progress and a second key waits for room when the shutdown comes; the pass fails
-- only then.
example :
    let run := replay
      (arrival earlyPod ++ [begin .start] ++ arrival { earlyPod with name := "b" } ++
        [begin .start, .shutdown, begin (.advance 0), begin (.settle 0), begin .start])
      (start ⟨.firstWriteWins, .everything, 1, 8, .default⟩ .empty ())
    takenKeys run.log = [⟨"perf", "a"⟩, ⟨"perf", "b"⟩] ∧ passes run.log = [(0, ⟨"perf", "a"⟩)] ∧
      ends run.log = [0] ∧ run.controller.retries = [⟨1, ⟨"perf", "a"⟩, 100⟩] := by
  decide +kernel

end DispatchRun
end StartupLatency
