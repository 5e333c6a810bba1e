import StartupLatency.Proofs.PodServices

/-!
The reporter as two tasks in virtual time. The main task connects, reads the pod, waits for the
probe and patches; the probe's task goes on beside it. Whichever is due first makes the next move,
a call with the sleep behind it or an attempt on the target, and two that are due at once may move
in either order. Every such schedule ends as the run that takes the two tasks one after the other,
and so the instants that are written owe nothing to how the calls went.
-/

namespace StartupLatency

-- A retry loop that is about to make a call.
structure RetryLoop (σ : Type) where
  attempt : Nat
  left : Nat
  lastFault : String
  made : List Attempt
  now : Nat
  world : σ

namespace RetryPolicy

variable {σ α : Type}

def loop (policy : RetryPolicy) (now : Nat) (world : σ) : RetryLoop σ :=
  ⟨0, policy.maxAttempts, "", [], now, world⟩

def advance (policy : RetryPolicy) (call : σ → Reply σ α) (loop : RetryLoop σ) :
    RetryLoop σ ⊕ Retried σ α :=
  match loop.left with
  | 0 => .inr ⟨.exhausted loop.lastFault, loop.made, loop.now, loop.world⟩
  | left + 1 =>
    let reply := call loop.world
    let finish := loop.now + reply.takes
    match reply.answer with
    | .ok value => .inr ⟨.succeeded value, loop.made ++ [⟨loop.now, none⟩], finish, reply.world⟩
    | .error fault =>
      let made := loop.made ++ [⟨loop.now, some fault⟩]
      if left = 0 then .inr ⟨.exhausted fault, made, finish, reply.world⟩
      else
        match policy.delayAfter? loop.attempt with
        | none => .inr ⟨.overflow, made, finish, reply.world⟩
        | some delay =>
          .inl ⟨loop.attempt + 1, left, fault, made, finish + delay.ticks, reply.world⟩

def resume (policy : RetryPolicy) (call : σ → Reply σ α) (loop : RetryLoop σ) : Retried σ α :=
  let rest := policy.runFrom call loop.attempt loop.left loop.lastFault loop.now loop.world
  { rest with attempts := loop.made ++ rest.attempts }

theorem resume_loop (policy : RetryPolicy) (call : σ → Reply σ α) (now : Nat) (world : σ) :
    policy.resume call (policy.loop now world) = policy.run call now world := by
  simp [resume, loop, run]

-- A call changes nothing about what its loop comes to, and uses up one of the attempts.
theorem advance_resumes (policy : RetryPolicy) (call : σ → Reply σ α) (loop : RetryLoop σ) :
    (∃ later, policy.advance call loop = .inl later ∧
      policy.resume call later = policy.resume call loop ∧ later.left < loop.left) ∨
    policy.advance call loop = .inr (policy.resume call loop) := by
  obtain ⟨attempt, left, lastFault, made, now, world⟩ := loop
  cases left with
  | zero => exact Or.inr (by simp [advance, resume, runFrom])
  | succ left =>
    cases answer : (call world).answer with
    | ok value => exact Or.inr (by simp [advance, resume, runFrom, answer])
    | error fault =>
      by_cases last : left = 0
      · exact Or.inr (by simp [advance, resume, runFrom, answer, last])
      · cases behind : policy.delayAfter? attempt with
        | none => exact Or.inr (by simp [advance, resume, runFrom, answer, last, behind])
        | some delay =>
          let later : RetryLoop σ :=
            ⟨attempt + 1, left, fault, made ++ [⟨now, some fault⟩],
              now + (call world).takes + delay.ticks, (call world).world⟩
          refine Or.inl ⟨later, ?_, ?_, Nat.lt_succ_self left⟩
          · simp [advance, answer, last, behind, later]
          · simp [resume, runFrom, answer, last, behind, later]

end RetryPolicy

inductive ProbeTask where
  | probing (starts : List Nat) (attempt now bound : Nat)
  | ended (run : ProbeRun)

namespace ProbeTask

def move? (plan : ProbePlan) (prober : Prober) : ProbeTask → Option (Nat × ProbeTask)
  | .ended _ => none
  | .probing starts attempt now bound =>
    let next :=
      if plan.timeout ≤ now then .ended ⟨starts, .timedOut now⟩
      else
        match bound with
        | 0 => .ended ⟨starts, .endless⟩
        | bound + 1 =>
          let finish := now + prober.takes attempt now
          let starts := starts ++ [now]
          match prober.answer attempt now with
          | .up => .ended ⟨starts, .ready finish⟩
          | .crash => .ended ⟨starts, .crashed finish⟩
          | .down =>
            .probing starts (attempt + 1) (finish + prober.pause finish plan.interval) bound
    some (now, next)

def started (plan : ProbePlan) (prober : Prober) : ProbeTask :=
  if plan.Timed prober then .probing [] 0 0 plan.attemptBound else .ended ⟨[], .crashed 0⟩

def rest (plan : ProbePlan) (prober : Prober) : ProbeTask → ProbeRun
  | .ended run => run
  | .probing starts attempt now bound =>
    let rest := plan.runFrom prober attempt now bound
    { rest with starts := starts ++ rest.starts }

def weight : ProbeTask → Nat
  | .ended _ => 0
  | .probing _ _ _ bound => bound + 1

theorem started_rests (plan : ProbePlan) (prober : Prober) :
    (started plan prober).rest plan prober = plan.run prober := by
  rw [started, ProbePlan.run]
  split <;> simp [rest]

theorem move_rests {plan : ProbePlan} {prober : Prober} {task next : ProbeTask} {time : Nat}
    (moves : task.move? plan prober = some (time, next)) :
    next.rest plan prober = task.rest plan prober ∧ next.weight < task.weight := by
  cases task with
  | ended run => cases moves
  | probing starts attempt now bound =>
    cases moves
    by_cases late : plan.timeout ≤ time
    · simp [rest, weight, ProbePlan.runFrom.eq_def, late]
    · cases bound with
      | zero => simp [rest, weight, ProbePlan.runFrom.eq_def, late]
      | succ bound =>
        cases answer : prober.answer attempt time <;>
          simp [rest, weight, ProbePlan.runFrom, late, answer]

end ProbeTask

inductive MainTask (σ : Type) where
  | connecting (loop : RetryLoop σ)
  | getting (connects : List Attempt) (loop : RetryLoop σ)
  -- The pod is read; unless it has both times already, the probe is waited for.
  | read (connects : List Attempt) (got : Retried σ Pod) (pod : Pod)
  | patching (connects gets : List Attempt) (probe : ProbeRun) (start? ready? : Option Instant)
    (patch : Annotations) (loop : RetryLoop σ)
  | ended (run : ReporterRun σ)

namespace MainTask

variable {σ : Type} (settings : ReporterSettings) (prober : Prober) (clock : Nat → Instant)
  (start : Instant) (service : PodService σ)

def connected (connected : Retried σ Unit) : MainTask σ :=
  match Reporter.settle settings Reporter.connecting connected.result with
  | .error fault =>
    .ended ⟨.error fault, connected.finish, connected.attempts, [], [], none, connected.world⟩
  | .ok () => .getting connected.attempts (settings.retry.loop connected.finish connected.world)

def got (connects : List Attempt) (got : Retried σ Pod) : MainTask σ :=
  match Reporter.settle settings Reporter.getting got.result with
  | .error fault =>
    .ended ⟨.error fault, got.finish, connects, got.attempts, [], none, got.world⟩
  | .ok pod => .read connects got pod

def joined (connects : List Attempt) (got : Retried σ Pod) (pod : Pod) (probe : ProbeRun) :
    MainTask σ :=
  let hasStart := pod.annotations.contains startKey
  let time := max got.finish probe.outcome.time
  let ended (result : Except ReportFault Report) : MainTask σ :=
    .ended ⟨result, time, connects, got.attempts, [], some probe, got.world⟩
  match Reporter.measured settings clock probe.outcome with
  | .error fault => ended (.error fault)
  | .ok ready? =>
    let patch := annotationPatch hasStart start ready?
    if patch.isEmpty then ended (.ok .skipped)
    else
      .patching connects got.attempts probe (if hasStart then none else some start) ready? patch
        (settings.retry.loop time got.world)

def patched (connects gets : List Attempt) (probe : ProbeRun) (start? ready? : Option Instant)
    (patched : Retried σ Unit) : ReporterRun σ :=
  let result :=
    (Reporter.settle settings Reporter.patching patched.result).map fun () =>
      Report.patched start? ready?
  ⟨result, patched.finish, connects, gets, patched.attempts, some probe, patched.world⟩

-- When the task is due, and what its next move makes of it. Only an unmeasured pod makes it wait
-- for the probe.
def move? (task : MainTask σ) (probe : ProbeTask) : Option (Nat × MainTask σ) :=
  match task with
  | .ended _ => none
  | .connecting loop =>
    some (loop.now, (settings.retry.advance service.connect loop).elim .connecting
      (connected settings))
  | .getting connects loop =>
    some (loop.now, (settings.retry.advance (service.get settings.pod) loop).elim
      (.getting connects) (got settings connects))
  | .read connects got pod =>
    if pod.annotations.contains startKey && pod.annotations.contains readyKey then
      some (got.finish, .ended
        ⟨.ok .skipped, got.finish, connects, got.attempts, [], none, got.world⟩)
    else
      match probe with
      | .probing _ _ _ _ => none
      | .ended run =>
        some (max got.finish run.outcome.time, joined settings clock start connects got pod run)
  | .patching connects gets probe start? ready? patch loop =>
    some (loop.now, (settings.retry.advance (service.patch settings.pod patch) loop).elim
      (.patching connects gets probe start? ready? patch)
      fun retried => .ended (patched settings connects gets probe start? ready? retried))

def fromGot (connects : List Attempt) (got : Retried σ Pod) : ReporterRun σ :=
  match Reporter.settle settings Reporter.getting got.result with
  | .error fault => ⟨.error fault, got.finish, connects, got.attempts, [], none, got.world⟩
  | .ok pod => Reporter.report settings prober clock start service connects got pod

def fromConnected (connected : Retried σ Unit) : ReporterRun σ :=
  match Reporter.settle settings Reporter.connecting connected.result with
  | .error fault =>
    ⟨.error fault, connected.finish, connected.attempts, [], [], none, connected.world⟩
  | .ok () =>
    fromGot settings prober clock start service connected.attempts
      (Reporter.got settings service connected)

def rest : MainTask σ → ReporterRun σ
  | .connecting loop =>
    fromConnected settings prober clock start service (settings.retry.resume service.connect loop)
  | .getting connects loop =>
    fromGot settings prober clock start service connects
      (settings.retry.resume (service.get settings.pod) loop)
  | .read connects got pod =>
    Reporter.report settings prober clock start service connects got pod
  | .patching connects gets probe start? ready? patch loop =>
    patched settings connects gets probe start? ready?
      (settings.retry.resume (service.patch settings.pod patch) loop)
  | .ended run => run

-- More than the moves to come: each loop ends within its attempts.
def weight : MainTask σ → Nat
  | .connecting loop => loop.left + 2 * settings.retry.maxAttempts + 4
  | .getting _ loop => loop.left + settings.retry.maxAttempts + 3
  | .read _ _ _ => settings.retry.maxAttempts + 2
  | .patching _ _ _ _ _ _ loop => loop.left + 1
  | .ended _ => 0

/-- A task on its way to a run, with fewer moves to come than that. -/
structure LeadsTo (task : MainTask σ) (run : ReporterRun σ) (bound : Nat) : Prop where
  rests : task.rest settings prober clock start service = run
  fewer : task.weight settings < bound

variable {settings prober clock start service}

theorem loop_leads {call : σ → Reply σ α} {onward : RetryLoop σ → MainTask σ}
    {ended : Retried σ α → MainTask σ} {comes : Retried σ α → ReporterRun σ} (base : Nat)
    (rests : ∀ later, (onward later).rest settings prober clock start service =
      comes (settings.retry.resume call later))
    (weighs : ∀ later, (onward later).weight settings = later.left + base)
    (ends : ∀ retried, LeadsTo settings prober clock start service (ended retried) (comes retried)
      base) (loop : RetryLoop σ) :
    LeadsTo settings prober clock start service
      ((settings.retry.advance call loop).elim onward ended)
      (comes (settings.retry.resume call loop)) (loop.left + base) := by
  rcases settings.retry.advance_resumes call loop with ⟨later, advances, same, fewer⟩ | spent
  · rw [advances]
    constructor
    · exact (rests later).trans (congrArg comes same)
    · exact weighs later ▸ Nat.add_lt_add_right fewer base
  · rw [spent]
    obtain ⟨rests, fewer⟩ := ends (settings.retry.resume call loop)
    exact ⟨rests, Nat.lt_add_left loop.left fewer⟩

theorem started_rests (world : σ) (startedAt : Option Instant) :
    (MainTask.connecting (settings.retry.loop 0 world)).rest settings prober clock
        (startedAt.getD (clock 0)) service =
      Reporter.run settings prober clock startedAt service world := by
  rw [rest, RetryPolicy.resume_loop, fromConnected, Reporter.run]
  rfl

theorem connected_leads (retried : Retried σ Unit) :
    LeadsTo settings prober clock start service (connected settings retried)
      (fromConnected settings prober clock start service retried)
      (2 * settings.retry.maxAttempts + 4) := by
  rw [connected, fromConnected]
  cases Reporter.settle settings Reporter.connecting retried.result with
  | error fault => exact ⟨rfl, Nat.succ_pos _⟩
  | ok _ =>
    constructor
    · rfl
    · simp only [weight, RetryPolicy.loop]
      omega

theorem got_leads (connects : List Attempt) (retried : Retried σ Pod) :
    LeadsTo settings prober clock start service (got settings connects retried)
      (fromGot settings prober clock start service connects retried)
      (settings.retry.maxAttempts + 3) := by
  rw [got, fromGot]
  cases Reporter.settle settings Reporter.getting retried.result with
  | error fault => exact ⟨rfl, Nat.succ_pos _⟩
  | ok pod => exact ⟨rfl, Nat.lt_succ_self _⟩

theorem joined_leads (connects : List Attempt) (got : Retried σ Pod) (pod : Pod)
    (incomplete : ¬ (pod.annotations.contains startKey && pod.annotations.contains readyKey)) :
    LeadsTo settings prober clock start service
      (joined settings clock start connects got pod (settings.plan.run prober))
      (Reporter.report settings prober clock start service connects got pod)
      (settings.retry.maxAttempts + 2) := by
  rw [joined, Reporter.report, if_neg incomplete]
  cases measures : Reporter.measured settings clock (settings.plan.run prober).outcome with
  | error fault =>
    simp only [measures]
    exact ⟨rfl, Nat.succ_pos _⟩
  | ok ready? =>
    simp only [measures]
    split
    · exact ⟨rfl, Nat.succ_pos _⟩
    · exact ⟨rfl, Nat.lt_succ_self _⟩

/-- No move changes what the main task comes to, if a probe that has ended did so as the run's. -/
theorem move_leads {task next : MainTask σ} {probe : ProbeTask} {time : Nat}
    (measured : ∀ run, probe = .ended run → run = settings.plan.run prober)
    (moves : task.move? settings clock start service probe = some (time, next)) :
    LeadsTo settings prober clock start service next
      (task.rest settings prober clock start service) (task.weight settings) := by
  cases task with
  | connecting loop =>
    cases moves
    exact loop_leads (2 * settings.retry.maxAttempts + 4) (fun _ => rfl) (fun _ => rfl)
      connected_leads loop
  | getting connects loop =>
    cases moves
    exact loop_leads (settings.retry.maxAttempts + 3) (fun _ => rfl) (fun _ => rfl)
      (got_leads connects) loop
  | read connects got pod =>
    simp only [move?] at moves
    split at moves
    · rename_i complete
      cases moves
      constructor
      · rw [rest, rest, Reporter.report, if_pos complete]
      · exact Nat.succ_pos _
    · rename_i incomplete
      cases probe with
      | probing => cases moves
      -- The main task joins a probe that has ended, and that one ended as the run's.
      | ended run =>
        cases moves
        cases measured run rfl
        exact joined_leads connects got pod incomplete
  | patching connects gets probe start? ready? patch loop =>
    cases moves
    have ends (retried : Retried σ Unit) :
        LeadsTo settings prober clock start service
          (.ended (patched settings connects gets probe start? ready? retried))
          (patched settings connects gets probe start? ready? retried) 1 :=
      ⟨rfl, Nat.one_pos⟩
    exact loop_leads 1 (fun _ => rfl) (fun _ => rfl) ends loop
  | ended run => cases moves

end MainTask

structure ReporterTasks (σ : Type) where
  main : MainTask σ
  probe : ProbeTask

namespace ReporterTasks

section
variable {σ : Type} (settings : ReporterSettings) (prober : Prober) (clock : Nat → Instant)
  (start : Instant) (service : PodService σ)

def started (world : σ) : ReporterTasks σ :=
  ⟨.connecting (settings.retry.loop 0 world), .started settings.plan prober⟩

/-- A task moves when the other is not due before it. -/
inductive Step (tasks : ReporterTasks σ) : ReporterTasks σ → Prop where
  | main (time : Nat) (next : MainTask σ)
      (moves : tasks.main.move? settings clock start service tasks.probe = some (time, next))
      (first : ∀ other later,
        tasks.probe.move? settings.plan prober = some (other, later) → time ≤ other) :
      Step tasks ⟨next, tasks.probe⟩
  | probe (time : Nat) (next : ProbeTask)
      (moves : tasks.probe.move? settings.plan prober = some (time, next))
      (first : ∀ other later,
        tasks.main.move? settings clock start service tasks.probe = some (other, later) →
          time ≤ other) :
      Step tasks ⟨tasks.main, next⟩

/-- Some schedule of the tasks ends as the run. The probe's task may then still be going on. -/
inductive EndsAs : ReporterTasks σ → ReporterRun σ → Prop where
  | ended (run : ReporterRun σ) (probe : ProbeTask) : EndsAs ⟨.ended run, probe⟩ run
  | step {tasks next : ReporterTasks σ} {run : ReporterRun σ}
      (step : Step settings prober clock start service tasks next) (rest : EndsAs next run) :
      EndsAs tasks run

end

variable {σ : Type} {settings : ReporterSettings} {prober : Prober} {clock : Nat → Instant}
  {start : Instant} {service : PodService σ} {tasks next : ReporterTasks σ} {run : ReporterRun σ}

/-- What the tasks come to stays, with each move one less to come. -/
theorem step_rests (step : Step settings prober clock start service tasks next)
    (measured : tasks.probe.rest settings.plan prober = settings.plan.run prober) :
    next.main.rest settings prober clock start service =
        tasks.main.rest settings prober clock start service ∧
      next.probe.rest settings.plan prober = settings.plan.run prober ∧
      next.main.weight settings + next.probe.weight <
        tasks.main.weight settings + tasks.probe.weight := by
  cases step with
  | main time main moves _ =>
    have leads := MainTask.move_leads (fun run ended => by rwa [ended] at measured) moves
    exact ⟨leads.rests, measured, Nat.add_lt_add_right leads.fewer _⟩
  | probe time probe moves _ =>
    obtain ⟨rests, fewer⟩ := ProbeTask.move_rests moves
    exact ⟨rfl, rests.trans measured, Nat.add_lt_add_left fewer _⟩

theorem ends_as_rest (ends : EndsAs settings prober clock start service tasks run)
    (measured : tasks.probe.rest settings.plan prober = settings.plan.run prober) :
    run = tasks.main.rest settings prober clock start service := by
  induction ends with
  | ended run probe => rfl
  | step step _ ih =>
    obtain ⟨same, later, _⟩ := step_rests step measured
    exact (ih later).trans same

theorem main_waits (waits : tasks.main.move? settings clock start service tasks.probe = none)
    (unended : ∀ run, tasks.main ≠ .ended run) :
    ∃ moved, tasks.probe.move? settings.plan prober = some moved := by
  obtain ⟨main, probe⟩ := tasks
  cases main with
  | read connects got pod =>
    simp only [MainTask.move?] at waits
    split at waits
    · cases waits
    · cases probe with
      | probing => exact ⟨_, rfl⟩
      | ended run => cases waits
  | ended run => exact absurd rfl (unended run)
  | connecting | getting | patching => cases waits

theorem step_exists (unended : ∀ run, tasks.main ≠ .ended run) :
    ∃ next, Step settings prober clock start service tasks next := by
  cases mains : tasks.main.move? settings clock start service tasks.probe with
  | none =>
    obtain ⟨⟨time, next⟩, moves⟩ : ∃ moved, tasks.probe.move? settings.plan prober = some moved :=
      main_waits mains unended
    exact ⟨_, .probe time next moves (by simp [mains])⟩
  | some main =>
    cases probes : tasks.probe.move? settings.plan prober with
    | none => exact ⟨_, .main main.1 main.2 mains (by simp [probes])⟩
    | some probe =>
      -- Due at once, either may go; here it is the main task.
      rcases Nat.le_total main.1 probe.1 with earlier | earlier
      · refine ⟨_, .main main.1 main.2 mains fun other later moves => ?_⟩
        cases probes.symm.trans moves
        exact earlier
      · refine ⟨_, .probe probe.1 probe.2 probes fun other later moves => ?_⟩
        cases mains.symm.trans moves
        exact earlier

theorem ends_exists (moves : Nat) (tasks : ReporterTasks σ)
    (fewer : tasks.main.weight settings + tasks.probe.weight < moves)
    (measured : tasks.probe.rest settings.plan prober = settings.plan.run prober) :
    ∃ run, EndsAs settings prober clock start service tasks run := by
  induction moves generalizing tasks with
  | zero => exact absurd fewer (Nat.not_lt_zero _)
  | succ moves ih =>
    by_cases ended : ∃ run, tasks.main = .ended run
    · obtain ⟨run, ended⟩ := ended
      obtain ⟨main, probe⟩ := tasks
      cases ended
      exact ⟨run, .ended run probe⟩
    · obtain ⟨next, step⟩ : ∃ next, Step settings prober clock start service tasks next :=
        step_exists fun run same => ended ⟨run, same⟩
      obtain ⟨_, later, less⟩ := step_rests step measured
      obtain ⟨run, ends⟩ := ih next (by omega) later
      exact ⟨run, .step step ends⟩

end ReporterTasks

namespace Reporter

/-- The two tasks of an execution, in some order in time, end as the run. -/
def Finishes (settings : ReporterSettings) (prober : Prober) (clock : Nat → Instant)
    (startedAt : Option Instant) (service : PodService σ) (world : σ) (run : ReporterRun σ) :
    Prop :=
  ReporterTasks.EndsAs settings prober clock (startedAt.getD (clock 0)) service
    (.started settings prober world) run

variable {σ τ : Type}

/-- Every order of the tasks gives the run that takes the probe as a whole, and there is one. -/
theorem finishes_iff (settings : ReporterSettings) (prober : Prober) (clock : Nat → Instant)
    (startedAt : Option Instant) (service : PodService σ) (world : σ) (run : ReporterRun σ) :
    Finishes settings prober clock startedAt service world run ↔
      run = Reporter.run settings prober clock startedAt service world := by
  let tasks : ReporterTasks σ := .started settings prober world
  have measured : tasks.probe.rest settings.plan prober = settings.plan.run prober :=
    ProbeTask.started_rests settings.plan prober
  have rests : tasks.main.rest settings prober clock (startedAt.getD (clock 0)) service =
      Reporter.run settings prober clock startedAt service world :=
    MainTask.started_rests world startedAt
  constructor
  · intro finishes
    exact (ReporterTasks.ends_as_rest finishes measured).trans rests
  · rintro rfl
    obtain ⟨run, ends⟩ : ∃ run, Finishes settings prober clock startedAt service world run :=
      ReporterTasks.ends_exists _ tasks (Nat.lt_succ_self _) measured
    rw [← rests, ← ReporterTasks.ends_as_rest ends measured]
    exact ends

end Reporter

namespace Pods

def annotations? (pods : Pods) (name : ObjectName) : Option Annotations :=
  (pods.find? name).map Pod.annotations

theorem annotations_patched (pods : Pods) (name : ObjectName) (patch : Annotations) :
    (pods.patched name patch).annotations? name =
      (pods.annotations? name).map fun held => held.override patch := by
  cases held : pods.find? name <;> simp [annotations?, find_patched, held]

end Pods

namespace Reporter

/-- Two executions that differ only in how their calls to the API go, in how long these take and how
often they fail, and that both end in a patch of pods with the same annotations, have measured
and written the same. -/
theorem measurement_ignores_calls (settings : ReporterSettings) (prober : Prober)
    (clock : Nat → Instant) (startedAt : Option Instant)
    (near : PodService σ) (far : PodService τ) (nearPods : σ → Pods) (farPods : τ → Pods)
    (nearServes : near.Serves settings.pod nearPods) (farServes : far.Serves settings.pod farPods)
    (nearWorld : σ) (farWorld : τ)
    (same : (nearPods nearWorld).annotations? settings.pod =
      (farPods farWorld).annotations? settings.pod)
    (nearRun : ReporterRun σ) (farRun : ReporterRun τ)
    (nearFinishes : Finishes settings prober clock startedAt near nearWorld nearRun)
    (farFinishes : Finishes settings prober clock startedAt far farWorld farRun)
    (nearStart? nearReady? farStart? farReady? : Option Instant)
    (nearPatched : nearRun.result = .ok (.patched nearStart? nearReady?))
    (farPatched : farRun.result = .ok (.patched farStart? farReady?)) :
    nearStart? = farStart? ∧ nearReady? = farReady? ∧
      (nearPods nearRun.world).annotations? settings.pod =
        (farPods farRun.world).annotations? settings.pod ∧
      nearRun = run settings prober clock startedAt near nearWorld ∧
      farRun = run settings prober clock startedAt far farWorld := by
  have nearSame := (finishes_iff _ _ _ _ _ _ _).mp nearFinishes
  have farSame := (finishes_iff _ _ _ _ _ _ _).mp farFinishes
  subst nearSame farSame
  obtain ⟨pod, nearPatch, found, nearMissing, nearMeasures, nearWrites, nearApplied⟩ :=
    course_patched (run_course nearServes prober clock startedAt nearWorld) nearPatched
  obtain ⟨other, farPatch, foundToo, farMissing, farMeasures, farWrites, farApplied⟩ :=
    course_patched (run_course farServes prober clock startedAt farWorld) farPatched
  have annotations : pod.annotations = other.annotations := by
    simpa [Pods.annotations?, found, foundToo] using same
  have starts : nearStart? = farStart? := by
    rw [nearMissing, farMissing, annotations]
  have ready : nearReady? = farReady? := Except.ok.inj (nearMeasures.symm.trans farMeasures)
  have patches : nearPatch = farPatch := by
    apply SortedMap.ext_find?
    intro key
    rw [nearWrites, farWrites, starts, ready]
  refine ⟨starts, ready, ?_, rfl, rfl⟩
  rw [nearApplied, farApplied, Pods.annotations_patched, Pods.annotations_patched, same, patches]

end Reporter

namespace PodService

def slowed (service : PodService σ) (delay : Nat) : PodService σ where
  connect world := { service.connect world with takes := (service.connect world).takes + delay }
  get key world := { service.get key world with takes := (service.get key world).takes + delay }
  patch key patch world :=
    { service.patch key patch world with takes := (service.patch key patch world).takes + delay }

theorem slowed_serves {service : PodService σ} {key : ObjectName} {pods : σ → Pods}
    (serves : service.Serves key pods) (delay : Nat) : (service.slowed delay).Serves key pods :=
  ⟨serves.connects, serves.gets, serves.reads, serves.patches, serves.writes⟩

end PodService

namespace Reporter

def promptWorld : ReporterWorld := ⟨.ofStores ⟨.ofPods [barePod], .empty⟩, []⟩

-- Each call fails twice, so the slow run is still connecting when the target is reached.
def stumblingWorld : ReporterWorld :=
  let timeout := some (StoreError.backend "timeout")
  ⟨⟨⟨.ofPods [barePod], .empty⟩, fun _ => [timeout, timeout], []⟩,
    [some "connection refused", some "connection refused"]⟩

theorem slow_calls_measure_the_same :
    let prober := Prober.ofScript [.down, .up] 10
    let clock := Instant.addMillis .epoch
    let pods := fun world : ReporterWorld => world.podStore.pods
    let slow := ReporterWorld.service.slowed 700
    let nearRun := run patientSettings prober clock none ReporterWorld.service promptWorld
    let farRun := run patientSettings prober clock none slow stumblingWorld
    nearRun.finish < farRun.finish ∧
    ∃ start? ready?, nearRun.result = .ok (.patched start? ready?) ∧
      farRun.result = .ok (.patched start? ready?) ∧
      Pods.annotations? (pods nearRun.world) patientSettings.pod =
        Pods.annotations? (pods farRun.world) patientSettings.pod := by
  intro prober clock pods slow nearRun farRun
  have later : nearRun.finish < farRun.finish := by decide +kernel
  have nearPatched : nearRun.result =
      .ok (.patched (some .epoch) (some (Instant.epoch.addMillis 520))) :=
    ok_of_option (by decide +kernel)
  have farPatched : farRun.result =
      .ok (.patched (some .epoch) (some (Instant.epoch.addMillis 520))) :=
    ok_of_option (by decide +kernel)
  have same : Pods.annotations? (pods promptWorld) patientSettings.pod =
      Pods.annotations? (pods stumblingWorld) patientSettings.pod := by decide +kernel
  have agree := measurement_ignores_calls patientSettings prober clock none ReporterWorld.service
    slow pods pods (ReporterWorld.service_serves _)
    (PodService.slowed_serves (ReporterWorld.service_serves _) 700) promptWorld stumblingWorld same
    nearRun farRun ((finishes_iff _ _ _ _ _ _ _).mpr rfl) ((finishes_iff _ _ _ _ _ _ _).mpr rfl)
    _ _ _ _ nearPatched farPatched
  exact ⟨later, _, _, nearPatched, farPatched, agree.2.2.1⟩

end Reporter
end StartupLatency
