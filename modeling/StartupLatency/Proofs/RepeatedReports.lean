import StartupLatency.Proofs.PodServices

/-!
The reporter run again and again on one pod. A patch writes the start only where there is none, but
the readiness whenever it was measured. That no run replaces a readiness rests on what the runs
before it can have left: the readiness never without the start, so that a pod that has one is
complete.
-/

namespace StartupLatency

namespace Pods

/-- The readiness is there only beside the start. -/
def Orderly (pods : Pods) (name : ObjectName) : Prop :=
  pods.stamp? name readyKey ≠ none → pods.stamp? name startKey ≠ none

def missing (pods : Pods) (name : ObjectName) : Nat :=
  (if pods.stamp? name startKey = none then 1 else 0) +
    (if pods.stamp? name readyKey = none then 1 else 0)

def Kept (before after : Pods) (name : ObjectName) : Prop :=
  ∀ key, key = startKey ∨ key = readyKey →
    ∀ text, before.stamp? name key = some text → after.stamp? name key = some text

theorem missing_le_two (pods : Pods) (name : ObjectName) : pods.missing name ≤ 2 := by
  unfold missing
  split <;> split <;> decide

theorem missing_kept {before after : Pods} {name : ObjectName} (kept : Kept before after name) :
    after.missing name ≤ before.missing name := by
  have stays (key : String) (stamp : key = startKey ∨ key = readyKey)
      (gone : after.stamp? name key = none) : before.stamp? name key = none := by
    cases held : before.stamp? name key with
    | none => rfl
    | some text => cases gone.symm.trans (kept key stamp text held)
  have start := stays startKey (Or.inl rfl)
  have ready := stays readyKey (Or.inr rfl)
  unfold missing
  split <;> split <;> simp_all

end Pods

namespace Reporter
open Pods

structure Advances (before after : Pods) (name : ObjectName) (run : ReporterRun σ) : Prop where
  kept : Kept before after name
  orderly : after.Orderly name
  fewer : ∀ start? ready?, run.result = .ok (.patched start? ready?) →
    after.missing name < before.missing name

variable {σ : Type} {settings : ReporterSettings} {prober : Prober} {clock : Nat → Instant}
  {start : Instant} {service : PodService σ} {pods : σ → Pods} {world : σ}

theorem advances_unpatched {before after : Pods} {name : ObjectName} {run : ReporterRun σ}
    (orderly : before.Orderly name) (same : after = before)
    (unpatched : ∀ start? ready?, run.result ≠ .ok (.patched start? ready?)) :
    Advances before after name run := by
  subst same
  constructor
  · exact fun _ _ _ held => held
  · exact orderly
  · intro start? ready? reported
    exact absurd reported (unpatched start? ready?)

theorem advances_patched {before : Pods} {name : ObjectName} {pod : Pod} {run : ReporterRun σ}
    (orderly : before.Orderly name) (read : before.find? name = some pod)
    (incomplete : ¬ Complete pod) (start? ready? : Option Instant)
    (missing : start? = if pod.annotations.contains startKey then none else some start)
    (asks : ¬ (start? = none ∧ ready? = none)) (patch : Annotations)
    (writes : ∀ key, patch.find? key = writtenText? start? ready? key) :
    Advances before (before.patched name patch) name run := by
  have atStart : (before.patched name patch).stamp? name startKey =
      (start?.map Instant.format).or (before.stamp? name startKey) := by
    rw [stamp_patched read, writes, written_text_start]
  have atReady : (before.patched name patch).stamp? name readyKey =
      (ready?.map Instant.format).or (before.stamp? name readyKey) := by
    rw [stamp_patched read, writes, written_text_ready]
  -- On an orderly pod that is not complete, the readiness is missing.
  have unready : before.stamp? name readyKey = none := by
    cases held : before.stamp? name readyKey with
    | none => rfl
    | some text =>
      have present : before.stamp? name readyKey ≠ none := by simp [held]
      have started := orderly present
      exact absurd ⟨(contains_iff_stamp read startKey).mpr started,
        (contains_iff_stamp read readyKey).mpr present⟩ incomplete
  cases held : before.stamp? name startKey with
  | some text =>
    have started : pod.annotations.contains startKey = true :=
      (contains_iff_stamp read startKey).mpr (by simp [held])
    rw [started, if_pos rfl] at missing
    subst missing
    obtain ⟨ready, rfl⟩ := Option.ne_none_iff_exists'.mp fun none => asks ⟨rfl, none⟩
    constructor
    · rintro key (rfl | rfl) text there
      · rw [atStart, there]
        rfl
      · rw [unready] at there
        cases there
    · intro _
      simp [atStart, held]
    · intro _ _ _
      simp [Pods.missing, atStart, atReady, held, unready]
  | none =>
    have unstarted : ¬ pod.annotations.contains startKey = true := by
      rw [contains_iff_stamp read startKey]
      simp [held]
    rw [if_neg unstarted] at missing
    subst missing
    constructor
    · rintro key (rfl | rfl) text there
      · rw [held] at there
        cases there
      · rw [unready] at there
        cases there
    · intro _
      simp [atStart]
    · intro _ _ _
      have most : (before.patched name patch).missing name ≤ 1 := by
        simp only [Pods.missing, atStart, Option.map_some, Option.some_or, reduceCtorEq, if_false]
        split <;> decide
      have two : before.missing name = 2 := by simp [Pods.missing, held, unready]
      omega

theorem course_advances {run : ReporterRun σ}
    (course : Course settings prober clock start service pods world run)
    (orderly : (pods world).Orderly settings.pod) :
    Advances (pods world) (pods run.world) settings.pod run := by
  cases course with
  | unread _ _ result same => exact advances_unpatched orderly same (by simp [result])
  | complete _ _ _ result same => exact advances_unpatched orderly same (by simp [result])
  | unmeasured _ _ _ _ result same => exact advances_unpatched orderly same (by simp [result])
  | nothing _ _ _ _ _ result same => exact advances_unpatched orderly same (by simp [result])
  | patching pod read incomplete start? ready? _ missing asks patch writes ends =>
    have advanced : Advances (pods world) ((pods world).patched settings.pod patch) settings.pod run :=
      advances_patched orderly read incomplete start? ready? missing asks patch writes
    rcases ends with ⟨_, applied⟩ | ⟨⟨fault, result⟩, same | applied⟩
    · rwa [applied]
    · exact advances_unpatched orderly same (by simp [result])
    · rwa [applied]

/-- One execution of the reporter: its settings, what it meets, and the world that it starts in. -/
structure Execution (σ : Type) where
  settings : ReporterSettings
  prober : Prober
  clock : Nat → Instant
  startedAt : Option Instant
  world : σ

namespace Execution

def run (service : PodService σ) (execution : Execution σ) : ReporterRun σ :=
  Reporter.run execution.settings execution.prober execution.clock execution.startedAt service
    execution.world

def reportsPatch (service : PodService σ) (execution : Execution σ) : Bool :=
  match (execution.run service).result with
  | .ok (.patched _ _) => true
  | _ => false

end Execution

section
variable (service : PodService σ) (name : ObjectName) (pods : σ → Pods)

/-- Executions on one pod, each of which finds the pods as the one before it left them. -/
def Successive : Pods → List (Execution σ) → Prop
  | _, [] => True
  | before, execution :: later =>
    execution.settings.pod = name ∧ pods execution.world = before ∧
      Successive (pods (execution.run service).world) later

def leftBy : Pods → List (Execution σ) → Pods
  | before, [] => before
  | _, execution :: later => leftBy (pods (execution.run service).world) later

variable {service name pods}

theorem successive_append (before : Pods) (earlier later : List (Execution σ)) :
    Successive service name pods before (earlier ++ later) ↔
      Successive service name pods before earlier ∧
        Successive service name pods (leftBy service pods before earlier) later := by
  induction earlier generalizing before with
  | nil => simp [Successive, leftBy]
  | cons execution rest ih => simp only [List.cons_append, Successive, leftBy, ih, and_assoc]

theorem left_append (before : Pods) (earlier later : List (Execution σ)) :
    leftBy service pods before (earlier ++ later) =
      leftBy service pods (leftBy service pods before earlier) later := by
  induction earlier generalizing before with
  | nil => rfl
  | cons execution rest ih => exact ih _

-- Every patch that is reported fills in one of the missing times, so they pay for the reports.
theorem executions_advance (serves : service.Serves name pods) (executions : List (Execution σ))
    (before : Pods) (orderly : before.Orderly name)
    (successive : Successive service name pods before executions) :
    Kept before (leftBy service pods before executions) name ∧
      (leftBy service pods before executions).Orderly name ∧
      (executions.filter (Execution.reportsPatch service)).length +
        (leftBy service pods before executions).missing name ≤ before.missing name := by
  induction executions generalizing before with
  | nil => exact ⟨fun _ _ _ held => held, orderly, by simp [leftBy]⟩
  | cons execution later ih =>
    obtain ⟨own, starts, successive⟩ := successive
    subst own starts
    have advances := course_advances (run_course serves execution.prober execution.clock
      execution.startedAt execution.world) orderly
    change Advances _ (pods (execution.run service).world) _ (execution.run service) at advances
    obtain ⟨kept, ordered, paid⟩ := ih _ advances.orderly successive
    refine ⟨fun key stamp text held => kept key stamp text (advances.kept key stamp text held),
      ordered, ?_⟩
    have fewer := missing_kept advances.kept
    rw [List.filter_cons, leftBy]
    split
    · rename_i reports
      unfold Execution.reportsPatch at reports
      split at reports
      · rename_i start? ready? result
        have less := advances.fewer start? ready? result
        rw [List.length_cons]
        omega
      · cases reports
    · omega

end

structure WrittenOnce (service : PodService σ) (name : ObjectName) (pods : σ → Pods) (before : Pods)
    (executions : List (Execution σ)) : Prop where
  kept : ∀ earlier later, executions = earlier ++ later →
    Kept (leftBy service pods before earlier) (leftBy service pods before executions) name
  ordered : ∀ earlier later, executions = earlier ++ later →
    (leftBy service pods before earlier).Orderly name
  twice : (executions.filter (Execution.reportsPatch service)).length ≤ 2
  settled : ∀ earlier execution later, executions = earlier ++ execution :: later →
    (leftBy service pods before earlier).stamp? name startKey ≠ none →
    (leftBy service pods before earlier).stamp? name readyKey ≠ none →
    (execution.run service).patches = [] ∧
      (Reads execution.settings service execution.world →
        (execution.run service).result = .ok .skipped)

theorem course_settled {run : ReporterRun σ} {pod : Pod}
    (course : Course settings prober clock start service pods world run)
    (held : (pods world).find? settings.pod = some pod) (complete : Complete pod) :
    run.patches = [] ∧ (Reads settings service world → run.result = .ok .skipped) := by
  have same (other : Pod) (read : (pods world).find? settings.pod = some other) : other = pod :=
    Option.some.inj (read.symm.trans held)
  cases course with
  | unread missed _ _ _ unasked => exact ⟨unasked, fun reads => absurd reads missed⟩
  | complete _ _ _ result _ unasked => exact ⟨unasked, fun _ => result⟩
  | unmeasured other read incomplete => exact absurd complete (same other read ▸ incomplete)
  | nothing other read incomplete => exact absurd complete (same other read ▸ incomplete)
  | patching other read incomplete => exact absurd complete (same other read ▸ incomplete)

/-- However often the reporter runs on a pod, whatever becomes of each run: a time that is there
stays, the readiness comes only beside the start, and a pod that has both is left alone. -/
theorem stamps_written_once (service : PodService σ) (name : ObjectName) (pods : σ → Pods)
    (serves : service.Serves name pods) (before : Pods) (orderly : before.Orderly name)
    (executions : List (Execution σ))
    (successive : Successive service name pods before executions) :
    WrittenOnce service name pods before executions where
  kept := by
    rintro earlier later rfl
    obtain ⟨first, rest⟩ := (successive_append _ _ _).mp successive
    have ordered := (executions_advance serves earlier before orderly first).2.1
    rw [left_append]
    exact (executions_advance serves later _ ordered rest).1
  ordered := by
    rintro earlier later rfl
    have first := ((successive_append _ _ _).mp successive).1
    exact (executions_advance serves earlier before orderly first).2.1
  twice := by
    have paid := (executions_advance serves executions before orderly successive).2.2
    have most := before.missing_le_two name
    omega
  settled := by
    rintro earlier execution later rfl started ready
    obtain ⟨_, own, starts, _⟩ := (successive_append _ _ _).mp successive
    subst own
    rw [← starts] at started ready
    have course := run_course serves execution.prober execution.clock execution.startedAt
      execution.world
    cases held : (pods execution.world).find? execution.settings.pod with
    | none =>
      rw [stamp?, held] at started
      exact absurd rfl started
    | some pod =>
      exact course_settled course held
        ⟨(contains_iff_stamp held startKey).mpr started, (contains_iff_stamp held readyKey).mpr ready⟩

-- An execution on the pods that another one has left, with patches failing as told.
def Execution.next (last : Execution ReporterWorld) (answers : List ProbeAnswer) (bestEffort : Bool)
    (patchFaults : List (Option StoreError)) : Execution ReporterWorld :=
  let left := (last.run ReporterWorld.service).world
  { settings := { patientSettings with bestEffort := bestEffort }
    prober := .ofScript answers 10
    clock := Instant.addMillis (last.clock 60000)
    startedAt := none
    world := { left with stores := left.stores.setFaults .patchPod patchFaults } }

-- The target is not reached, then the readiness cannot be written, then all goes well.
def fourExecutions : List (Execution ReporterWorld) :=
  let timeout := some (StoreError.backend "timeout")
  let first : Execution ReporterWorld :=
    ⟨{ patientSettings with bestEffort := true }, .ofScript [.down] 10, Instant.addMillis .epoch,
      none, ⟨⟨⟨.ofPods [barePod], .empty⟩, fun _ => [timeout], []⟩, [some "connection refused"]⟩⟩
  let second := first.next [.up] false [timeout, timeout, timeout]
  let third := second.next [.down, .up] false [timeout]
  [first, second, third, third.next [.up] true []]

theorem four_executions_write_twice :
    let pods := fun world : ReporterWorld => world.podStore.pods
    let before := (PodStore.ofPods [barePod]).pods
    Pods.Orderly before barePod.key ∧
      Successive ReporterWorld.service barePod.key pods before fourExecutions ∧
      fourExecutions.map (fun execution =>
        (execution.run ReporterWorld.service).result.toOption) =
          [some (.patched (some .epoch) none), none,
            some (.patched none (some (Instant.epoch.addMillis 120520))), some .skipped] ∧
      WrittenOnce ReporterWorld.service barePod.key pods before fourExecutions := by
  intro pods before
  have orderly : Pods.Orderly before barePod.key := by
    unfold Pods.Orderly
    decide +kernel
  have successive : Successive ReporterWorld.service barePod.key pods before fourExecutions :=
    ⟨rfl, rfl, rfl, rfl, rfl, rfl, rfl, rfl, trivial⟩
  have outcomes : fourExecutions.map (fun execution =>
      (execution.run ReporterWorld.service).result.toOption) =
        [some (.patched (some .epoch) none), none,
          some (.patched none (some (Instant.epoch.addMillis 120520))), some .skipped] := by
    decide +kernel
  exact ⟨orderly, successive, outcomes,
    stamps_written_once ReporterWorld.service barePod.key pods
      (ReporterWorld.service_serves barePod.key) before orderly fourExecutions successive⟩

end Reporter
end StartupLatency
