import StartupLatency.Proofs.ReporterOutcomes

/-!
What a run of the reporter does to the pods behind its service, whatever service that is: calls take
any time and fail at will, and a patch that fails may have been applied all the same. Nobody else
writes. A run then applies one patch to its own pod, or none, however often it asks for it.
-/

namespace StartupLatency

abbrev Pods := SortedMap ObjectName Pod

namespace Pods

def patched (pods : Pods) (key : ObjectName) (patch : Annotations) : Pods :=
  match pods.find? key with
  | some pod => pods.insert key { pod with annotations := pod.annotations.override patch }
  | none => pods

theorem find_patched (pods : Pods) (key wanted : ObjectName) (patch : Annotations) :
    (patched pods key patch).find? wanted =
      if wanted = key then
        (pods.find? key).map fun pod =>
          { pod with annotations := pod.annotations.override patch }
      else pods.find? wanted := by
  unfold patched
  cases found : pods.find? key with
  | some pod => simp
  | none =>
    by_cases here : wanted = key
    · simp [here, found]
    · simp [here]

theorem override_twice (annotations patch : Annotations) :
    (annotations.override patch).override patch = annotations.override patch := by
  apply SortedMap.ext_find?
  intro key
  cases here : patch.find? key <;> simp [here]

theorem patched_twice (pods : Pods) (key : ObjectName) (patch : Annotations) :
    patched (patched pods key patch) key patch = patched pods key patch := by
  apply SortedMap.ext_find?
  intro wanted
  by_cases here : wanted = key
  · subst here
    cases found : pods.find? wanted <;> simp [find_patched, found, override_twice]
  · simp [find_patched, here]

def stamp? (pods : Pods) (name : ObjectName) (key : String) : Option String :=
  (pods.find? name).bind fun pod => pod.annotations.find? key

theorem stamp_patched {pods : Pods} {name : ObjectName} {pod : Pod}
    (read : pods.find? name = some pod) (patch : Annotations) (key : String) :
    (pods.patched name patch).stamp? name key =
      (patch.find? key).or (pods.stamp? name key) := by
  simp [stamp?, find_patched, read]

theorem contains_iff_stamp {pods : Pods} {name : ObjectName} {pod : Pod}
    (read : pods.find? name = some pod) (key : String) :
    pod.annotations.contains key = true ↔ pods.stamp? name key ≠ none := by
  rw [SortedMap.contains, Option.isSome_iff_ne_none, stamp?, read, Option.bind_some]

end Pods

theorem written_text_start (start? ready? : Option Instant) :
    writtenText? start? ready? startKey = start?.map Instant.format := if_pos rfl

theorem written_text_ready (start? ready? : Option Instant) :
    writtenText? start? ready? readyKey = ready?.map Instant.format := by
  have differ : readyKey ≠ startKey := by decide
  rw [writtenText?, if_neg differ, if_pos rfl]

namespace RetryPolicy

/-- The last call of a loop that succeeds went through in a world that the calls before it led to. -/
theorem run_from_succeeds {call : σ → Reply σ α} (holds : σ → Prop)
    (kept : ∀ world, holds world → holds (call world).world) (policy : RetryPolicy)
    (attempt left : Nat) (lastFault : String) (now : Nat) (world : σ) (value : α)
    (before : holds world)
    (result : (policy.runFrom call attempt left lastFault now world).result = .succeeded value) :
    ∃ last, holds last ∧ (call last).answer = .ok value ∧
      (policy.runFrom call attempt left lastFault now world).world = (call last).world := by
  induction left generalizing attempt lastFault now world with
  | zero => cases result
  | succ left ih =>
    rw [runFrom] at result ⊢
    cases answer : (call world).answer with
    | ok returned =>
      simp only [answer] at result ⊢
      cases result
      exact ⟨world, before, answer, rfl⟩
    | error fault =>
      simp only [answer] at result ⊢
      split at result
      · cases result
      · rename_i more
        simp only [more, ↓reduceIte]
        cases delay : policy.delayAfter? attempt with
        | none =>
          rw [delay] at result
          cases result
        | some delay =>
          simp only [delay] at result ⊢
          exact ih _ _ _ _ (kept world before) result

end RetryPolicy

namespace PodService

/-- The service gives access to one of the pods and nobody else writes it. Any call may fail, and a
patch that fails may have been applied or not. -/
structure Serves (service : PodService σ) (key : ObjectName) (pods : σ → Pods) : Prop where
  connects : ∀ world, pods (service.connect world).world = pods world
  gets : ∀ world, pods (service.get key world).world = pods world
  reads : ∀ world pod, (service.get key world).answer = .ok pod → (pods world).find? key = some pod
  patches : ∀ world patch, pods (service.patch key patch world).world = pods world ∨
    pods (service.patch key patch world).world = (pods world).patched key patch
  writes : ∀ world patch, (service.patch key patch world).answer = .ok () →
    pods (service.patch key patch world).world = (pods world).patched key patch

variable {σ : Type} {service : PodService σ} {key : ObjectName} {pods : σ → Pods}

theorem patch_run_served (serves : service.Serves key pods) (patch : Annotations)
    (policy : RetryPolicy) (now : Nat) (world : σ) :
    let patched := policy.run (service.patch key patch) now world
    (pods patched.world = pods world ∨ pods patched.world = (pods world).patched key patch) ∧
    (patched.result = .succeeded () → pods patched.world = (pods world).patched key patch) := by
  intro patched
  have kept (later : σ)
      (before : pods later = pods world ∨ pods later = (pods world).patched key patch) :
      pods (service.patch key patch later).world = pods world ∨
        pods (service.patch key patch later).world = (pods world).patched key patch := by
    rcases serves.patches later patch with same | applied
    · rwa [same]
    · rcases before with first | again
      · exact Or.inr (by rw [applied, first])
      · exact Or.inr (by rw [applied, again, Pods.patched_twice])
  constructor
  · exact RetryPolicy.run_keeps _ kept policy now world (Or.inl rfl)
  · intro result
    obtain ⟨last, before, ok, after⟩ := RetryPolicy.run_from_succeeds _ kept policy 0
      policy.maxAttempts "" now world () (Or.inl rfl) result
    have written : pods patched.world = (pods last).patched key patch :=
      (congrArg pods after).trans (serves.writes last patch ok)
    rcases before with first | again
    · rw [written, first]
    · rw [written, again, Pods.patched_twice]

end PodService

namespace Reporter

def Reads (settings : ReporterSettings) (service : PodService σ) (world : σ) : Prop :=
  ∃ pod, (settings.retry.run service.connect 0 world).result = .succeeded () ∧
    (got settings service (settings.retry.run service.connect 0 world)).result = .succeeded pod

section
variable {σ : Type} (settings : ReporterSettings) (prober : Prober) (clock : Nat → Instant)
  (start : Instant) (service : PodService σ) (pods : σ → Pods) (world : σ)

/-- The courses of a run, by what it finds on its pod and what it leaves of the pods. -/
inductive Course (run : ReporterRun σ) : Prop where
  | unread (missed : ¬ Reads settings service world) (fault : ReportFault)
      (result : run.result = .error fault) (same : pods run.world = pods world)
      (unasked : run.patches = [])
  | complete (pod : Pod) (read : (pods world).find? settings.pod = some pod)
      (complete : Complete pod) (result : run.result = .ok .skipped)
      (same : pods run.world = pods world) (unasked : run.patches = [])
  | unmeasured (pod : Pod) (read : (pods world).find? settings.pod = some pod)
      (incomplete : ¬ Complete pod) (fault : ReportFault) (result : run.result = .error fault)
      (same : pods run.world = pods world)
  | nothing (pod : Pod) (read : (pods world).find? settings.pod = some pod)
      (incomplete : ¬ Complete pod)
      (measures : measured settings clock (settings.plan.run prober).outcome = .ok none)
      (started : pod.annotations.contains startKey = true) (result : run.result = .ok .skipped)
      (same : pods run.world = pods world)
  | patching (pod : Pod) (read : (pods world).find? settings.pod = some pod)
      (incomplete : ¬ Complete pod) (start? ready? : Option Instant)
      (measures : measured settings clock (settings.plan.run prober).outcome = .ok ready?)
      (missing : start? = if pod.annotations.contains startKey then none else some start)
      (asks : ¬ (start? = none ∧ ready? = none)) (patch : Annotations)
      (writes : ∀ key, patch.find? key = writtenText? start? ready? key)
      (result : (run.result = .ok (.patched start? ready?) ∧
          pods run.world = (pods world).patched settings.pod patch) ∨
        (∃ fault, run.result = .error fault) ∧ (pods run.world = pods world ∨
          pods run.world = (pods world).patched settings.pod patch))

end

variable {σ : Type} {settings : ReporterSettings} {service : PodService σ} {pods : σ → Pods}
  {world : σ}

theorem ok_of_option {result : Except ε α} {value : α} (same : result.toOption = some value) :
    result = .ok value := by
  cases result with
  | error => cases same
  | ok => exact congrArg Except.ok (Option.some.inj same)

theorem settle_error {operation : String} {result : RetryResult α} {fault : ReportFault}
    (failed : settle settings operation result = .error fault) (value : α) :
    result ≠ .succeeded value := by
  rintro rfl
  cases failed

theorem connected_served (serves : service.Serves settings.pod pods) (world : σ) :
    pods (settings.retry.run service.connect 0 world).world = pods world :=
  RetryPolicy.run_keeps (fun later => pods later = pods world)
    (fun later same => (serves.connects later).trans same) settings.retry 0 world rfl

theorem got_served (serves : service.Serves settings.pod pods) (connected : Retried σ Unit) :
    pods (got settings service connected).world = pods connected.world :=
  RetryPolicy.run_keeps (fun later => pods later = pods connected.world)
    (fun later same => (serves.gets later).trans same) settings.retry _ _ rfl

theorem got_read (serves : service.Serves settings.pod pods) {connected : Retried σ Unit}
    {pod : Pod} (gets : (got settings service connected).result = .succeeded pod) :
    (pods connected.world).find? settings.pod = some pod := by
  obtain ⟨last, same, ok, _⟩ := RetryPolicy.run_from_succeeds
    (fun later => pods later = pods connected.world)
    (fun later same => (serves.gets later).trans same) settings.retry 0 settings.retry.maxAttempts
    "" connected.finish connected.world pod rfl gets
  rw [← same]
  exact serves.reads last pod ok

theorem course_of_reported {prober : Prober} {clock : Nat → Instant} {start : Instant}
    {connects : List Attempt} {got : Retried σ Pod} {pod : Pod} {run : ReporterRun σ}
    (serves : service.Serves settings.pod pods)
    (reported : Reported settings prober clock start service connects got pod run)
    (same : pods got.world = pods world) (read : (pods world).find? settings.pod = some pod) :
    Course settings prober clock start service pods world run := by
  cases reported with
  | complete complete => exact .complete pod read complete rfl same rfl
  | unmeasured incomplete fault => exact .unmeasured pod read incomplete fault rfl same
  | nothing incomplete measures started =>
    exact .nothing pod read incomplete measures started rfl same
  | patched incomplete start? ready? measures missing asks time patch writes patched tries =>
    refine .patching pod read incomplete start? ready? measures missing asks patch writes ?_
    obtain ⟨either, applied⟩ :=
      PodService.patch_run_served serves patch settings.retry time got.world
    rw [← tries, same] at either applied
    cases settled : settle settings patching patched.result with
    | ok value => exact Or.inl ⟨rfl, applied ((settle_ok_iff _ _ _).mp settled)⟩
    | error fault => exact Or.inr ⟨⟨fault, rfl⟩, either⟩

/-- Every run takes one of the courses, however its calls fail and whenever its probe ends. -/
theorem run_course (serves : service.Serves settings.pod pods) (prober : Prober)
    (clock : Nat → Instant) (startedAt : Option Instant) (world : σ) :
    Course settings prober clock (startedAt.getD (clock 0)) service pods world
      (run settings prober clock startedAt service world) := by
  have connectedSame := connected_served serves world
  have gotSame := (got_served serves (settings.retry.run service.connect 0 world)).trans
    connectedSame
  simp only [run]
  cases connects : settle settings connecting
    (settings.retry.run service.connect 0 world).result with
  | error fault =>
    refine .unread ?_ fault rfl connectedSame rfl
    rintro ⟨_, succeeded, _⟩
    exact settle_error connects () succeeded
  | ok _ =>
    cases gets : settle settings getting
      (got settings service (settings.retry.run service.connect 0 world)).result with
    | error fault =>
      refine .unread ?_ fault rfl gotSame rfl
      rintro ⟨pod, _, succeeded⟩
      exact settle_error gets pod succeeded
    | ok pod =>
      have read := got_read serves ((settle_ok_iff _ _ _).mp gets)
      rw [connectedSame] at read
      exact course_of_reported serves (report_cases _ _ _ _ _ _ _ _) gotSame read

/-- A run that reports a patch has made it, of what it has measured. -/
theorem course_patched {prober : Prober} {clock : Nat → Instant} {start : Instant}
    {run : ReporterRun σ} {start? ready? : Option Instant}
    (course : Course settings prober clock start service pods world run)
    (reported : run.result = .ok (.patched start? ready?)) :
    ∃ pod patch, (pods world).find? settings.pod = some pod ∧
      start? = (if pod.annotations.contains startKey then none else some start) ∧
      measured settings clock (settings.plan.run prober).outcome = .ok ready? ∧
      (∀ key, patch.find? key = writtenText? start? ready? key) ∧
      pods run.world = (pods world).patched settings.pod patch := by
  cases course with
  | unread _ _ result => cases result.symm.trans reported
  | complete _ _ _ result => cases result.symm.trans reported
  | unmeasured _ _ _ _ result => cases result.symm.trans reported
  | nothing _ _ _ _ _ result => cases result.symm.trans reported
  | patching pod read _ start? ready? measures missing _ patch writes ends =>
    rcases ends with ⟨result, applied⟩ | ⟨⟨_, result⟩, _⟩
    · cases result.symm.trans reported
      exact ⟨pod, patch, read, missing, measures, writes, applied⟩
    · cases result.symm.trans reported

end Reporter

namespace ReporterWorld

theorem patch_pods (store : PodStore) (key : ObjectName) (patch : Annotations) :
    (store.patch key patch).2.pods = Pods.patched store.pods key patch := by
  unfold PodStore.patch Pods.patched
  cases store.pods.find? key <;> rfl

/-- Calls to the store in memory that their scripts stop have no effect. -/
theorem service_serves (key : ObjectName) :
    service.Serves key fun world => world.podStore.pods where
  connects world := by rw [podStore, connect_stores, podStore]
  gets world := by rw [get_pods]
  reads world pod ok := by
    rcases get_cases key world with ⟨error, _, stopped⟩ | ⟨_, passed⟩
    · rw [stopped] at ok
      cases ok
    · rw [passed, PodStore.get] at ok
      cases found : world.podStore.pods.find? key with
      | none =>
        rw [found] at ok
        cases ok
      | some held =>
        rw [found] at ok
        cases ok
        rfl
  patches world patch := by
    cases next : (world.stores.faults .patchPod).head?.join with
    | some error =>
      have stopped : service.patch key patch world = _ := call_stopped _ next
      rw [stopped]
      exact Or.inl rfl
    | none =>
      have passed : service.patch key patch world = _ := call_passed _ next
      rw [passed]
      exact Or.inr (patch_pods world.podStore key patch)
  writes world patch ok := by
    cases next : (world.stores.faults .patchPod).head?.join with
    | some error =>
      have stopped : service.patch key patch world = _ := call_stopped _ next
      rw [stopped] at ok
      cases ok
    | none =>
      have passed : service.patch key patch world = _ := call_passed _ next
      rw [passed]
      exact patch_pods world.podStore key patch

end ReporterWorld

namespace Reporter

-- Settings and a pod for runs that are written out.
def patientSettings : ReporterSettings :=
  ⟨⟨"perf", "a"⟩, "tcp://10.0.0.1:80", .ofSeconds 2, .ofMillis 500, false, ⟨.ofMillis 100, 3⟩⟩

def barePod : Pod := .annotated [("checksum", "1")]

end Reporter
end StartupLatency
