import StartupLatency.Reporter
import StartupLatency.Proofs.Intake
import StartupLatency.Proofs.ProbeAttempts
import StartupLatency.Proofs.RetriedCalls

/-!
What the end of a reporter's run says about the pods. A run either reports a patch, and then
exactly one patch was applied, to its own pod and to no more than the reported annotations, or it
reports none, and then nothing was written. A probe that comes down takes the run with it, whether
or not its answer was needed.
-/

namespace StartupLatency

def writtenText? (start? ready? : Option Instant) (key : String) : Option String :=
  if key = startKey then start?.map Instant.format
  else if key = readyKey then ready?.map Instant.format
  else none

theorem find_annotation_patch (hasStart : Bool) (start : Instant) (ready? : Option Instant)
    (key : String) :
    (annotationPatch hasStart start ready?).find? key =
      writtenText? (if hasStart then none else some start) ready? key := by
  have differ : startKey ≠ readyKey := by decide
  have blank : (∅ : Annotations).find? key = none := rfl
  by_cases atStart : key = startKey
  · subst atStart
    cases hasStart <;> cases ready? <;> simp [annotationPatch, writtenText?, differ, blank]
  · cases hasStart <;> cases ready? <;> simp [annotationPatch, writtenText?, atStart, blank]

theorem written_text_none (start? ready? : Option Instant) :
    (∀ key, writtenText? start? ready? key = none) ↔ start? = none ∧ ready? = none := by
  constructor
  · intro unwritten
    have atStart := unwritten startKey
    have atReady := unwritten readyKey
    have differ : readyKey ≠ startKey := by decide
    simpa [writtenText?, differ] using And.intro atStart atReady
  · rintro ⟨rfl, rfl⟩ key
    simp [writtenText?]

theorem annotation_patch_empty (hasStart : Bool) (start : Instant) (ready? : Option Instant) :
    (annotationPatch hasStart start ready?).isEmpty = true ↔
      hasStart = true ∧ ready? = none := by
  simp only [SortedMap.isEmpty_iff, find_annotation_patch, written_text_none]
  cases hasStart <;> simp

namespace Reporter

def Complete (pod : Pod) : Prop :=
  pod.annotations.contains startKey = true ∧ pod.annotations.contains readyKey = true

section
variable {σ : Type} (settings : ReporterSettings) (prober : Prober) (clock : Nat → Instant)
  (start : Instant) (service : PodService σ)

inductive Reported (connects : List Attempt) (got : Retried σ Pod) (pod : Pod) :
    ReporterRun σ → Prop where
  | complete (complete : Complete pod) :
      Reported connects got pod
        ⟨.ok .skipped, got.finish, connects, got.attempts, [], none, got.world⟩
  | unmeasured (incomplete : ¬ Complete pod) (fault : ReportFault)
      (measures : measured settings clock (settings.plan.run prober).outcome = .error fault)
      (time : Nat) :
      Reported connects got pod
        ⟨.error fault, time, connects, got.attempts, [], some (settings.plan.run prober), got.world⟩
  | nothing (incomplete : ¬ Complete pod)
      (measures : measured settings clock (settings.plan.run prober).outcome = .ok none)
      (started : pod.annotations.contains startKey = true) (time : Nat) :
      Reported connects got pod
        ⟨.ok .skipped, time, connects, got.attempts, [], some (settings.plan.run prober), got.world⟩
  | patched (incomplete : ¬ Complete pod) (start? ready? : Option Instant)
      (measures : measured settings clock (settings.plan.run prober).outcome = .ok ready?)
      (missing : start? = if pod.annotations.contains startKey then none else some start)
      (asks : ¬ (start? = none ∧ ready? = none)) (time : Nat) (patch : Annotations)
      (writes : ∀ key, patch.find? key = writtenText? start? ready? key)
      (patched : Retried σ Unit)
      (tries : patched = settings.retry.run (service.patch settings.pod patch) time got.world) :
      Reported connects got pod
        ⟨(settle settings patching patched.result).map fun () => .patched start? ready?,
          patched.finish, connects, got.attempts, patched.attempts,
          some (settings.plan.run prober), patched.world⟩

theorem report_cases (connects : List Attempt) (got : Retried σ Pod) (pod : Pod) :
    Reported settings prober clock start service connects got pod
      (report settings prober clock start service connects got pod) := by
  rw [report]
  split
  · rename_i both
    exact .complete (by simpa [Complete] using both)
  · rename_i missing
    have incomplete : ¬ Complete pod := by simpa [Complete] using missing
    cases measures : measured settings clock (settings.plan.run prober).outcome with
    | error fault =>
      simp only [measures]
      exact .unmeasured incomplete fault measures _
    | ok ready? =>
      have empty := annotation_patch_empty (pod.annotations.contains startKey) start ready?
      simp only [measures]
      by_cases blank : (annotationPatch (pod.annotations.contains startKey) start ready?).isEmpty
      · obtain ⟨started, rfl⟩ := empty.mp blank
        rw [if_pos blank]
        exact .nothing incomplete measures started _
      · rw [if_neg blank]
        rw [empty] at blank
        refine .patched incomplete _ ready? measures rfl (by simpa using blank) _ _
          (find_annotation_patch _ start ready?) _ rfl

end

variable {σ : Type} {settings : ReporterSettings} {prober : Prober} {clock : Nat → Instant}

theorem settle_ok_iff (operation : String) (result : RetryResult α) (value : α) :
    settle settings operation result = .ok value ↔ result = .succeeded value := by
  cases result <;> simp [settle]

theorem settle_exhausted {operation : String} {call : σ → Reply σ α} {calls : Nat} {world : σ}
    {run : Retried σ α} {fault : ReportFault} (ends : RetryPolicy.Ends call calls world run)
    (failed : settle settings operation run.result = .error fault) :
    ∃ lastFault, fault = .retriesExhausted operation settings.retry.maxAttempts lastFault := by
  cases ends with
  | succeeds _ _ value _ _ result =>
    rw [result] at failed
    cases failed
  | exhausts lastFault _ result =>
    rw [result] at failed
    cases failed
    exact ⟨lastFault, rfl⟩

theorem measured_error (waits : 0 < settings.interval.totalNanos) {fault : ReportFault}
    (measures : measured settings clock (settings.plan.run prober).outcome = .error fault) :
    fault = .probeTimeout settings.timeout ∨ fault = .probeCrashed := by
  have ends := settings.plan.run_ends prober (Duration.ticks_pos waits)
  generalize (settings.plan.run prober).outcome = outcome at ends measures
  cases ends with
  | ready => cases measures
  | crashed =>
    cases measures
    exact Or.inr rfl
  | timedOut time =>
    cases effort : settings.bestEffort <;> simp [measured, effort] at measures
    exact Or.inl measures.symm

theorem measured_none_iff (waits : 0 < settings.interval.totalNanos) :
    measured settings clock (settings.plan.run prober).outcome = .ok none ↔
      settings.plan.Fails prober ∧ settings.bestEffort = true := by
  rw [settings.plan.run_fails_iff prober (Duration.ticks_pos waits)]
  cases (settings.plan.run prober).outcome <;> simp [measured]

theorem measured_timeout_iff (waits : 0 < settings.interval.totalNanos) (limit : Duration) :
    measured settings clock (settings.plan.run prober).outcome = .error (.probeTimeout limit) ↔
      settings.plan.Fails prober ∧ settings.bestEffort = false ∧ settings.timeout = limit := by
  rw [settings.plan.run_fails_iff prober (Duration.ticks_pos waits)]
  cases effort : settings.bestEffort <;> cases (settings.plan.run prober).outcome <;>
    simp [measured, effort]

theorem measured_crashed_iff (clock : Nat → Instant) (waits : 0 < settings.interval.totalNanos) :
    measured settings clock (settings.plan.run prober).outcome = .error .probeCrashed ↔
      settings.plan.Crashes prober := by
  rw [settings.plan.run_crashes_iff prober (Duration.ticks_pos waits)]
  cases effort : settings.bestEffort <;> cases (settings.plan.run prober).outcome <;>
    simp [measured, effort]

/-- Nothing is left to write: both times are there, or only the readiness is not and it cannot be
measured, which is let pass. -/
def NothingDue (settings : ReporterSettings) (prober : Prober) (pod : Pod) : Prop :=
  Complete pod ∨
    (pod.annotations.contains startKey = true ∧ settings.plan.Fails prober ∧
      settings.bestEffort = true)

theorem nothing_due_iff (clock : Nat → Instant) (waits : 0 < settings.interval.totalNanos)
    {pod : Pod} (incomplete : ¬ Complete pod) :
    NothingDue settings prober pod ↔
      pod.annotations.contains startKey = true ∧
        measured settings clock (settings.plan.run prober).outcome = .ok none := by
  rw [NothingDue, measured_none_iff waits, or_iff_right incomplete]

end Reporter

namespace ReporterWorld

def podStore (world : ReporterWorld) : PodStore := world.stores.stores.pods

def Holds (key : ObjectName) (pod : Pod) (world : ReporterWorld) : Prop :=
  world.podStore.pods.find? key = some pod

-- The world once a call has taken its entry off the script of its method.
def spent (world : ReporterWorld) (method : StoreMethod) : ReporterWorld :=
  { world with stores := world.stores.setFaults method (world.stores.faults method).tail }

variable {method : StoreMethod} {world : ReporterWorld} {key : ObjectName} {pod : Pod}

theorem connect_stores (world : ReporterWorld) :
    (service.connect world).world.stores = world.stores := by
  rcases world with ⟨stores, _ | ⟨_ | fault, rest⟩⟩ <;> rfl

theorem connect_scripted :
    RetryPolicy.Scripted service.connect ReporterWorld.connects fun _ => True where
  fails_iff world _ := by
    rcases world with ⟨stores, _ | ⟨_ | fault, rest⟩⟩ <;>
      simp [RetryPolicy.Fails, service, connect]
  advances world := by
    rcases world with ⟨stores, _ | ⟨_ | fault, rest⟩⟩ <;> rfl
  kept _ _ _ := trivial

theorem call_stopped (run : ScriptedStores → Except StoreError α × ScriptedStores)
    {error : StoreError} (next : (world.stores.faults method).head?.join = some error) :
    ofCall (ScriptedStores.call method run) world =
      ⟨0, .error error.message, world.spent method⟩ := by
  rw [ofCall, ScriptedStores.call_stopped run next]
  rfl

theorem call_passed (run : ScriptedStores → Except StoreError α × ScriptedStores)
    (next : (world.stores.faults method).head?.join = none) :
    ofCall (ScriptedStores.call method run) world = ofCall run (world.spent method) := by
  rw [ofCall, ScriptedStores.call_passed run next]
  rfl

theorem get_cases (key : ObjectName) (world : ReporterWorld) :
    (∃ error, (world.stores.faults .getPod).head?.join = some error ∧
      service.get key world = ⟨0, .error error.message, world.spent .getPod⟩) ∨
    ((world.stores.faults .getPod).head?.join = none ∧
      service.get key world =
        ⟨0, (world.podStore.get key).mapError StoreError.message, world.spent .getPod⟩) := by
  cases next : (world.stores.faults .getPod).head?.join with
  | some error => exact Or.inl ⟨error, rfl, call_stopped _ next⟩
  | none => exact Or.inr ⟨rfl, call_passed _ next⟩

theorem get_pods (key : ObjectName) (world : ReporterWorld) :
    (service.get key world).world.podStore = world.podStore := by
  rcases get_cases key world with ⟨error, _, stopped⟩ | ⟨_, passed⟩
  · rw [stopped]
    rfl
  · rw [passed]
    rfl

theorem get_held (held : world.Holds key pod) {value : Pod}
    (ok : (service.get key world).answer = .ok value) : value = pod := by
  rcases get_cases key world with ⟨error, _, stopped⟩ | ⟨_, passed⟩
  · rw [stopped] at ok
    cases ok
  · have found : world.podStore.get key = .ok pod := by rw [PodStore.get, held]
    rw [passed, found] at ok
    cases ok
    rfl

theorem get_scripted (key : ObjectName) (pod : Pod) :
    RetryPolicy.Scripted (service.get key) (fun world => world.stores.faults .getPod)
      (Holds key pod) where
  fails_iff world held := by
    rcases get_cases key world with ⟨error, next, stopped⟩ | ⟨next, passed⟩
    · simp [RetryPolicy.Fails, stopped, next]
    · have found : world.podStore.get key = .ok pod := by rw [PodStore.get, held]
      have ok : (service.get key world).answer = .ok pod := by
        rw [passed, found]
        rfl
      simp [RetryPolicy.Fails, ok, next]
  advances world := by
    rcases get_cases key world with ⟨error, next, stopped⟩ | ⟨next, passed⟩
    · simp [stopped, spent, ScriptedStores.setFaults]
    · simp [passed, spent, ScriptedStores.setFaults]
  kept world held _ := by rwa [Holds, get_pods]

def patchedPods (world : ReporterWorld) (key : ObjectName) (pod : Pod) (patch : Annotations) :
    PodStore :=
  ⟨world.podStore.pods.insert key { pod with annotations := pod.annotations.override patch },
    world.podStore.patchCalls + 1⟩

theorem patch_cases (held : world.Holds key pod) (patch : Annotations) :
    (RetryPolicy.Fails (service.patch key patch) world ∧
      (service.patch key patch world).world.podStore = world.podStore) ∨
    ((service.patch key patch world).answer = .ok () ∧
      (service.patch key patch world).world.podStore = world.patchedPods key pod patch) := by
  cases next : (world.stores.faults .patchPod).head?.join with
  | some error =>
    have stopped : service.patch key patch world = _ := call_stopped _ next
    rw [RetryPolicy.Fails, stopped]
    exact Or.inl ⟨⟨_, rfl⟩, rfl⟩
  | none =>
    have passed : service.patch key patch world = _ := call_passed _ next
    have answer : (service.patch key patch world).answer =
        (world.podStore.patch key patch).1.mapError StoreError.message := by
      rw [passed]
      rfl
    have after : (service.patch key patch world).world.podStore =
        (world.podStore.patch key patch).2 := by
      rw [passed]
      rfl
    have found : world.podStore.patch key patch = (.ok (), world.patchedPods key pod patch) := by
      rw [PodStore.patch, held]
      rfl
    rw [found] at answer after
    exact Or.inr ⟨answer, after⟩

/-- Retried patches change nothing until one goes through, and that one ends them. -/
theorem patch_run_cases (held : world.Holds key pod) (patch : Annotations) (policy : RetryPolicy)
    (lasting : policy.Lasting) (now : Nat) :
    let patched := policy.run (service.patch key patch) now world
    (patched.result = .succeeded () ∧ (RetryPolicy.passed patched.attempts).length = 1 ∧
      patched.world.podStore = world.patchedPods key pod patch) ∨
    ((∃ fault, patched.result = .exhausted fault) ∧
      patched.world.podStore = world.podStore) := by
  have untouched (calls : Nat)
      (stumbles : RetryPolicy.Stumbles (service.patch key patch) calls world) :
      (RetryPolicy.worldAfter (service.patch key patch) calls world).podStore =
        world.podStore := by
    refine RetryPolicy.stumbles_keeps (fun later => later.podStore = world.podStore)
      (fun later same fails => ?_) calls world stumbles rfl
    have laterHeld : later.Holds key pod := by rwa [Holds, same]
    rcases patch_cases laterHeld patch with ⟨_, kept⟩ | ⟨ok, _⟩
    · exact kept.trans same
    · obtain ⟨fault, error⟩ := fails
      cases ok.symm.trans error
  cases policy.run_ends (service.patch key patch) now world lasting with
  | succeeds failed _ value stumbles ok result after one =>
    have same := untouched failed stumbles
    have laterHeld :
        (RetryPolicy.worldAfter (service.patch key patch) failed world).Holds key pod := by
      rwa [Holds, same]
    rcases patch_cases laterHeld patch with ⟨⟨fault, error⟩, _⟩ | ⟨_, patched⟩
    · cases ok.symm.trans error
    · refine Or.inl ⟨result, one, ?_⟩
      rw [after, patched, patchedPods, same]
      rfl
  | exhausts fault stumbles result after =>
    refine Or.inr ⟨⟨fault, result⟩, ?_⟩
    rw [after, untouched _ stumbles]

end ReporterWorld

namespace Reporter
open ReporterWorld

def Reachable (settings : ReporterSettings) (world : ReporterWorld) : Prop :=
  RetryPolicy.LetsThrough world.connects settings.retry.maxAttempts ∧
    RetryPolicy.LetsThrough (world.stores.faults .getPod) settings.retry.maxAttempts

/-- What a run tells about the pods, its own pod having been there before. -/
structure Told (settings : ReporterSettings) (prober : Prober) (before : ReporterWorld) (pod : Pod)
    (run : ReporterRun ReporterWorld) : Prop where
  unchanged : (∀ start? ready?, run.result ≠ .ok (.patched start? ready?)) →
    run.world.podStore = before.podStore
  -- One patch is applied, to the pod's annotations, and it writes the reported instants.
  patched : ∀ start? ready?, run.result = .ok (.patched start? ready?) →
    (RetryPolicy.passed run.patches).length = 1 ∧
    ∃ annotations : Annotations,
      run.world.podStore =
        ⟨before.podStore.pods.insert settings.pod { pod with annotations := annotations },
          before.podStore.patchCalls + 1⟩ ∧
      ∀ key, annotations.find? key =
        (writtenText? start? ready? key).or (pod.annotations.find? key)
  skipped : Reachable settings before →
    (run.result = .ok .skipped ↔ NothingDue settings prober pod)
  timedOut : ∀ limit, run.result = .error (.probeTimeout limit) →
    settings.timeout = limit ∧ settings.plan.Fails prober ∧ settings.bestEffort = false ∧
      ¬ Complete pod ∧ run.patches = []
  crashed : Reachable settings before →
    (run.result = .error .probeCrashed ↔ ¬ Complete pod ∧ settings.plan.Crashes prober)
  -- The probe has an end, and the delays stay in the range of durations.
  ends : run.result ≠ .error .probeEndless ∧ run.result ≠ .error .delayOverflow

variable {settings : ReporterSettings} {prober : Prober} {clock : Nat → Instant} {start : Instant}
  {world : ReporterWorld} {pod : Pod}

theorem connected_stores (settings : ReporterSettings) (world : ReporterWorld) :
    (settings.retry.run service.connect 0 world).world.stores = world.stores :=
  RetryPolicy.run_keeps (fun later => later.stores = world.stores)
    (fun later same => (connect_stores later).trans same) settings.retry 0 world rfl

theorem got_pods (settings : ReporterSettings) (connected : Retried ReporterWorld Unit) :
    (got settings service connected).world.podStore = connected.world.podStore :=
  RetryPolicy.run_keeps (fun later => later.podStore = connected.world.podStore)
    (fun later same => (ReporterWorld.get_pods _ later).trans same) settings.retry _ _ rfl

theorem got_held {connected : Retried ReporterWorld Unit} {value : Pod}
    (held : connected.world.Holds settings.pod pod) (lasting : settings.retry.Lasting)
    (gets : (got settings service connected).result = .succeeded value) : value = pod := by
  cases settings.retry.run_ends (service.get settings.pod) connected.finish connected.world
    lasting with
  | succeeds failed _ read stumbles ok result =>
    have same : read = value := by
      cases result.symm.trans gets
      rfl
    have laterHeld := RetryPolicy.stumbles_keeps _ (get_scripted settings.pod pod).kept failed _
      stumbles held
    exact same ▸ get_held laterHeld ok
  | exhausts _ _ result => cases result.symm.trans gets

theorem reads_iff_reachable (held : world.Holds settings.pod pod)
    (lasting : settings.retry.Lasting) :
    let connected := settings.retry.run service.connect 0 world
    connected.result = .succeeded () ∧ (got settings service connected).result = .succeeded pod ↔
      Reachable settings world := by
  intro connected
  have stores : connected.world.stores = world.stores := connected_stores settings world
  have stillHeld : connected.world.Holds settings.pod pod := by
    rwa [Holds, podStore, stores]
  have connects := RetryPolicy.run_succeeds_iff connect_scripted settings.retry 0 world lasting
    trivial
  have gets := RetryPolicy.run_succeeds_iff (get_scripted settings.pod pod) settings.retry
    connected.finish connected.world lasting stillHeld
  rw [stores] at gets
  rw [Reachable, ← connects, ← gets]
  constructor
  · rintro ⟨connects, gets⟩
    exact ⟨⟨(), connects⟩, ⟨pod, gets⟩⟩
  · rintro ⟨⟨_, connects⟩, ⟨value, gets⟩⟩
    have same : value = pod := got_held stillHeld lasting gets
    exact ⟨connects, same ▸ gets⟩

/-- A run that reports no patch and leaves the pods alone. -/
theorem told_of_unwritten {run : ReporterRun ReporterWorld}
    (same : run.world.podStore = world.podStore)
    (unpatched : ∀ start? ready?, run.result ≠ .ok (.patched start? ready?))
    (skipped : Reachable settings world →
      (run.result = .ok .skipped ↔ NothingDue settings prober pod))
    (timedOut : ∀ limit, run.result = .error (.probeTimeout limit) →
      settings.timeout = limit ∧ settings.plan.Fails prober ∧ settings.bestEffort = false ∧
        ¬ Complete pod ∧ run.patches = [])
    (crashed : Reachable settings world →
      (run.result = .error .probeCrashed ↔ ¬ Complete pod ∧ settings.plan.Crashes prober))
    (ends : run.result ≠ .error .probeEndless ∧ run.result ≠ .error .delayOverflow) :
    Told settings prober world pod run where
  unchanged _ := same
  patched start? ready? reported := absurd reported (unpatched start? ready?)
  skipped := skipped
  timedOut := timedOut
  crashed := crashed
  ends := ends

theorem told_of_unread {run : ReporterRun ReporterWorld} {operation lastFault : String}
    {attempts : Nat} (result : run.result = .error (.retriesExhausted operation attempts lastFault))
    (same : run.world.podStore = world.podStore) (unreachable : ¬ Reachable settings world) :
    Told settings prober world pod run := by
  apply told_of_unwritten same
  · simp [result]
  · intro reachable
    exact absurd reachable unreachable
  · simp [result]
  · intro reachable
    exact absurd reachable unreachable
  · simp [result]

theorem told_of_reported {connects : List Attempt} {got : Retried ReporterWorld Pod}
    {run : ReporterRun ReporterWorld}
    (reported : Reported settings prober clock start service connects got pod run)
    (same : got.world.podStore = world.podStore) (held : world.Holds settings.pod pod)
    (waits : 0 < settings.interval.totalNanos) (lasting : settings.retry.Lasting) :
    Told settings prober world pod run := by
  have crashes : measured settings clock (settings.plan.run prober).outcome =
      .error .probeCrashed ↔ settings.plan.Crashes prober := measured_crashed_iff clock waits
  cases reported with
  | complete complete =>
    apply told_of_unwritten same
    · simp
    · exact fun _ => iff_of_true rfl (Or.inl complete)
    · simp
    · simp [complete]
    · simp
  | unmeasured incomplete fault measures time =>
    apply told_of_unwritten same
    · simp
    · intro _
      rw [nothing_due_iff clock waits incomplete, measures]
      simp
    · intro limit timedOut
      cases timedOut
      obtain ⟨fails, effort, limit_eq⟩ := (measured_timeout_iff waits limit).mp measures
      exact ⟨limit_eq, fails, effort, incomplete, rfl⟩
    · simp [incomplete, ← crashes, measures]
    · rcases measured_error waits measures with rfl | rfl <;> simp
  | nothing incomplete measures started time =>
    apply told_of_unwritten same
    · simp
    · intro _
      exact iff_of_true rfl ((nothing_due_iff clock waits incomplete).mpr ⟨started, measures⟩)
    · simp
    · simp [← crashes, measures]
    · simp
  | patched incomplete start? ready? measures missing asks time patch writes patched tries =>
    have due : ¬ NothingDue settings prober pod := by
      rw [nothing_due_iff clock waits incomplete, measures]
      rintro ⟨started, unmeasured⟩
      rw [started, if_pos rfl] at missing
      cases unmeasured
      exact asks ⟨missing, rfl⟩
    have stillHeld : got.world.Holds settings.pod pod := by rwa [Holds, same]
    have ended := patch_run_cases stillHeld patch settings.retry lasting time
    rw [← tries] at ended
    rcases ended with ⟨result, one, written⟩ | ⟨⟨fault, result⟩, kept⟩
    · simp only [result, settle, Except.map]
      constructor
      · intro unpatched
        exact absurd rfl (unpatched start? ready?)
      · intro _ _ reported
        cases reported
        refine ⟨one, pod.annotations.override patch, ?_, ?_⟩
        · rw [written, patchedPods, same]
        · intro key
          rw [SortedMap.find?_override, writes]
      · simp [due]
      · simp
      · simp [← crashes, measures]
      · simp
    · simp only [result, settle, Except.map]
      apply told_of_unwritten (kept.trans same)
      · simp
      · simp [due]
      · simp
      · simp [← crashes, measures]
      · simp

/-- However calls fail, whatever the probe meets: a run that reports a patch has made just that
one, and any other run has left all pods as they were. Once the pod is read, a run is skipped just
where nothing is due, and comes down just where its probe does. -/
theorem run_tells_what_was_written (settings : ReporterSettings) (prober : Prober)
    (clock : Nat → Instant) (startedAt : Option Instant) (world : ReporterWorld) (pod : Pod)
    (held : world.Holds settings.pod pod) (waits : 0 < settings.interval.totalNanos)
    (lasting : settings.retry.Lasting) :
    Told settings prober world pod (run settings prober clock startedAt service world) := by
  have reads := reads_iff_reachable held lasting
  have stores := connected_stores settings world
  have connectedSame : (settings.retry.run service.connect 0 world).world.podStore =
      world.podStore := by rw [podStore, stores, podStore]
  have gotSame := (got_pods settings (settings.retry.run service.connect 0 world)).trans
    connectedSame
  have connectedEnds := settings.retry.run_ends service.connect 0 world lasting
  have gotEnds := settings.retry.run_ends (service.get settings.pod)
    (settings.retry.run service.connect 0 world).finish
    (settings.retry.run service.connect 0 world).world lasting
  simp only [run]
  cases connects : settle settings connecting
    (settings.retry.run service.connect 0 world).result with
  | error fault =>
    obtain ⟨_, rfl⟩ := settle_exhausted connectedEnds connects
    refine told_of_unread rfl connectedSame fun reachable => ?_
    cases connects.symm.trans ((settle_ok_iff _ _ _).mpr (reads.mpr reachable).1)
  | ok _ =>
    cases gets : settle settings getting
      (got settings service (settings.retry.run service.connect 0 world)).result with
    | error fault =>
      obtain ⟨_, rfl⟩ := settle_exhausted gotEnds gets
      refine told_of_unread rfl gotSame fun reachable => ?_
      cases gets.symm.trans ((settle_ok_iff _ _ _).mpr (reads.mpr reachable).2)
    | ok value =>
      have stillHeld :
          (settings.retry.run service.connect 0 world).world.Holds settings.pod pod := by
        rwa [Holds, connectedSame]
      have read : value = pod := got_held stillHeld lasting ((settle_ok_iff _ _ _).mp gets)
      subst read
      exact told_of_reported (report_cases _ _ _ _ _ _ _ _) gotSame held waits lasting

def stalePod : Pod := .annotated [("checksum", "1"), (readyKey, "soon")]

-- The first call of each kind fails, and so does the first attempt to reach the target.
def flakyWorld : ReporterWorld :=
  { stores :=
      { ScriptedStores.ofStores ⟨.ofPods [{ earlyPod with name := "b" }, stalePod], .empty⟩ with
        faults := fun _ => [some (.backend "timeout")] }
    connects := [some "connection refused"] }

def flakySettings : ReporterSettings :=
  ⟨stalePod.key, "tcp://10.0.0.1:80", .ofSeconds 60, .ofMillis 500, false, ⟨.ofMillis 100, 3⟩⟩

theorem flaky_run_tells :
    let prober := Prober.ofScript [.down, .up] 10
    let clock := Instant.addMillis .epoch
    flakyWorld.Holds flakySettings.pod stalePod ∧ 0 < flakySettings.interval.totalNanos ∧
      flakySettings.retry.Lasting ∧
      (run flakySettings prober clock none service flakyWorld).result.toOption =
        some (.patched (some (clock 0)) (some (clock 520))) ∧
      Told flakySettings prober flakyWorld stalePod
        (run flakySettings prober clock none service flakyWorld) := by
  intro prober clock
  have held : flakyWorld.Holds flakySettings.pod stalePod := by
    rw [Holds]
    decide +kernel
  have waits : 0 < flakySettings.interval.totalNanos := by decide
  have lasting : flakySettings.retry.Lasting := by decide
  have result : (run flakySettings prober clock none service flakyWorld).result.toOption =
      some (.patched (some (clock 0)) (some (clock 520))) := by decide +kernel
  exact ⟨held, waits, lasting, result,
    run_tells_what_was_written flakySettings prober clock none flakyWorld stalePod held waits
      lasting⟩

/-- With the start there already, best effort makes do without a success of the probe, whatever
keeps it from succeeding. -/
def SkipsUnmeasured (settings : ReporterSettings) (prober : Prober) : Prop :=
  ∀ (clock : Nat → Instant) (startedAt : Option Instant) (world : ReporterWorld) (pod : Pod),
    world.Holds settings.pod pod → Reachable settings world →
    ((run settings prober clock startedAt service world).result = .ok .skipped ↔
      Complete pod ∨
        (pod.annotations.contains startKey = true ∧
          (∀ time, (settings.plan.run prober).outcome ≠ .ready time) ∧
          settings.bestEffort = true))

def startedPod : Pod := .annotated [(startKey, "2025-03-01T12:00:02Z")]

def startedSettings : ReporterSettings :=
  ⟨startedPod.key, "tcp://10.0.0.1:80", .ofSeconds 10, .ofSeconds 1, true, ⟨.ofMillis 100, 10⟩⟩

-- The longest time that a reporter can be told.
def lastingSettings : ReporterSettings :=
  { startedSettings with timeout := .ofSeconds 18446744073709551615 }

def startedWorld : ReporterWorld := ⟨.ofStores ⟨.ofPods [startedPod], .empty⟩, []⟩

theorem not_skips_unmeasured {settings : ReporterSettings} {prober : Prober}
    (held : startedWorld.Holds settings.pod startedPod)
    (reachable : Reachable settings startedWorld) (effort : settings.bestEffort = true)
    (crashed : (settings.plan.run prober).outcome = .crashed 0)
    (unskipped : (run settings prober Instant.epoch.addMillis none service
      startedWorld).result.toOption = none) : ¬ SkipsUnmeasured settings prober := by
  intro skips
  have begun : startedPod.annotations.contains startKey = true := by decide +kernel
  have skipped := (skips Instant.epoch.addMillis none startedWorld startedPod held reachable).mpr
    (Or.inr ⟨begun, by simp [crashed], effort⟩)
  rw [skipped] at unskipped
  cases unskipped

/-- An attempt that crashes keeps the probe from succeeding, and so does a time whose end no clock
can tell; both end the run. -/
theorem crashed_probes_not_skipped :
    0 < startedSettings.interval.totalNanos ∧ startedSettings.retry.Lasting ∧
      ¬ SkipsUnmeasured startedSettings (.ofScript [.crash] 0) ∧
      ¬ SkipsUnmeasured lastingSettings (.ofScript [.up] 0) := by
  have held : startedWorld.Holds startedPod.key startedPod := by
    rw [Holds]
    decide +kernel
  have reachable : RetryPolicy.LetsThrough startedWorld.connects 10 ∧
      RetryPolicy.LetsThrough (startedWorld.stores.faults .getPod) 10 :=
    ⟨⟨0, by decide, rfl⟩, ⟨0, by decide, rfl⟩⟩
  exact ⟨by decide, by decide,
    not_skips_unmeasured held reachable rfl (by decide +kernel) (by decide +kernel),
    not_skips_unmeasured held reachable rfl (by decide +kernel) (by decide +kernel)⟩

end Reporter
end StartupLatency
