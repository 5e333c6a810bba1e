import StartupLatency.Proofs.MirroredListings

/-!
Passes over records behind a server and over records in memory. The steps of any number of passes
are interleaved in any order while pods come, change and go. After every step, both backends have
the same passes and the same records but for the texts of versions, no pass has failed, and a
listing differs only where its selector cannot be sent.
-/

namespace StartupLatency

/-! ## Passes with their records changed -/

def PassWork.map (f : Record → Record) : PassWork → PassWork
  | .created record => .created (f record)
  | .updated record => .updated (f record)
  | other => other

def PassOutcome.map (f : Record → Record) : PassOutcome → PassOutcome
  | .done work => .done (work.map f)
  | other => other

def Pass.map (f : Record → Record) : Pass → Pass
  | .creating record => .creating (f record)
  | .updating record => .updating (f record)
  | .ended outcome => .ended (outcome.map f)
  | other => other

def Record.unversioned (record : Record) : Record := { record with version := none }

namespace Pass

theorem map_map (f g : Record → Record) (pass : Pass) :
    (pass.map f).map g = pass.map (g ∘ f) := by
  cases pass with
  | ended outcome =>
    cases outcome with
    | done work => cases work <;> rfl
    | _ => rfl
  | _ => rfl

variable (f : Record → Record)

theorem map_pod_read (answer : Except StoreError Pod) :
    (afterPodRead answer).map f = afterPodRead answer := by
  cases answer with
  | ok pod => rfl
  | error error => cases error <;> rfl

theorem map_create (answer : Except StoreError Record) :
    afterCreate (answer.map f) = (afterCreate answer).map f := by
  cases answer with
  | ok record => rfl
  | error error => cases error <;> rfl

theorem map_update (answer : Except StoreError Record) :
    afterUpdate (answer.map f) = (afterUpdate answer).map f := by
  cases answer with
  | ok record => rfl
  | error error => cases error <;> rfl

/-- What a pass makes of a record does not depend on the version that it was read in. -/
theorem map_record_read (tell : String → String) (policy : Policy) (pod : Pod)
    (answer : Except StoreError Record) :
    afterRecordRead policy pod (answer.map (Record.revised tell)) =
      (afterRecordRead policy pod answer).map (Record.revised tell) := by
  cases answer with
  | ok record =>
    simp only [Except.map, afterRecordRead, Record.revised]
    split <;> rfl
  | error error => cases error <;> rfl

end Pass

/-! ## Records that both backends can keep -/

namespace RecordSpec

theorem derived_apply (spec : RecordSpec) (seen : Observation) (policy : Policy)
    (derived : spec.Derived) : (spec.apply seen policy).Derived := by
  intro metric
  rw [value_apply, timestamp_apply]
  cases written : spec.writesStamp seen policy metric with
  | true =>
    simp only [writesStamp, Policy.writes, Bool.and_eq_true, bne_iff_ne] at written
    exact Or.inr ⟨written.1, seen.created, rfl⟩
  | false => exact derived metric

end RecordSpec

structure Record.Servable (record : Record) : Prop where
  sendable : Cluster.Sendable record.key
  fits : record.spec.Fits
  derived : record.spec.Derived

theorem Record.servable_apply (record : Record) (seen : Observation) (policy : Policy)
    (servable : record.Servable) :
    { record with spec := record.spec.apply seen policy }.Servable :=
  ⟨servable.sendable, RecordSpec.apply_fits _ _ _ servable.fits,
    RecordSpec.derived_apply _ _ _ servable.derived⟩

def Pod.Named (pod : Pod) : Prop := Cluster.IsName pod.ns ∧ Cluster.IsName pod.uid

theorem Record.servable_of_pod (pod : Pod) (policy : Policy) (named : pod.Named) :
    (Record.ofPod pod policy).Servable := by
  have blank : (unobserved pod).Servable := by
    refine ⟨Cluster.record_key_sendable _ _ named.1 named.2, fun metric => ?_,
      fun metric => Or.inl (unobserved_value pod metric)⟩
    rw [unobserved_value]
    rfl
  rw [of_pod_applied]
  exact servable_apply _ _ policy blank

/-! ## One step -/

namespace Pass

/-- What a pass has in hand comes from named pods, what it is about to update is stored, and it has
not failed. -/
def Apt (records : RecordStore) : Pass → Prop
  | .readingRecord pod => pod.Named
  | .creating record => record.Servable
  | .updating record =>
    record.Servable ∧ ∃ current, records.records.find? record.key = some current
  | .ended (.failed _) => False
  | _ => True

end Pass

structure Stores.Apt (stores : Stores) : Prop where
  sound : stores.records.Sound
  named : ∀ key pod, stores.pods.pods.find? key = some pod → pod.Named
  servable : ∀ key record, stores.records.records.find? key = some record → record.Servable

theorem Stores.commit_apt (stores : Stores) (record : Record) (apt : stores.Apt)
    (servable : record.Servable) : (stores.commit record).Apt := by
  refine ⟨RecordStore.sound_commit stores.records record apt.sound, apt.named,
    fun key stored found => ?_⟩
  simp only [commit, RecordStore.find_commit] at found
  split at found
  · cases found
    exact ⟨servable.sendable, servable.fits, servable.derived⟩
  · exact apt.servable key stored found

namespace Pass

variable {key : ObjectName} {pass : Pass} {stores : Stores}

theorem apt_commit (record : Record) (apt : pass.Apt stores.records) :
    pass.Apt (stores.commit record).records := by
  cases pass with
  | updating held =>
    obtain ⟨servable, current, found⟩ := apt
    refine ⟨servable, ?_⟩
    simp only [Stores.commit, RecordStore.find_commit]
    split
    · exact ⟨_, rfl⟩
    · exact ⟨current, found⟩
  | ended outcome => cases outcome <;> exact apt
  | _ => exact apt

theorem apt_other {policy : Policy} {trouble : Option StoreError} {next other : Pass}
    {after : Stores} (moves : Moves policy key trouble pass stores next after)
    (apt : other.Apt stores.records) : other.Apt after.records := by
  rcases moves_stores moves with rfl | ⟨record, rfl⟩
  · exact apt
  · exact apt_commit record apt

/-- A step over the stores in memory commits a record that can be served or leaves them as they
are, and the pass stays apt. -/
theorem step_apt (policy : Policy) (key : ObjectName) (pass : Pass) (stores : Stores)
    (stored : stores.Apt) (apt : pass.Apt stores.records) :
    (pass.step Stores.access policy key stores).1.Apt
        (pass.step Stores.access policy key stores).2.records ∧
      (pass.step Stores.access policy key stores).2.Apt := by
  cases pass with
  | readingPod =>
    simp only [step, Stores.access, PodStore.get]
    cases found : stores.pods.pods.find? key with
    | none => exact ⟨trivial, stored⟩
    | some pod => exact ⟨stored.named key pod found, stored⟩
  | readingRecord pod =>
    simp only [step, Stores.access, RecordStore.get]
    cases found : stores.records.records.find? (recordKey pod) with
    | none => exact ⟨Record.servable_of_pod pod policy apt, stored⟩
    | some record =>
      simp only [afterRecordRead]
      split
      · have filed : record.key = recordKey pod := stored.sound.filed _ _ found
        exact ⟨⟨Record.servable_apply record _ policy (stored.servable _ _ found), record,
          filed ▸ found⟩, stored⟩
      · exact ⟨trivial, stored⟩
  | creating record =>
    simp only [step, Stores.access]
    rcases RecordStore.create_cases stores.records record with ⟨_, result⟩ | ⟨_, result⟩
    · rw [result]
      exact ⟨trivial, stored⟩
    · rw [result]
      exact ⟨trivial, Stores.commit_apt stores record stored apt⟩
  | updating record =>
    -- Records are never deleted, so the one that was read is still there.
    obtain ⟨servable, held, present⟩ := apt
    simp only [step, Stores.access]
    rcases RecordStore.update_cases stores.records record with
      ⟨missing, _⟩ | ⟨_, _, _, result⟩ | ⟨_, _, _, result⟩
    · rw [present] at missing
      cases missing
    · rw [result]
      exact ⟨trivial, stored⟩
    · rw [result]
      exact ⟨trivial, Stores.commit_apt stores record stored servable⟩
  | ended outcome => exact ⟨apt, stored⟩

end Pass

/-- A step over the server is the step over the stores in memory, with versions told as the server
tells them. -/
theorem Pass.step_mirrored (source : Cluster.VersionSource) (key : ObjectName) (pass : Pass)
    (stores : Stores) (server : Cluster.ObjectServer)
    (mirrors : Cluster.Mirrors source stores.records server) (stored : stores.Apt)
    (apt : pass.Apt stores.records) (grounded : pass.Grounded .firstWriteWins stores) :
    ∃ after, (pass.map (Record.revised source.counterpart)).step Cluster.ObjectServer.access
          .firstWriteWins key (stores.pods, server) =
        ((pass.step Stores.access .firstWriteWins key stores).1.map
            (Record.revised source.counterpart),
          (pass.step Stores.access .firstWriteWins key stores).2.pods, after) ∧
      Cluster.Mirrors source (pass.step Stores.access .firstWriteWins key stores).2.records
        after := by
  let tell := Record.revised source.counterpart
  cases pass with
  | readingPod =>
    exact ⟨server, congrArg (·, stores.pods, server) (map_pod_read tell _).symm, mirrors⟩
  | readingRecord pod =>
    have sendable := Cluster.record_key_sendable pod.ns pod.uid apt.1 apt.2
    have call := Cluster.get_mirrored mirrors (recordKey pod) sendable
    refine ⟨server, ?_, mirrors⟩
    simp only [Pass.map, step, Cluster.ObjectServer.access, Cluster.ObjectServer.beside, call]
    rw [map_record_read]
    rfl
  | creating record =>
    obtain ⟨after, call, kept⟩ := Cluster.create_mirrored mirrors record apt.sendable apt.fits
    refine ⟨after, ?_, kept⟩
    change Cluster.Link.createRecord _ (record.revised source.counterpart) server = _ at call
    simp only [Pass.map, step, Cluster.ObjectServer.access, Cluster.ObjectServer.beside, call]
    rw [map_create]
    rfl
  | updating record =>
    -- The specification was made of the record that has the same version, so the merge is exact.
    obtain ⟨drew, tied⟩ := grounded
    obtain ⟨after, call, kept⟩ := Cluster.update_mirrored mirrors record apt.1.sendable stored.sound
      drew fun current found same =>
        ⟨(stored.servable _ _ found).derived, tied current found same⟩
    refine ⟨after, ?_, kept⟩
    simp only [Pass.map, step, Cluster.ObjectServer.access, Cluster.ObjectServer.beside, call]
    rw [map_update]
    rfl
  | ended outcome => exact ⟨server, rfl, mirrors⟩

/-! ## Whole runs -/

/-- Stores that passes run over, and how the pods in them are replaced by others. -/
structure Backend (σ : Type) where
  access : StoreAccess σ
  withPods : PodStore → σ → σ

structure Backend.Run (σ : Type) where
  world : σ
  passes : List (ObjectName × Pass)

namespace Backend

def inMemory : Backend Stores := ⟨Stores.access, fun pods stores => { stores with pods := pods }⟩

def served : Backend (PodStore × Cluster.ObjectServer) :=
  ⟨Cluster.ObjectServer.access, fun pods world => (pods, world.2)⟩

inductive Turn where
  -- From here on these pods exist and no others.
  | pods (present : List Pod)
  | start (key : ObjectName)
  | call (index : Nat)

def Turn.shows : Turn → List Pod
  | .pods present => present
  | _ => []

variable {σ : Type}

def after (backend : Backend σ) (run : Run σ) : Turn → Run σ
  | .pods present => { run with world := backend.withPods (.ofPods present) run.world }
  | .start key => { run with passes := run.passes ++ [(key, .readingPod)] }
  | .call index =>
    match run.passes[index]? with
    | some (key, pass) =>
      let (next, world) := pass.step backend.access .firstWriteWins key run.world
      ⟨world, run.passes.set index (key, next)⟩
    | none => run

def run (backend : Backend σ) (world : σ) (turns : List Turn) : Run σ :=
  turns.foldl backend.after ⟨world, []⟩

def memoryRun (turns : List Turn) : Run Stores := inMemory.run .empty turns

def servedRun (source : Cluster.VersionSource) (turns : List Turn) :
    Run (PodStore × Cluster.ObjectServer) :=
  served.run (.empty, .empty .records source) turns

structure InOrder (memory : Run Stores) : Prop where
  stores : memory.world.Apt
  apt : ∀ entry ∈ memory.passes, entry.2.Apt memory.world.records
  grounded : ∀ entry ∈ memory.passes, entry.2.Grounded .firstWriteWins memory.world

/-- Both runs have come to the same, with versions told as the server tells them. -/
structure Coupled (source : Cluster.VersionSource) (memory : Run Stores)
    (served : Run (PodStore × Cluster.ObjectServer)) : Prop where
  pods : served.world.1 = memory.world.pods
  mirrors : Cluster.Mirrors source memory.world.records served.world.2
  passes : served.passes = memory.passes.map fun entry =>
    (entry.1, entry.2.map (Record.revised source.counterpart))

theorem found_of_pods (present : List Pod) (key : ObjectName) (pod : Pod)
    (found : (PodStore.ofPods present).pods.find? key = some pod) : pod ∈ present := by
  have folded (store : PodStore) (held : (present.foldl PodStore.upsert store).pods.find? key =
      some pod) : pod ∈ present ∨ store.pods.find? key = some pod := by
    clear found
    induction present generalizing store with
    | nil => exact Or.inr held
    | cons first rest ih =>
      rcases ih _ held with later | before
      · exact Or.inl (List.mem_cons_of_mem first later)
      · simp only [PodStore.upsert, SortedMap.find?_insert] at before
        split at before
        · cases before
          exact Or.inl List.mem_cons_self
        · exact Or.inr before
  rcases folded .empty found with member | none
  · exact member
  · cases none

theorem after_in_order (memory : Run Stores) (turn : Turn) (named : ∀ pod ∈ turn.shows, pod.Named)
    (order : InOrder memory) : InOrder (inMemory.after memory turn) := by
  cases turn with
  | pods present =>
    refine ⟨⟨order.stores.sound, fun key pod found => ?_, order.stores.servable⟩, order.apt,
      order.grounded⟩
    exact named pod (found_of_pods present key pod found)
  | start key =>
    refine ⟨order.stores, fun entry member => ?_, fun entry member => ?_⟩
    · rcases List.mem_append.mp member with old | new
      · exact order.apt entry old
      · cases List.mem_singleton.mp new
        trivial
    · rcases List.mem_append.mp member with old | new
      · exact order.grounded entry old
      · cases List.mem_singleton.mp new
        trivial
  | call index =>
    simp only [after]
    cases present : memory.passes[index]? with
    | none => exact order
    | some entry =>
      obtain ⟨key, pass⟩ := entry
      have member := List.mem_of_getElem? present
      have moves := Pass.answered_moves .firstWriteWins key none pass memory.world
      obtain ⟨apt, stores⟩ := Pass.step_apt .firstWriteWins key pass memory.world order.stores
        (order.apt _ member)
      -- The pass whose turn it is has moved; the others meet a commit at most.
      refine ⟨stores, fun entry listed => ?_, fun entry listed => ?_⟩
      · rcases List.mem_or_eq_of_mem_set listed with old | rfl
        · exact Pass.apt_other moves (order.apt entry old)
        · exact apt
      · rcases List.mem_or_eq_of_mem_set listed with old | rfl
        · exact Pass.grounded_other moves (order.grounded entry old)
        · exact Pass.grounded_self moves order.stores.sound

variable {source : Cluster.VersionSource}

theorem after_coupled (memory : Run Stores) (other : Run (PodStore × Cluster.ObjectServer))
    (turn : Turn) (order : InOrder memory) (coupled : Coupled source memory other) :
    Coupled source (inMemory.after memory turn) (served.after other turn) := by
  obtain ⟨⟨pods, server⟩, passes⟩ := other
  obtain ⟨rfl, mirrors, rfl⟩ := coupled
  cases turn with
  | pods present => exact ⟨rfl, mirrors, rfl⟩
  | start key => exact ⟨rfl, mirrors, by simp [after, Pass.map]⟩
  | call index =>
    simp only [after, List.getElem?_map]
    cases present : memory.passes[index]? with
    | none => exact ⟨rfl, mirrors, rfl⟩
    | some entry =>
      obtain ⟨key, pass⟩ := entry
      have member := List.mem_of_getElem? present
      obtain ⟨last, step, kept⟩ := Pass.step_mirrored source key pass memory.world server mirrors
        order.stores (order.apt _ member) (order.grounded _ member)
      simp only [Option.map_some, served, step]
      exact ⟨rfl, kept, by rw [List.map_set]; rfl⟩

theorem run_coupled (turns : List Turn) (memory : Run Stores)
    (other : Run (PodStore × Cluster.ObjectServer))
    (named : ∀ turn ∈ turns, ∀ pod ∈ turn.shows, pod.Named) (order : InOrder memory)
    (coupled : Coupled source memory other) :
    InOrder (turns.foldl inMemory.after memory) ∧
      Coupled source (turns.foldl inMemory.after memory) (turns.foldl served.after other) := by
  induction turns generalizing memory other with
  | nil => exact ⟨order, coupled⟩
  | cons turn rest ih =>
    obtain ⟨here, later⟩ := List.forall_mem_cons.mp named
    exact ih _ _ later (after_in_order memory turn here order)
      (after_coupled memory other turn order coupled)

theorem runs_coupled (source : Cluster.VersionSource) (turns : List Turn)
    (named : ∀ turn ∈ turns, ∀ pod ∈ turn.shows, pod.Named) :
    InOrder (memoryRun turns) ∧ Coupled source (memoryRun turns) (servedRun source turns) := by
  have order : InOrder ⟨.empty, []⟩ := by
    refine ⟨⟨RecordStore.sound_empty, fun key pod found => ?_, fun key record found => ?_⟩,
      fun entry member => ?_, fun entry member => ?_⟩
    · cases found
    · cases found
    · cases member
    · cases member
  exact run_coupled turns _ _ named order ⟨rfl, Cluster.mirrors_empty source, rfl⟩

/-! ## Agreement -/

/-- Two runs with the same passes and the same records, none of the passes having failed. -/
structure Agree (memory : Run Stores) (other : Run (PodStore × Cluster.ObjectServer)) : Prop where
  passes : other.passes.map (fun entry => (entry.1, entry.2.map Record.unversioned)) =
    memory.passes.map fun entry => (entry.1, entry.2.map Record.unversioned)
  unfailing : ∀ entry ∈ memory.passes, ∀ error, entry.2 ≠ .ended (.failed error)
  records : other.world.2.objects.mapValues
      (fun object => (Cluster.RecordObject.record? object).map Record.unversioned) =
    memory.world.records.records.mapValues fun record => some record.unversioned

def SameListing (memory : Run Stores) (other : Run (PodStore × Cluster.ObjectServer))
    (scope : Scope) : Prop :=
  ∃ records, (Cluster.Link.listRecords Cluster.ObjectServer.answer scope other.world.2).1 =
      .ok records ∧
    records.map Record.unversioned =
      (memory.world.records.list scope).map Record.unversioned

theorem coupled_agree (memory : Run Stores) (other : Run (PodStore × Cluster.ObjectServer))
    (order : InOrder memory) (coupled : Coupled source memory other) : Agree memory other := by
  refine ⟨?_, fun entry member error failed => ?_, SortedMap.ext_find? fun key => ?_⟩
  · rw [coupled.passes, List.map_map]
    refine List.map_congr_left fun entry _ => ?_
    rw [Function.comp_apply, Pass.map_map]
    rfl
  · have apt := order.apt entry member
    rw [failed] at apt
    exact apt
  · rw [SortedMap.find?_mapValues, SortedMap.find?_mapValues]
    cases stored : memory.world.records.records.find? key with
    | none =>
      rw [coupled.mirrors.absent key stored]
      rfl
    | some record =>
      obtain ⟨object, kept, holds⟩ := coupled.mirrors.present key record stored
      rw [kept, Option.map_some, Cluster.RecordObject.holds_record holds]
      rfl

theorem scope_named (ns? : Option String) (selector : Selector)
    (named : ∀ ns, ns? = some ns → ns = "" ∨ Cluster.IsName ns) :
    ∀ ns, (Scope.of ns? selector).ns? = some ns → Cluster.IsName ns := by
  intro ns kept
  obtain ⟨given, filled⟩ := Option.filter_eq_some_iff.mp kept
  refine (named ns given).resolve_left ?_
  rintro rfl
  exact absurd filled (by decide)

theorem coupled_listing (memory : Run Stores) (other : Run (PodStore × Cluster.ObjectServer))
    (order : InOrder memory) (coupled : Coupled source memory other) (scope : Scope)
    (named : ∀ ns, scope.ns? = some ns → Cluster.IsName ns)
    (separable : scope.selector.Separable) :
    (Cluster.Uri.longest < (Cluster.listTarget scope).utf8ByteSize →
      (Cluster.Link.listRecords Cluster.ObjectServer.answer scope other.world.2).1 =
        .error ((Cluster.Fault.unsendable .tooLong).storeError Cluster.Resource.records.plural)) ∧
      (¬ Cluster.Uri.longest < (Cluster.listTarget scope).utf8ByteSize →
        SameListing memory other scope) := by
  have listing := Cluster.list_mirrored coupled.mirrors order.stores.sound scope named separable
  constructor
  · intro long
    rw [listing, if_pos long]
  · intro short
    unfold SameListing
    rw [listing, if_neg short]
    refine ⟨_, rfl, ?_⟩
    rw [List.map_map]
    rfl

/-- However passes interleave in which the first write wins, over pods of proper names, and
whichever versions the server gives: both backends have the same passes and records after every
turn, and no pass has failed. A listing by a selector that was read from a text gives the same
records on both sides if its target is not too long to be sent, and if it is, fails on the side of
the server. -/
theorem backends_agree (source : Cluster.VersionSource) (turns : List Turn)
    (named : ∀ turn ∈ turns, ∀ pod ∈ turn.shows, pod.Named) :
    Agree (memoryRun turns) (servedRun source turns) ∧
      ∀ ns? raw, (∀ ns, ns? = some ns → ns = "" ∨ Cluster.IsName ns) →
        if Cluster.Uri.longest <
            (Cluster.listTarget (.of ns? (.parse raw))).utf8ByteSize then
          (Cluster.Link.listRecords Cluster.ObjectServer.answer (.of ns? (.parse raw))
              (servedRun source turns).world.2).1 =
            .error ((Cluster.Fault.unsendable .tooLong).storeError
              Cluster.Resource.records.plural)
        else
          SameListing (memoryRun turns) (servedRun source turns) (.of ns? (.parse raw)) := by
  obtain ⟨order, coupled⟩ := runs_coupled source turns named
  refine ⟨coupled_agree _ _ order coupled, fun ns? raw proper => ?_⟩
  obtain ⟨fails, agrees⟩ := coupled_listing _ _ order coupled (.of ns? (.parse raw))
    (scope_named ns? _ proper) (Selector.parse_separable raw)
  split
  · rename_i long
    exact fails long
  · rename_i short
    exact agrees short

-- A server that has made four thousand writes before.
def laterVersions : Cluster.VersionSource where
  text n := Text.Decimal.text (n + 4000)
  fresh first second same := by
    have numbers := Text.Decimal.text_injective _ _ same
    omega

def labelledPod (annotations : List (String × String)) : Pod :=
  { Pod.annotated annotations with labels := .ofList [("app", "sut"), ("tier", "web/1")] }

-- Two passes have read two versions of one pod when the first creates the record, so that the
-- second is outrun; the third adds what the later version shows, and the fourth finds no pod.
def crossedTurns : List Turn :=
  [.pods [labelledPod [(startKey, "1970-01-01T00:00:02Z")]], .start earlyPod.key,
    .start earlyPod.key, .call 0, .pods [labelledPod [(readyKey, "1970-01-01T00:00:05Z")]], .call 1,
    .call 0, .call 1, .call 0, .call 1, .start earlyPod.key, .call 2, .call 2, .call 2, .pods [],
    .start earlyPod.key, .call 3]

instance (text : String) : Decidable (Cluster.IsName text) :=
  inferInstanceAs (Decidable (_ ∧ _ ∧ _))

instance (pod : Pod) : Decidable pod.Named := inferInstanceAs (Decidable (_ ∧ _))

theorem crossed_turns_agree :
    (∀ turn ∈ crossedTurns, ∀ pod ∈ turn.shows, pod.Named) ∧
    Agree (memoryRun crossedTurns) (servedRun laterVersions crossedTurns) ∧
    SameListing (memoryRun crossedTurns) (servedRun laterVersions crossedTurns)
      (.of (some "perf") (.parse "tier=web/1, app=sut")) ∧
    (memoryRun crossedTurns).passes[1]? = some (earlyPod.key, .ended .requeue) ∧
    ((memoryRun crossedTurns).world.records.list
      (.of (some "perf") (.parse "tier=web/1, app=sut"))).length = 1 := by
  have named : ∀ turn ∈ crossedTurns, ∀ pod ∈ turn.shows, pod.Named := by decide +kernel
  obtain ⟨agree, listings⟩ := backends_agree laterVersions crossedTurns named
  have listing := listings (some "perf") "tier=web/1, app=sut" fun ns same => by
    cases same
    exact Or.inr (by decide)
  rw [if_neg (by decide +kernel)] at listing
  exact ⟨named, agree, listing, by decide +kernel, by decide +kernel⟩

end Backend

/-! ## A selector that is too long -/

namespace Selector

theorem parse_single (n : Nat) :
    parseChars ("app=".toList ++ List.replicate n 'a') =
      empty.require "app" (String.ofList (List.replicate n 'a')) := by
  have comma : ',' ∉ "app=".toList ++ List.replicate n 'a' := by
    simp
  have front : Text.dropBlank ("app=".toList ++ List.replicate n 'a') =
      "app=".toList ++ List.replicate n 'a' := by
    simp [Text.dropBlank, Text.isBlank]
  have back : Text.dropBlankEnd ("app=".toList ++ List.replicate n 'a') =
      "app=".toList ++ List.replicate n 'a' := by
    cases n with
    | zero => decide
    | succ m =>
      have last : Text.isBlank 'a' = false := by decide
      rw [List.replicate_succ', ← List.append_assoc, Text.dropBlankEnd, List.reverse_append]
      simp [last]
  have parts : Text.splitOn '=' ("app=".toList ++ List.replicate n 'a') =
      ["app".toList, List.replicate n 'a'] := by
    have absent : '=' ∉ List.replicate n 'a' := by simp
    have split := Text.split_on_append '=' "app".toList (List.replicate n 'a') (by decide)
    rw [Text.split_on_piece '=' _ absent] at split
    exact split
  have pair : pairOf? ("app=".toList ++ List.replicate n 'a') =
      some ("app", String.ofList (List.replicate n 'a')) := by
    rw [pairOf?, Text.trim, front, back, parts]
    rfl
  rw [parseChars, Text.split_on_piece ',' _ comma, List.filterMap_cons, pair]
  rfl

theorem require_text (key value : String) :
    (empty.require key value).text = pairText (key, value) := rfl

theorem require_asks (key value : String) : (empty.require key value).isEmpty = false := rfl

end Selector

namespace Backend

def labelOf (n : Nat) : String := String.ofList ("app=".toList ++ List.replicate n 'a')

theorem label_parsed (n : Nat) : Selector.parse (labelOf n) =
    Selector.empty.require "app" (String.ofList (List.replicate n 'a')) := by
  have chars : (labelOf n).toList = "app=".toList ++ List.replicate n 'a' := String.toList_ofList
  unfold Selector.parse
  rw [chars]
  exact Selector.parse_single n

theorem label_target (n : Nat) :
    n < (Cluster.listTarget (.of none (.parse (labelOf n)))).utf8ByteSize := by
  have size := Cluster.list_target_longer (.of none (.parse (labelOf n))) <| by
    rw [label_parsed]
    exact Selector.require_asks _ _
  have text : (Scope.of none (Selector.parse (labelOf n))).selector.text.length = 4 + n := by
    simp [label_parsed, Scope.of, Selector.require_text, Selector.pairText]
    decide
  omega

theorem label_differs (source : Cluster.VersionSource) (turns : List Turn)
    (named : ∀ turn ∈ turns, ∀ pod ∈ turn.shows, pod.Named) (n : Nat)
    (long : Cluster.Uri.longest ≤ n) :
    ¬ SameListing (memoryRun turns) (servedRun source turns) (.of none (.parse (labelOf n))) := by
  obtain ⟨order, coupled⟩ := runs_coupled source turns named
  have fails := (coupled_listing _ _ order coupled (.of none (.parse (labelOf n)))
    (fun _ given => nomatch given) (Selector.parse_separable (labelOf n))).1
  rintro ⟨records, read, _⟩
  rw [fails (Nat.lt_of_le_of_lt long (label_target n))] at read
  cases read

/-- A selector of a label with 65536 letters lists nothing in memory and fails on the side of the
server. -/
theorem overlong_listing_differs :
    (∀ turn ∈ crossedTurns, ∀ pod ∈ turn.shows, pod.Named) ∧
      ¬ SameListing (memoryRun crossedTurns) (servedRun laterVersions crossedTurns)
        (.of none (.parse (labelOf 65536))) := by
  have named : ∀ turn ∈ crossedTurns, ∀ pod ∈ turn.shows, pod.Named := by decide +kernel
  exact ⟨named, label_differs laterVersions crossedTurns named 65536 (by decide)⟩

end Backend
end StartupLatency
