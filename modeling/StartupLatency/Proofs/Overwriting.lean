import StartupLatency.Proofs.AdmittedChanges

/-!
Where the latest observation overwrites, no order of writes is promised: a slow pass may put back
what it read before its pod changed. The log tells whose text stands, for each timestamp by itself:
that of the last pass that brought any. A timestamp that disagrees with its pod when nothing is left
to do was brought by a pass that had read another text.
-/

namespace StartupLatency

def podRead? (order : Nat) : List Happening → Option Pod
  | [] => none
  | .read other pod :: rest => if other = order then some pod else podRead? order rest
  | .changed _ :: rest => podRead? order rest
  | .admitted _ :: rest => podRead? order rest
  | .wrote _ _ :: rest => podRead? order rest

def ReadSince (order : Nat) (key : ObjectName) : List Happening → Prop
  | [] => False
  | .changed pod :: rest => pod.key ≠ key ∧ ReadSince order key rest
  | .read other _ :: rest => other = order ∨ ReadSince order key rest
  | .admitted _ :: rest => ReadSince order key rest
  | .wrote _ _ :: rest => ReadSince order key rest

def textRead (metric : LatencyMetric) (order : Nat) (log : List Happening) : String :=
  (podRead? order log).elim "" fun pod => (Observation.ofPod pod).text metric

/-- Since the pod took the value that it has, the last pass to write its record with a text for the
metric, and what had happened before it did. -/
def lastWriter? (metric : LatencyMetric) (pod : Pod) :
    List Happening → Option (Nat × List Happening)
  | [] => none
  | .changed other :: rest => if other.key = pod.key then none else lastWriter? metric pod rest
  | .admitted _ :: rest => lastWriter? metric pod rest
  | .read _ _ :: rest => lastWriter? metric pod rest
  | .wrote order key :: rest =>
    if key = Pass.recordKey pod ∧ textRead metric order rest ≠ "" then some (order, rest)
    else lastWriter? metric pod rest

/-- The last text for the metric is another than the pod's: it was read of the pod before it took
the value that it has, or of another pod of the same uid. -/
def Overtaken (metric : LatencyMetric) (pod : Pod) (log : List Happening) : Prop :=
  ∃ order earlier other, lastWriter? metric pod log = some (order, earlier) ∧
    podRead? order earlier = some other ∧ Pass.recordKey other = Pass.recordKey pod ∧
    (Observation.ofPod other).text metric ≠ (Observation.ofPod pod).text metric ∧
    (other.key = pod.key → ¬ ReadSince order pod.key earlier)

def ReadsCurrent (pods : PodStore) (log : List Happening) : Prop :=
  ∀ order pod, podRead? order log = some pod → ReadSince order pod.key log →
    pods.pods.find? pod.key = some pod

theorem reads_current_append (pods : PodStore) (shown log : List Happening)
    (reads : ∀ order pod, .read order pod ∈ shown → pods.pods.find? pod.key = some pod)
    (unchanged : ∀ pod, .changed pod ∉ shown) (current : ReadsCurrent pods log) :
    ReadsCurrent pods (shown ++ log) := by
  induction shown with
  | nil => exact current
  | cons happening rest ih =>
    have later := ih (fun order pod member => reads order pod (List.mem_cons_of_mem _ member))
      (fun pod member => unchanged pod (List.mem_cons_of_mem _ member))
    intro order pod read since
    cases happening with
    | changed other => exact absurd List.mem_cons_self (unchanged other)
    | admitted key => exact later order pod read since
    | wrote other key => exact later order pod read since
    | read other seen =>
      simp only [List.cons_append, podRead?] at read
      split at read
      · cases read
        exact reads other pod List.mem_cons_self
      · rename_i another
        exact later order pod read (since.resolve_left another)

/-- The pod's record has the text that a pass had read, of the pod as it is stored if that pass had
read since the pod last changed. -/
structure Stamps (metric : LatencyMetric) (pod : Pod) (stores : Stores) (order : Nat)
    (earlier : List Happening) (other : Pod) (record : Record) : Prop where
  read : podRead? order earlier = some other
  shares : Pass.recordKey other = Pass.recordKey pod
  found : stores.records.records.find? (Pass.recordKey pod) = some record
  stamp : metric.timestamp record.spec = (Observation.ofPod other).text metric
  current : other.key = pod.key → ReadSince order pod.key earlier →
    stores.pods.pods.find? pod.key = some other

/-- What a move makes of the last text for a metric: it leaves record, pod and writer as they were,
or brings a text of its own, or the pod takes another value. -/
inductive Touches (metric : LatencyMetric) (pod : Pod) (stores : Stores) (log : List Happening)
    (after : Stores) (later : List Happening) : Prop where
  | spared (same : lastWriter? metric pod later = lastWriter? metric pod log)
      (spares : ∀ was, stores.records.records.find? (Pass.recordKey pod) = some was →
        ∃ record, after.records.records.find? (Pass.recordKey pod) = some record ∧
          metric.timestamp record.spec = metric.timestamp was.spec)
      (held : after.pods.pods.find? pod.key = stores.pods.pods.find? pod.key)
  | stamped (order : Nat) (other : Pod) (record : Record)
      (writer : lastWriter? metric pod later = some (order, log))
      (stamps : Stamps metric pod after order log other record)
  | moved (none : lastWriter? metric pod later = none)
      (other : after.pods.pods.find? pod.key ≠ stores.pods.pods.find? pod.key)

def Accounts (metric : LatencyMetric) (pod : Pod) (stores : Stores) (log : List Happening) : Prop :=
  ∀ order earlier, lastWriter? metric pod log = some (order, earlier) →
    ∃ other record, Stamps metric pod stores order earlier other record

def AgreesUnwritten (metric : LatencyMetric) (pod : Pod) (stores : Stores)
    (log : List Happening) : Prop :=
  lastWriter? metric pod log = none →
    ∃ record, stores.records.records.find? (Pass.recordKey pod) = some record ∧
      metric.timestamp record.spec = (Observation.ofPod pod).text metric

section Touches

variable {metric : LatencyMetric} {pod : Pod} {stores after : Stores} {log later : List Happening}

theorem touches_refl (same : lastWriter? metric pod later = lastWriter? metric pod log) :
    Touches metric pod stores log stores later :=
  .spared same (fun was found => ⟨was, found, rfl⟩) rfl

theorem touches_account (touches : Touches metric pod stores log after later)
    (accounts : Accounts metric pod stores log) : Accounts metric pod after later := by
  intro order earlier writer
  cases touches with
  | spared same spares held =>
    obtain ⟨other, was, stamps⟩ := accounts order earlier (same ▸ writer)
    obtain ⟨record, found, kept⟩ := spares was stamps.found
    refine ⟨other, record, stamps.read, stamps.shares, found, kept.trans stamps.stamp, ?_⟩
    rw [held]
    exact stamps.current
  | stamped number other record wrote stamps =>
    cases wrote.symm.trans writer
    exact ⟨other, record, stamps⟩
  | moved none => cases none.symm.trans writer

theorem touches_agree (touches : Touches metric pod stores log after later)
    (stored : stores.pods.pods.find? pod.key = some pod)
    (still : after.pods.pods.find? pod.key = some pod)
    (agrees : AgreesUnwritten metric pod stores log) : AgreesUnwritten metric pod after later := by
  intro unwritten
  cases touches with
  | spared same spares =>
    obtain ⟨was, found, stamp⟩ := agrees (same ▸ unwritten)
    obtain ⟨record, found, kept⟩ := spares was found
    exact ⟨record, found, kept.trans stamp⟩
  | stamped order other record writer => cases writer.symm.trans unwritten
  | moved _ other => exact absurd (still.trans stored.symm) other

end Touches

namespace Pass

/-- What a pass holds comes from the pod that it has read; what it is about to update, from the
record of that version too. -/
def Traced (policy : Policy) (stores : Stores) (seen : Option Pod) : Pass → Prop
  | .readingRecord pod => seen = some pod
  | .creating record => ∃ pod, seen = some pod ∧ Carries policy pod record
  | .updating record => ∃ pod, seen = some pod ∧ Carries policy pod record ∧
      ∀ current, stores.records.records.find? record.key = some current →
        current.version = record.version → record.spec = current.spec.apply (.ofPod pod) policy
  | _ => True

-- A pass shows what it reads under its own number.
theorem read_by_another (pass : Pass) (order other : Nat) (log : List Happening)
    (another : other ≠ order) : podRead? other (pass.shows order ++ log) = podRead? other log := by
  unfold shows
  split <;> simp [podRead?, Ne.symm another]

variable {policy : Policy} {key : ObjectName} {trouble : Option StoreError} {pass next : Pass}
  {stores after : Stores}

theorem moves_traced (order : Nat) (log : List Happening)
    (moves : Moves policy key trouble pass stores next after) (sound : stores.records.Sound)
    (traced : Traced policy stores (podRead? order log) pass) :
    Traced policy after (podRead? order (next.shows order ++ log)) next := by
  cases moves with
  | podRead pod found => simp [Traced, shows, podRead?]
  | outOfDate pod record found =>
    have named : record.key = recordKey pod := sound.filed _ _ found
    refine ⟨pod, traced, ⟨named, RecordSpec.applied_unchanged record.spec _ policy⟩, ?_⟩
    intro current stored _
    change stores.records.records.find? record.key = some current at stored
    rw [named, found] at stored
    cases stored
    rfl
  | missing pod => exact ⟨pod, traced, rfl, Record.of_pod_unchanged pod policy⟩
  | _ => trivial

-- A committed record bears a new version, so it is not the one that another pass has read.
theorem traced_other {other : Pass} {seen : Option Pod}
    (moves : Moves policy key trouble pass stores next after)
    (grounded : Grounded policy stores other) (traced : Traced policy stores seen other) :
    Traced policy after seen other := by
  rcases moves_stores moves with rfl | ⟨record, rfl⟩
  · exact traced
  · cases other with
    | updating held =>
      obtain ⟨pod, read, carries, tied⟩ := traced
      refine ⟨pod, read, carries, fun current stored same => ?_⟩
      simp only [Stores.commit, RecordStore.find_commit] at stored
      split at stored
      · cases stored
        exact absurd same.symm
          (RecordStore.next_version_fresh stores.records held.version grounded.1)
      · exact tied current stored same
    | _ => exact traced

/-- A write brings the text that its pass had read. Without one, it leaves the timestamp of any
record that is there. -/
theorem commit_touches (metric : LatencyMetric) (pod seen : Pod) (order : Nat)
    (log : List Happening) (record : Record) (current : ReadsCurrent stores.pods log)
    (read : podRead? order log = some seen) (carries : Carries .overwriteOnChange seen record)
    (unread : ∀ was, stores.records.records.find? record.key = some was →
      (Observation.ofPod seen).text metric = "" →
      metric.timestamp record.spec = metric.timestamp was.spec) :
    Touches metric pod stores log (stores.commit record) (.wrote order record.key :: log) := by
  have text : textRead metric order log = (Observation.ofPod seen).text metric := by
    rw [textRead, read]
    rfl
  by_cases new : record.key = recordKey pod ∧ (Observation.ofPod seen).text metric ≠ ""
  · refine .stamped order seen (stores.records.commit record).1 ?_ ⟨read, ?_, ?_, ?_, ?_⟩
    · rw [lastWriter?, text, if_pos new]
    · exact carries.1.symm.trans new.1
    · simp [Stores.commit, new.1]
    · exact RecordSpec.timestamp_of_unchanged record.spec _ carries.2 metric new.2
    · intro alike since
      rw [← alike]
      exact current order seen read (alike ▸ since)
  · refine .spared (by rw [lastWriter?, text, if_neg new]) (fun was found => ?_) rfl
    by_cases here : recordKey pod = record.key
    · have blank : (Observation.ofPod seen).text metric = "" :=
        Classical.not_not.mp fun brings => new ⟨here.symm, brings⟩
      refine ⟨(stores.records.commit record).1, by simp [Stores.commit, here], ?_⟩
      exact unread was (here ▸ found) blank
    · exact ⟨was, by simp [Stores.commit, here, found], rfl⟩

-- A pass that is over moves no more, and all that it shows has been shown.
theorem moves_touch (metric : LatencyMetric) (pod : Pod) (order : Nat) (log : List Happening)
    (moves : Moves .overwriteOnChange key trouble pass stores next after)
    (unfinished : pass.outcome? = none)
    (traced : Traced .overwriteOnChange stores (podRead? order log) pass)
    (current : ReadsCurrent stores.pods log) :
    Touches metric pod stores log after (next.shows order ++ log) := by
  cases moves with
  | created record free =>
    obtain ⟨seen, read, carries⟩ := traced
    refine commit_touches metric pod seen order log record current read carries fun was found => ?_
    cases free.symm.trans found
  | updated record held found same =>
    obtain ⟨seen, read, carries, tied⟩ := traced
    refine commit_touches metric pod seen order log record current read carries ?_
    intro was stored blank
    cases found.symm.trans stored
    rw [tied held found same, RecordSpec.timestamp_apply, if_neg]
    simp [RecordSpec.writesStamp, Policy.writes, blank]
  | idle outcome => cases unfinished
  | _ => exact touches_refl rfl

end Pass

namespace Workload

structure Traced (load : Workload) (stores : Stores) (log : List Happening) : Prop where
  held : ∀ run ∈ load.running, run.pass.Traced load.policy stores (podRead? run.order log)
  filed : ∀ key pod, stores.pods.pods.find? key = some pod → pod.key = key
  current : ReadsCurrent stores.pods log

variable {load after : Workload} {stores world : Stores} {shown : List Happening}

theorem turns_held (log : List Happening) (turns : Turns load stores after world shown)
    (orderly : Orderly load stores) (traced : load.Traced stores log) :
    ∀ run ∈ after.running,
      run.pass.Traced after.policy world (podRead? run.order (shown ++ log)) := by
  have held := traced.held
  cases turns with
  | dropped => exact held
  | admitted key => exact held
  | received key sender queue free next => exact held
  | started key begun wakes key_held =>
    intro run member
    rcases List.mem_append.mp member with old | new
    · exact held run old
    · rw [List.mem_singleton.mp new]
      trivial
  | advanced run next world trouble found unfinished moves =>
    intro other member
    obtain ⟨former, present, same⟩ := List.mem_map.mp member
    split at same
    · rename_i number
      have itself := run_unique orderly former run present (List.mem_of_find?_eq_some found) number
      subst itself same
      exact Pass.moves_traced former.order log moves orderly.sound (held former present)
    · rename_i number
      subst same
      rw [Pass.read_by_another next run.order former.order log number]
      exact Pass.traced_other moves (orderly.grounded former present) (held former present)
  | finished run work found ended =>
    intro other member
    exact held other (List.mem_filter.mp member).1
  | givenBack run due found =>
    intro other member
    exact held other (List.mem_filter.mp member).1
  | retried entry found => exact held

-- A pass reads the pod that is stored at that moment; no turn changes a pod.
theorem turns_reads (turns : Turns load stores after world shown)
    (filed : ∀ key pod, stores.pods.pods.find? key = some pod → pod.key = key) :
    (∀ order pod, .read order pod ∈ shown → stores.pods.pods.find? pod.key = some pod) ∧
      ∀ pod, .changed pod ∉ shown := by
  cases turns with
  | advanced run next world trouble found unfinished moves =>
    refine ⟨fun order pod member => ?_, fun pod member => ?_⟩
    · rcases next.mem_shows run.order _ member with ⟨seen, same, reading⟩ | ⟨key, same⟩
      · cases same
        subst reading
        generalize run.pass = pass at moves
        cases moves with
        | podRead _ present => rwa [filed run.key pod present]
      · cases same
    · rcases next.mem_shows run.order _ member with ⟨seen, same, _⟩ | ⟨key, same⟩ <;> cases same
  | _ => simp

theorem turns_traced (log : List Happening) (turns : Turns load stores after world shown)
    (orderly : Orderly load stores) (traced : load.Traced stores log) :
    after.Traced world (shown ++ log) := by
  obtain ⟨reads, unchanged⟩ := turns_reads turns traced.filed
  refine ⟨turns_held log turns orderly traced, ?_, ?_⟩
  · rw [turns_pods turns]
    exact traced.filed
  · rw [turns_pods turns]
    exact reads_current_append stores.pods shown log reads unchanged traced.current

theorem turns_touch (metric : LatencyMetric) (pod : Pod) (log : List Happening)
    (turns : Turns load stores after world shown) (traced : load.Traced stores log)
    (overwriting : load.policy = .overwriteOnChange) :
    Touches metric pod stores log world (shown ++ log) := by
  cases turns with
  | advanced run next world trouble found unfinished moves =>
    have held := traced.held run (List.mem_of_find?_eq_some found)
    rw [overwriting] at moves held
    exact Pass.moves_touch metric pod run.order log moves unfinished held traced.current
  | _ => exact touches_refl rfl

end Workload

namespace ControllerRun

def Traced (run : ControllerRun) : Prop := run.load.Traced run.stores run.log

theorem start_traced (settings : ControllerSettings) (health : HealthRegistry) (stores : Stores)
    (built : stores.Built) : (start settings health stores).Traced :=
  ⟨fun _ member => absurd member List.not_mem_nil, stores.built_filed built,
    fun _ _ read => absurd read (by simp [start, podRead?])⟩

theorem upsert_traced (run : ControllerRun) (pod : Pod) (traced : run.Traced) :
    (run.after (.upsert pod)).Traced := by
  obtain ⟨held, filed, current⟩ := traced
  refine ⟨?_, ?_, ?_⟩
  · intro busy member
    simp only [after]
    split
    · exact held busy member
    · exact held busy member
  · exact PodStore.upsert_filed run.stores.pods pod filed
  -- A pod that takes another value has not been read since.
  · intro order seen read since
    simp only [after] at read since
    by_cases same : seen.key = pod.key
    · split at read
      · rename_i unchanged
        rw [if_pos unchanged] at since
        have present := current order seen read since
        simp [after, PodStore.upsert, same, ← unchanged, ← present]
      · rename_i changed
        rw [if_neg changed] at since
        exact absurd same.symm since.1
    · simp only [after, PodStore.upsert, SortedMap.find?_insert, if_neg same]
      split at read
      · rename_i unchanged
        rw [if_pos unchanged] at since
        exact current order seen read since
      · rename_i changed
        rw [if_neg changed] at since
        exact current order seen read since.2

theorem after_traced (run : ControllerRun) (move : RunMove) (orderly : run.Orderly)
    (traced : run.Traced) : (run.after move).Traced := by
  rcases after_turns run move with ⟨pod, rfl⟩ | ⟨shown, turns, log⟩
  · exact upsert_traced run pod traced
  · rw [Traced, log]
    exact Workload.turns_traced run.log turns orderly traced

theorem replay_traced (moves : List RunMove) (run : ControllerRun) (orderly : run.Orderly)
    (traced : run.Traced) : (replay moves run).Traced := by
  induction moves generalizing run with
  | nil => exact traced
  | cons move rest ih =>
    exact ih (run.after move) (after_orderly run move orderly).1
      (after_traced run move orderly traced)

theorem after_touches (metric : LatencyMetric) (pod : Pod) (run : ControllerRun) (move : RunMove)
    (traced : run.Traced) (overwriting : run.load.policy = .overwriteOnChange) :
    Touches metric pod run.stores run.log (run.after move).stores (run.after move).log := by
  rcases after_turns run move with ⟨other, rfl⟩ | ⟨shown, turns, log⟩
  · by_cases unchanged : run.stores.pods.pods.find? other.key = some other
    · refine .spared (by simp [after, unchanged]) (fun was found => ⟨was, found, rfl⟩) ?_
      by_cases same : pod.key = other.key <;> simp [after, PodStore.upsert, same, unchanged]
    · have shown : (run.after (.upsert other)).log = .changed other :: run.log := if_neg unchanged
      rw [shown]
      by_cases same : other.key = pod.key
      · refine .moved (by rw [lastWriter?, if_pos same]) fun held => unchanged ?_
        rw [same, ← held]
        simp [after, PodStore.upsert, same]
      · refine .spared (by rw [lastWriter?, if_neg same]) (fun was found => ⟨was, found, rfl⟩) ?_
        simp [after, PodStore.upsert, Ne.symm same]
  · rw [log]
    exact Workload.turns_touch metric pod run.log turns traced overwriting

theorem replay_accounts (metric : LatencyMetric) (pod : Pod) (moves : List RunMove)
    (run : ControllerRun) (orderly : run.Orderly) (traced : run.Traced)
    (overwriting : run.load.policy = .overwriteOnChange)
    (accounts : Accounts metric pod run.stores run.log) :
    Accounts metric pod (replay moves run).stores (replay moves run).log := by
  induction moves generalizing run with
  | nil => exact accounts
  | cons move rest ih =>
    obtain ⟨ordered, policy, _⟩ := after_orderly run move orderly
    exact ih (run.after move) ordered (after_traced run move orderly traced)
      (policy.trans overwriting)
      (touches_account (after_touches metric pod run move traced overwriting) accounts)

theorem after_stored (run : ControllerRun) (move : RunMove) (pod : Pod)
    (stored : run.stores.pods.pods.find? pod.key = some pod)
    (unmoved : ∀ other, move = .upsert other → other.key = pod.key → other = pod) :
    (run.after move).stores.pods.pods.find? pod.key = some pod := by
  rcases after_turns run move with ⟨other, rfl⟩ | ⟨shown, turns, log⟩
  · by_cases same : other.key = pod.key
    · cases unmoved other rfl same
      simp [after, PodStore.upsert]
    · simp [after, PodStore.upsert, Ne.symm same, stored]
  · rw [Workload.turns_pods turns]
    exact stored

/-- While the pod does not move, its record disagrees with it only by a text that was written. -/
theorem replay_agrees (metric : LatencyMetric) (pod : Pod) (moves : List RunMove)
    (run : ControllerRun) (orderly : run.Orderly) (traced : run.Traced)
    (overwriting : run.load.policy = .overwriteOnChange)
    (stored : run.stores.pods.pods.find? pod.key = some pod)
    (unmoved : ∀ other, .upsert other ∈ moves → other.key = pod.key → other = pod)
    (agrees : AgreesUnwritten metric pod run.stores run.log) :
    AgreesUnwritten metric pod (replay moves run).stores (replay moves run).log := by
  induction moves generalizing run with
  | nil => exact agrees
  | cons move rest ih =>
    obtain ⟨ordered, policy, _⟩ := after_orderly run move orderly
    have still := after_stored run move pod stored fun other same =>
      unmoved other (same ▸ List.mem_cons_self)
    exact ih (run.after move) ordered (after_traced run move orderly traced)
      (policy.trans overwriting) still
      (fun other member => unmoved other (List.mem_cons_of_mem move member))
      (touches_agree (after_touches metric pod run move traced overwriting) stored still agrees)

/-- What the invariants come to: the record has the pod's text, but for a last writer with another
one. -/
theorem agrees_iff_not_overtaken {metric : LatencyMetric} {pod : Pod} {stores : Stores}
    {log : List Happening} {record : Record}
    (found : stores.records.records.find? (Pass.recordKey pod) = some record)
    (stored : stores.pods.pods.find? pod.key = some pod)
    (accounts : Accounts metric pod stores log) (agrees : AgreesUnwritten metric pod stores log) :
    metric.timestamp record.spec = (Observation.ofPod pod).text metric ↔
      ¬ Overtaken metric pod log := by
  cases writer : lastWriter? metric pod log with
  | none =>
    obtain ⟨same, present, stamp⟩ := agrees writer
    cases found.symm.trans present
    refine iff_of_true stamp ?_
    rintro ⟨order, earlier, other, wrote, _⟩
    cases writer.symm.trans wrote
  | some entry =>
    obtain ⟨order, earlier⟩ := entry
    obtain ⟨other, same, read, shares, present, stamp, current⟩ := accounts order earlier writer
    cases found.symm.trans present
    rw [stamp]
    constructor
    · rintro text ⟨number, before, another, wrote, readToo, _, differs, _⟩
      cases writer.symm.trans wrote
      cases read.symm.trans readToo
      exact differs text
    · intro standing
      by_contra differs
      refine standing ⟨order, earlier, other, writer, read, shares, differs, fun alike since => ?_⟩
      cases stored.symm.trans (current alike since)
      exact differs rfl

/-- With overwriting, whenever nothing is left to do, the record of a pod for which an event has
been admitted since it took its value is there, and it has every timestamp that the pod reports,
just unless the pod has been overtaken in that timestamp. -/
theorem records_converge_or_overtaken (settings : ControllerSettings) (health : HealthRegistry)
    (stores : Stores) (built : stores.Built) (overwriting : settings.policy = .overwriteOnChange)
    (moves : List RunMove) (pod : Pod)
    (quiet : (replay moves (start settings health stores)).controller.Quiet)
    (stored : (replay moves (start settings health stores)).stores.pods.pods.find? pod.key =
      some pod)
    (since : AdmittedSince pod.key (replay moves (start settings health stores)).log) :
    ∃ record,
      (replay moves (start settings health stores)).stores.records.records.find?
        (Pass.recordKey pod) = some record ∧
      ∀ metric, (Observation.ofPod pod).text metric ≠ "" →
        (metric.timestamp record.spec = (Observation.ofPod pod).text metric ↔
          ¬ Overtaken metric pod (replay moves (start settings health stores)).log) := by
  have orderly := start_orderly settings health stores built
  have fresh := start_traced settings health stores built
  have overwrites : (start settings health stores).load.policy = .overwriteOnChange := overwriting
  rcases awaited_or_settled _ orderly rfl moves pod stored since with awaited | once
  · exact absurd awaited (quiet_unawaited _ quiet pod)
  · obtain ⟨before, rest, rfl, present, unmoved, first, found, unchanged⟩ := once
    obtain ⟨ordered, policy, _⟩ := replay_orderly before _ orderly
    have traced := replay_traced before _ orderly fresh
    obtain ⟨record, kept, _⟩ := (replay_orderly rest _ ordered).2.2 _ first found
    rw [overwrites] at unchanged
    rw [replay_append] at stored ⊢
    refine ⟨record, kept, fun metric offered => ?_⟩
    have begun : Accounts metric pod stores [] := fun _ _ writer => by cases writer
    have accounted := replay_accounts metric pod before _ orderly fresh overwrites begun
    have settled : AgreesUnwritten metric pod (replay before (start settings health stores)).stores
        (replay before (start settings health stores)).log := fun _ =>
      ⟨first, found, RecordSpec.timestamp_of_unchanged first.spec _ unchanged metric offered⟩
    exact agrees_iff_not_overtaken kept stored
      (replay_accounts metric pod rest _ ordered traced (policy.trans overwrites) accounted)
      (replay_agrees metric pod rest _ ordered traced (policy.trans overwrites) present unmoved
        settled)

def overwritten (moves : List RunMove) : ControllerRun :=
  replay moves (start (everyPod .overwriteOnChange) .empty .empty)

def wholePass (order : Nat) : List RunMove :=
  [.act .receive none 0, .act .start none 0, .act (.advance order) none 0,
    .act (.advance order) none 0, .act (.advance order) none 0, .act (.settle order) none 0]

-- The first pass reads the early value and then waits, while the second brings the late one.
def slowPass : List RunMove :=
  [.upsert earlyPod, .send (.created earlyPod), .act .takeEvent none 0, .act .receive none 0,
    .act .start none 0, .act (.advance 0) none 0, .upsert latePod,
    .send (.updated earlyPod latePod), .act .takeEvent none 0] ++ wholePass 1 ++
  [.act (.advance 0) none 0, .act (.advance 0) none 0, .act (.settle 0) none 0]

theorem slow_pass_ends :
    (overwritten slowPass).controller.Quiet ∧
      (overwritten slowPass).stores.pods.pods.find? latePod.key = some latePod ∧
      AdmittedSince latePod.key (overwritten slowPass).log ∧
      ((overwritten slowPass).stores.records.records.find? (Pass.recordKey latePod)).map
        (fun record => record.spec.timestamps) =
        some ⟨"1970-01-01T00:00:00.000000000Z", "1970-01-01T00:00:02Z", "1970-01-01T00:00:05Z"⟩ := by
  decide +kernel

/-- The slow pass puts its start back; it has read no readiness, so that one stays. -/
theorem slow_pass_overtakes :
    (overwritten slowPass).controller.Quiet ∧
      AdmittedSince latePod.key (overwritten slowPass).log ∧
      Overtaken .timeToStart latePod (overwritten slowPass).log ∧
      ¬ Overtaken .timeToReady latePod (overwritten slowPass).log := by
  obtain ⟨quiet, stored, since, stamps⟩ := slow_pass_ends
  obtain ⟨record, found, agree⟩ :=
    records_converge_or_overtaken (everyPod .overwriteOnChange) .empty .empty .empty rfl slowPass
      latePod quiet stored since
  rw [overwritten, found, Option.map_some, Option.some.injEq] at stamps
  have starts := agree .timeToStart (by decide)
  have ready := agree .timeToReady (by decide)
  simp only [LatencyMetric.timestamp, stamps] at starts ready
  exact ⟨quiet, since, Classical.not_not.mp (mt starts.mpr (by decide)), ready.mp (by decide)⟩

/-- In a run that ends with nothing left to do, an admitted pod has its timestamps in its record. -/
def Converges (moves : List RunMove) (pod : Pod) : Prop :=
  (overwritten moves).controller.Quiet →
    (overwritten moves).stores.pods.pods.find? pod.key = some pod →
    AdmittedSince pod.key (overwritten moves).log →
    ∀ metric, (Observation.ofPod pod).text metric ≠ "" →
      ∃ record,
        (overwritten moves).stores.records.records.find? (Pass.recordKey pod) = some record ∧
        metric.timestamp record.spec = (Observation.ofPod pod).text metric

def namesake (annotations : List (String × String)) : Pod :=
  { Pod.annotated annotations with name := "b" }

-- Another pod with the uid of the first reports its start after its event was admitted.
def sharedUid : List RunMove :=
  [.upsert earlyPod, .upsert (namesake []), .send (.created earlyPod), .act .takeEvent none 0,
    .send (.created (namesake []))] ++ wholePass 0 ++
  [.act .takeEvent none 0, .upsert (namesake [(startKey, "1970-01-01T00:00:09Z")])] ++ wholePass 1

theorem not_converges (moves : List RunMove) (pod : Pod) (metric : LatencyMetric) (written : String)
    (quiet : (overwritten moves).controller.Quiet)
    (stored : (overwritten moves).stores.pods.pods.find? pod.key = some pod)
    (since : AdmittedSince pod.key (overwritten moves).log)
    (offered : (Observation.ofPod pod).text metric ≠ "")
    (found : ((overwritten moves).stores.records.records.find? (Pass.recordKey pod)).map
      (fun record => metric.timestamp record.spec) = some written)
    (differs : written ≠ (Observation.ofPod pod).text metric) : ¬ Converges moves pod := by
  intro converges
  obtain ⟨record, present, same⟩ := converges quiet stored since metric offered
  rw [present, Option.map_some, Option.some.injEq] at found
  exact differs (found.symm.trans same)

/-- No convergence: a slow pass puts the earlier start back, and two pods of one uid share their
record. -/
theorem overwriting_need_not_converge :
    ¬ Converges slowPass latePod ∧ ¬ Converges sharedUid earlyPod := by
  constructor
  · obtain ⟨quiet, stored, since, stamps⟩ := slow_pass_ends
    refine not_converges slowPass latePod .timeToStart "1970-01-01T00:00:02Z" quiet stored since
      (by decide) ?_ (by decide)
    simpa [LatencyMetric.timestamp] using congrArg (Option.map Timestamps.start) stamps
  · exact not_converges sharedUid earlyPod .timeToStart "1970-01-01T00:00:09Z" (by decide +kernel)
      (by decide +kernel) (by decide +kernel) (by decide) (by decide +kernel) (by decide)

end ControllerRun
end StartupLatency
