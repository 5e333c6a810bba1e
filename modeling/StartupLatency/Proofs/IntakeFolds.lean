import StartupLatency.Proofs.Intake

/-!
Folds of observations into one specification. Each part keeps one of the texts that come by: the
node, and a timestamp where the first write wins, the first that is not empty, a timestamp that is
overwritten the last. A latency goes with the text that is written, so it is that of the text which
is left, unless none was written at all.
-/

namespace StartupLatency

namespace Policy

def firstText (texts : List String) : String := (texts.find? fun text => text != "").getD ""

def left : Policy → List String → String
  | .firstWriteWins, texts => firstText texts
  | .overwriteOnChange, texts => firstText texts.reverse

def GivesWay (policy : Policy) (current observed : String) : Prop :=
  match policy with
  | .firstWriteWins => current = ""
  | .overwriteOnChange => current ≠ observed

theorem first_text_cons (text : String) (rest : List String) :
    firstText (text :: rest) = if text = "" then firstText rest else text := by
  by_cases blank : text = "" <;> simp [firstText, blank]

theorem first_text_append (texts more : List String) :
    firstText (texts ++ more) = if firstText texts = "" then firstText more else firstText texts := by
  induction texts with
  | nil => simp [firstText]
  | cons text rest ih =>
    rw [List.cons_append, first_text_cons, first_text_cons, ih]
    by_cases blank : text = "" <;> simp [blank]

theorem writes_iff (policy : Policy) (current observed : String) :
    policy.writes current observed = true ↔ observed ≠ "" ∧ policy.GivesWay current observed := by
  cases policy <;> simp [writes, GivesWay]

/-- The text that a first observation leaves stands for both in what is left later on. -/
theorem left_cons (policy : Policy) (current observed : String) (rest : List String) :
    policy.left (current :: observed :: rest) =
      policy.left ((if policy.writes current observed then observed else current) :: rest) := by
  cases policy with
  | firstWriteWins =>
    by_cases blank : current = "" <;> by_cases unseen : observed = "" <;>
      simp [left, writes, first_text_cons, blank, unseen]
  | overwriteOnChange =>
    -- From the back, the two are looked at only if nothing behind them is set.
    simp only [left, List.reverse_cons, List.append_assoc, List.cons_append, List.nil_append,
      first_text_append _ [observed, current], first_text_append _ [_]]
    by_cases unseen : observed = "" <;> by_cases same : current = observed <;>
      simp [writes, first_text_cons, unseen, same]

theorem left_single (policy : Policy) (text : String) : policy.left [text] = text := by
  cases policy <;> simp [left, firstText] <;> by_cases blank : text = "" <;> simp [blank]

end Policy

namespace RecordSpec

def applyAll (spec : RecordSpec) (seen : List Observation) (policy : Policy) : RecordSpec :=
  seen.foldl (fun spec one => spec.apply one policy) spec

/-- An observation is written to the source timestamp of a metric: another text stands there. -/
def Writes (spec : RecordSpec) (seen : Observation) (policy : Policy) (metric : LatencyMetric) :
    Prop :=
  metric.timestamp (spec.apply seen policy) ≠ metric.timestamp spec

def WritesSome (spec : RecordSpec) (seen : List Observation) (policy : Policy)
    (metric : LatencyMetric) : Prop :=
  ∃ before one after, seen = before ++ one :: after ∧
    (spec.applyAll before policy).Writes one policy metric

theorem writes_iff (spec : RecordSpec) (seen : Observation) (policy : Policy)
    (metric : LatencyMetric) :
    spec.Writes seen policy metric ↔ spec.writesStamp seen policy metric = true := by
  rw [Writes, timestamp_apply]
  cases written : spec.writesStamp seen policy metric with
  | false => simp
  | true =>
    obtain ⟨offered, free⟩ := (policy.writes_iff _ _).mp written
    have differs : seen.text metric ≠ metric.timestamp spec := by
      cases policy with
      | firstWriteWins => exact fun same => offered (same.trans free)
      | overwriteOnChange => exact Ne.symm free
    simpa using differs

/-- The flag tells whether the record is another one. -/
theorem changed_by_iff_ne (spec : RecordSpec) (seen : Observation) (policy : Policy) :
    spec.changedBy seen policy = true ↔ spec.apply seen policy ≠ spec := by
  constructor
  · intro changed same
    have unchanged := applied_unchanged spec seen policy
    rw [same, changed] at unchanged
    cases unchanged
  · intro differs
    cases changed : spec.changedBy seen policy with
    | true => rfl
    | false => exact absurd (apply_of_unchanged spec seen policy changed) differs

-- The node goes by the first policy, whatever the policy for timestamps is.
theorem writes_node_eq (spec : RecordSpec) (seen : Observation) :
    spec.writesNode seen = Policy.firstWriteWins.writes spec.podRef.node seen.node := by
  rw [writesNode, Policy.writes, Bool.and_comm]

theorem node_folded (spec : RecordSpec) (policy : Policy) (seen : List Observation) :
    (spec.applyAll seen policy).podRef.node =
      Policy.firstText (spec.podRef.node :: seen.map Observation.node) := by
  change _ = Policy.firstWriteWins.left (spec.podRef.node :: seen.map Observation.node)
  induction seen generalizing spec with
  | nil => exact (Policy.left_single _ _).symm
  | cons one rest ih =>
    rw [List.map_cons, Policy.left_cons, ← writes_node_eq, ← node_apply spec one policy]
    exact ih (spec.apply one policy)

theorem timestamp_folded (spec : RecordSpec) (policy : Policy) (seen : List Observation)
    (metric : LatencyMetric) :
    metric.timestamp (spec.applyAll seen policy) =
      policy.left (metric.timestamp spec :: seen.map fun one => one.text metric) := by
  induction seen generalizing spec with
  | nil => exact (policy.left_single _).symm
  | cons one rest ih =>
    rw [List.map_cons, Policy.left_cons, ← writesStamp, ← timestamp_apply]
    exact ih (spec.apply one policy)

theorem writes_some_cons (spec : RecordSpec) (one : Observation) (rest : List Observation)
    (policy : Policy) (metric : LatencyMetric) :
    spec.WritesSome (one :: rest) policy metric ↔
      spec.Writes one policy metric ∨ (spec.apply one policy).WritesSome rest policy metric := by
  constructor
  · rintro ⟨before, now, after, split, written⟩
    cases before with
    | nil =>
      obtain ⟨rfl, rfl⟩ := List.cons.inj split
      exact Or.inl written
    | cons first before =>
      obtain ⟨rfl, rfl⟩ := List.cons.inj split
      exact Or.inr ⟨before, now, after, rfl, written⟩
  · rintro (written | ⟨before, now, after, rfl, written⟩)
    · exact ⟨[], one, rest, rfl, written⟩
    · exact ⟨one :: before, now, after, rfl, written⟩

theorem unwritten_folded (spec : RecordSpec) (policy : Policy) (seen : List Observation)
    (metric : LatencyMetric) (unwritten : ¬ spec.WritesSome seen policy metric) :
    metric.timestamp (spec.applyAll seen policy) = metric.timestamp spec ∧
      metric.value (spec.applyAll seen policy) = metric.value spec := by
  induction seen generalizing spec with
  | nil => exact ⟨rfl, rfl⟩
  | cons one rest ih =>
    rw [writes_some_cons, not_or] at unwritten
    obtain ⟨text, value⟩ := ih (spec.apply one policy) unwritten.2
    have passed : spec.writesStamp one policy metric = false := by
      simpa [writes_iff] using unwritten.1
    rw [timestamp_apply, passed] at text
    rw [value_apply, passed] at value
    exact ⟨text, value⟩

/-- The last text that was written is the one that is left, and the latency is its own. -/
theorem written_folded (spec : RecordSpec) (policy : Policy) (created : Instant)
    (seen : List Observation) (shared : ∀ one ∈ seen, one.created = created)
    (metric : LatencyMetric) (written : spec.WritesSome seen policy metric) :
    metric.value (spec.applyAll seen policy) =
      Observation.latency created (metric.timestamp (spec.applyAll seen policy)) := by
  induction seen generalizing spec with
  | nil =>
    obtain ⟨before, _, _, split, _⟩ := written
    cases before <;> cases split
  | cons one rest ih =>
    have later := fun other member => shared other (List.mem_cons_of_mem one member)
    by_cases again : (spec.apply one policy).WritesSome rest policy metric
    · exact ih (spec.apply one policy) later again
    · have here := ((writes_some_cons spec one rest policy metric).mp written).resolve_right again
      obtain ⟨text, value⟩ := unwritten_folded (spec.apply one policy) policy rest metric again
      rw [timestamp_apply, if_pos ((writes_iff _ _ _ _).mp here)] at text
      rw [value_apply, if_pos ((writes_iff _ _ _ _).mp here), shared one List.mem_cons_self] at value
      exact value.trans (congrArg (Observation.latency created) text.symm)

theorem identity_folded (spec : RecordSpec) (policy : Policy) (seen : List Observation) :
    Keeps policy spec (spec.applyAll seen policy) := by
  induction seen generalizing spec with
  | nil => exact keeps_refl policy spec
  | cons one rest ih =>
    exact keeps_trans policy _ _ _ (keeps_apply spec one policy) (ih (spec.apply one policy))

/-- What observations of one creation leave of a specification. The node is the first one that was
known; a timestamp is the first or the last that was, as the policy says, and its latency is its own
unless it was never written. An observation is written where it offers a text that the present one
gives way to, the flag tells whether it changed anything, and right after itself it does not. -/
theorem observations_fold (spec : RecordSpec) (policy : Policy) (created : Instant)
    (seen : List Observation) (shared : ∀ one ∈ seen, one.created = created) :
    (spec.applyAll seen policy).podRef.node =
      Policy.firstText (spec.podRef.node :: seen.map Observation.node) ∧
    (∀ metric : LatencyMetric,
      metric.timestamp (spec.applyAll seen policy) =
        policy.left (metric.timestamp spec :: seen.map fun one => one.text metric) ∧
      (¬ spec.WritesSome seen policy metric →
        metric.value (spec.applyAll seen policy) = metric.value spec) ∧
      (spec.WritesSome seen policy metric →
        metric.value (spec.applyAll seen policy) =
          (Observation.latency? created
            (metric.timestamp (spec.applyAll seen policy))).getD 0)) ∧
    ((spec.applyAll seen policy).podRef.ns = spec.podRef.ns ∧
      (spec.applyAll seen policy).podRef.name = spec.podRef.name ∧
      (spec.applyAll seen policy).podRef.uid = spec.podRef.uid ∧
      (spec.applyAll seen policy).timestamps.created = spec.timestamps.created ∧
      (spec.applyAll seen policy).labels = spec.labels) ∧
    ∀ before one after, seen = before ++ one :: after →
      ∀ old, old = spec.applyAll before policy →
        (∀ metric : LatencyMetric, old.Writes one policy metric ↔
          one.text metric ≠ "" ∧ policy.GivesWay (metric.timestamp old) (one.text metric)) ∧
        (old.changedBy one policy = true ↔ old.apply one policy ≠ old) ∧
        (old.apply one policy).changedBy one policy = false ∧
        (old.apply one policy).apply one policy = old.apply one policy := by
  have kept := identity_folded spec policy seen
  refine ⟨node_folded spec policy seen, fun metric => ⟨timestamp_folded spec policy seen metric,
    fun unwritten => (unwritten_folded spec policy seen metric unwritten).2,
    written_folded spec policy created seen shared metric⟩,
    ⟨kept.ns, kept.name, kept.uid, kept.created, kept.labels⟩, ?_⟩
  intro before one after _ old _
  have unchanged := applied_unchanged old one policy
  refine ⟨fun metric => ?_, changed_by_iff_ne old one policy, unchanged,
    apply_of_unchanged _ one policy unchanged⟩
  rw [writes_iff, writesStamp, Policy.writes_iff]

-- A start that is overwritten with a garbled one, taken back and offered once more, while the node
-- moves on.
def wavering : List Observation :=
  [⟨.epoch, "", "1970-01-01T00:00:02Z", ""⟩, ⟨.epoch, "node-1", "soon", ""⟩,
    ⟨.epoch, "node-2", "", "1970-01-01T00:00:05Z"⟩, ⟨.epoch, "", "1970-01-01T00:00:03Z", "never"⟩]

def blank : RecordSpec := (Record.unobserved earlyPod).spec

theorem wavering_folds :
    (∀ one ∈ wavering, one.created = .epoch) ∧
    (blank.applyAll wavering .overwriteOnChange).podRef.node = "node-1" ∧
    (blank.applyAll wavering .overwriteOnChange).timestamps.start = "1970-01-01T00:00:03Z" ∧
    (blank.applyAll wavering .overwriteOnChange).latencies.start = 3000 ∧
    (blank.applyAll wavering .overwriteOnChange).latencies.ready = 0 ∧
    (blank.applyAll wavering .firstWriteWins).timestamps.start = "1970-01-01T00:00:02Z" := by
  have shared : ∀ one ∈ wavering, one.created = .epoch := by decide
  obtain ⟨node, metrics, _, _⟩ :=
    observations_fold blank .overwriteOnChange .epoch wavering shared
  have first := (observations_fold blank .firstWriteWins .epoch wavering shared).2.1 .timeToStart
  obtain ⟨start, _, derived⟩ := metrics .timeToStart
  obtain ⟨ready, _, unread⟩ := metrics .timeToReady
  have written : ∀ metric, blank.WritesSome wavering .overwriteOnChange metric := by
    intro metric
    refine ⟨wavering.take 3, _, [], rfl, (writes_iff _ _ _ _).mpr ?_⟩
    cases metric <;> decide
  refine ⟨shared, node.trans (by decide), start.trans (by decide),
    (derived (written _)).trans ?_, (unread (written _)).trans ?_, first.1.trans (by decide)⟩
  · rw [start]
    decide +kernel
  · rw [ready]
    decide +kernel

end RecordSpec
end StartupLatency
