import StartupLatency.Cluster.ObjectServer
import StartupLatency.Proofs.Pieces

/-!
Selectors as texts. What has been read from a text is written without any separator inside a key or
a value, so that a server that splits the text again asks for the same labels. The selectors that
some text is read as are those that are read back from the text they are written as.
-/

namespace StartupLatency

theorem SortedMap.mem_insert_all {κ α : Type} [Ord κ] [Std.TransOrd κ] [Std.LawfulEqOrd κ]
    (map : SortedMap κ α) (pairs : List (κ × α)) (entry : κ × α)
    (member : entry ∈ (map.insertAll pairs).entries) : entry ∈ pairs ∨ entry ∈ map.entries := by
  induction pairs generalizing map with
  | nil => exact Or.inr member
  | cons pair rest ih =>
    rcases ih (map.insert pair.1 pair.2) member with later | before
    · exact Or.inl (List.mem_cons_of_mem pair later)
    · rcases SortedMap.mem_insertIn before with rfl | old
      · exact Or.inl List.mem_cons_self
      · exact Or.inr old

theorem SortedMap.of_list_entries {κ α : Type} [Ord κ] [Std.TransOrd κ] [Std.LawfulEqOrd κ]
    [DecidableEq κ] (map : SortedMap κ α) : SortedMap.ofList map.entries = map := by
  refine SortedMap.ext_find? fun key => ?_
  have grown := SortedMap.find?_override SortedMap.empty map key
  rw [SortedMap.find?_empty, Option.or_none] at grown
  exact grown

namespace Selector

-- The text of the selector falls apart into its pairs alone.
def Separable (selector : Selector) : Prop :=
  ∀ pair ∈ selector.pairs.entries,
    ',' ∉ pair.1.toList ∧ '=' ∉ pair.1.toList ∧ ',' ∉ pair.2.toList

/-- A pair that can be told from its text, alone and among others. -/
structure WritablePair (pair : String × String) : Prop where
  named : pair.1 ≠ ""
  key_comma : ',' ∉ pair.1.toList
  key_sign : '=' ∉ pair.1.toList
  value_comma : ',' ∉ pair.2.toList
  value_sign : '=' ∉ pair.2.toList
  key_start : ∀ c ∈ pair.1.toList.head?, Text.isBlank c = false
  value_end : ∀ c ∈ pair.2.toList.getLast?, Text.isBlank c = false

def Writable (selector : Selector) : Prop :=
  ∀ pair ∈ selector.pairs.entries, WritablePair pair

theorem pair_text_chars (pair : String × String) :
    (pairText pair).toList = pair.1.toList ++ '=' :: pair.2.toList := by
  simp [pairText]

/-- Blanks count around the sign, not around the pair. -/
theorem pair_of_iff (piece : List Char) (pair : String × String) :
    pairOf? piece = some pair ↔
      Text.trim piece = pair.1.toList ++ '=' :: pair.2.toList ∧ pair.1 ≠ "" ∧
        '=' ∉ pair.1.toList ∧ '=' ∉ pair.2.toList := by
  constructor
  · intro read
    unfold pairOf? at read
    split at read
    · rename_i key value split
      have whole := Text.joined_split '=' _ key [value] split
      have absent (part : List Char) (member : part ∈ [key, value]) : '=' ∉ part :=
        (Text.mem_split_on '=' _ part (split ▸ member)).1
      split at read
      · cases read
      · rename_i named
        cases read
        refine ⟨by simpa using whole, ?_, ?_, ?_⟩
        · simpa [String.ext_iff] using named
        · simpa using absent key (by simp)
        · simpa using absent value (by simp)
    · cases read
  · rintro ⟨whole, named, key_sign, value_sign⟩
    have key : pair.1.toList.isEmpty = false :=
      List.isEmpty_eq_false_iff.mpr fun blank => named (String.toList_inj.mp blank)
    rw [pairOf?, whole, Text.split_on_append '=' _ _ key_sign,
      Text.split_on_piece '=' _ value_sign]
    simp [key]

theorem pair_of_text (pair : String × String) (writable : WritablePair pair) :
    pairOf? (pairText pair).toList = some pair := by
  refine (pair_of_iff _ pair).mpr ⟨?_, writable.named, writable.key_sign, writable.value_sign⟩
  rw [pair_text_chars]
  refine Text.trim_unblank _ ?_ ?_
  · intro c first
    refine writable.key_start c ?_
    cases key : pair.1.toList with
    | nil => exact absurd (String.toList_inj.mp key) writable.named
    | cons d rest => simpa [key] using first
  · intro c last
    rw [List.getLast?_append, List.getLast?_cons] at last
    cases value : pair.2.toList.getLast? with
    | none =>
      rw [value] at last
      cases last
      decide
    | some d =>
      rw [value] at last
      cases last
      exact writable.value_end d value

/-- Whatever a text is read as, its pairs can be told from their texts. -/
theorem parse_writable (raw : String) : (parse raw).Writable := by
  intro pair member
  rcases SortedMap.mem_insert_all ∅ _ pair member with given | old
  · obtain ⟨piece, split, read⟩ := List.mem_filterMap.mp given
    obtain ⟨whole, named, key_sign, value_sign⟩ := (pair_of_iff piece pair).mp read
    have comma : ',' ∉ pair.1.toList ++ '=' :: pair.2.toList := fun here =>
      (Text.mem_split_on ',' _ piece split).1 (Text.mem_trim piece ',' (whole ▸ here))
    obtain ⟨first, last⟩ := Text.trim_ends piece
    rw [whole] at first last
    rw [List.mem_append, List.mem_cons, not_or, not_or] at comma
    refine ⟨named, comma.1, key_sign, comma.2.2, value_sign, ?_, ?_⟩
    · intro c start
      refine first c ?_
      rw [List.head?_append, Option.mem_def.mp start]
      rfl
    · intro c stop
      refine last c ?_
      rw [List.getLast?_append, List.getLast?_cons, Option.mem_def.mp stop]
      rfl
  · cases old

theorem writable_separable {selector : Selector} (writable : selector.Writable) :
    selector.Separable := by
  intro pair listed
  obtain ⟨_, key_comma, key_sign, value_comma, _⟩ := writable pair listed
  exact ⟨key_comma, key_sign, value_comma⟩

theorem parse_separable (raw : String) : (parse raw).Separable :=
  writable_separable (parse_writable raw)

theorem text_pieces (selector : Selector) (separable : selector.Separable)
    (asks : selector.isEmpty = false) :
    Text.splitOn ',' selector.text.toList =
      selector.pairs.entries.map fun pair => (pairText pair).toList := by
  have whole : ∀ piece ∈ selector.pairs.entries.map fun pair => (pairText pair).toList,
      ',' ∉ piece := by
    intro piece member
    obtain ⟨pair, listed, rfl⟩ := List.mem_map.mp member
    obtain ⟨key, _, value⟩ := separable pair listed
    simp [pairText, key, value]
  unfold text
  cases entries : selector.pairs.entries with
  | nil =>
    simp [isEmpty, SortedMap.isEmpty, entries] at asks
  | cons first others =>
    rw [entries, List.map_cons] at whole
    have joined := Text.split_on_joined ',' _ _ whole
    rw [List.map_cons, Text.join_cons, List.map_cons, ← joined]
    simp [List.flatMap_map]

theorem eq_empty {selector : Selector} (blank : selector.isEmpty = true) : selector = empty :=
  congrArg Selector.mk (SortedMap.eq_empty_of_isEmpty blank)

theorem pairs_of_texts (pairs : List (String × String))
    (writable : ∀ pair ∈ pairs, WritablePair pair) :
    (pairs.map fun pair => (pairText pair).toList).filterMap pairOf? = pairs := by
  induction pairs with
  | nil => rfl
  | cons pair rest ih =>
    obtain ⟨here, later⟩ := List.forall_mem_cons.mp writable
    rw [List.map_cons, List.filterMap_cons_some (pair_of_text pair here), ih later]

theorem parse_text (selector : Selector) (writable : selector.Writable) :
    parse selector.text = selector := by
  cases asks : selector.isEmpty with
  | true =>
    rw [eq_empty asks]
    rfl
  | false =>
    rw [parse, parseChars, text_pieces selector (writable_separable writable) asks,
      pairs_of_texts _ writable, SortedMap.of_list_entries]

/-- A server that takes the text of the selector apart asks for the labels of the selector. -/
theorem fulfils_text (selector : Selector) (labels : Labels) (separable : selector.Separable)
    (asks : selector.isEmpty = false) :
    Cluster.ObjectServer.fulfils labels selector.text = selector.matchesLabels labels := by
  rw [Cluster.ObjectServer.fulfils, text_pieces selector separable asks, List.all_map,
    matchesLabels, SortedMap.all, Bool.eq_iff_iff, List.all_eq_true, List.all_eq_true]
  refine forall_congr' fun pair => forall_congr' fun listed => ?_
  have key := (separable pair listed).2.1
  rw [Function.comp_apply, pair_text_chars, Text.take_before '=' _ _ key,
    Text.drop_before '=' _ _ key]
  simp

end Selector
end StartupLatency
