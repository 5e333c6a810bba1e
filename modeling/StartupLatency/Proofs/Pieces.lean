import StartupLatency.Text

/-!
Texts in pieces. Pieces without a separator that are joined by it are what the text is split into
again, and whatever is split has no separator in its pieces.
-/

namespace StartupLatency.Text

variable (separator : Char)

theorem split_on_ne_nil (cs : List Char) : splitOn separator cs ≠ [] := by
  cases cs with
  | nil => exact List.cons_ne_nil _ _
  | cons c rest =>
    rw [splitOn]
    split
    · exact List.cons_ne_nil _ _
    · split <;> exact List.cons_ne_nil _ _

theorem split_on_cons (c : Char) (rest : List Char) (plain : c ≠ separator) :
    ∃ piece pieces, splitOn separator rest = piece :: pieces ∧
      splitOn separator (c :: rest) = (c :: piece) :: pieces := by
  obtain ⟨piece, pieces, split⟩ := List.exists_cons_of_ne_nil (split_on_ne_nil separator rest)
  exact ⟨piece, pieces, split, by rw [splitOn, if_neg plain, split]⟩

theorem split_on_piece (piece : List Char) (absent : separator ∉ piece) :
    splitOn separator piece = [piece] := by
  induction piece with
  | nil => rfl
  | cons c rest ih =>
    simp only [List.mem_cons, not_or] at absent
    rw [splitOn, if_neg (Ne.symm absent.1), ih absent.2]

/-- Two texts with a separator between them fall apart into the pieces of both. -/
theorem split_on_between (front back : List Char) :
    splitOn separator (front ++ separator :: back) =
      splitOn separator front ++ splitOn separator back := by
  induction front with
  | nil => simp [splitOn]
  | cons c more ih =>
    by_cases here : c = separator
    · rw [List.cons_append, splitOn, if_pos here, ih, splitOn, if_pos here, List.cons_append]
    · obtain ⟨piece, pieces, split, longer⟩ := split_on_cons separator c more here
      rw [List.cons_append, splitOn, if_neg here, ih, split, longer]
      rfl

theorem split_on_append (piece rest : List Char) (absent : separator ∉ piece) :
    splitOn separator (piece ++ separator :: rest) = piece :: splitOn separator rest := by
  rw [split_on_between, split_on_piece separator piece absent, List.singleton_append]

theorem split_on_joined (first : List Char) (others : List (List Char))
    (absent : ∀ piece ∈ first :: others, separator ∉ piece) :
    splitOn separator (first ++ others.flatMap (separator :: ·)) = first :: others := by
  induction others generalizing first with
  | nil =>
    rw [List.flatMap_nil, List.append_nil]
    exact split_on_piece separator first (absent first List.mem_cons_self)
  | cons second more ih =>
    obtain ⟨here, later⟩ := List.forall_mem_cons.mp absent
    rw [List.flatMap_cons, List.cons_append, split_on_append separator first _ here,
      ih second later]

theorem mem_split_on (cs : List Char) (piece : List Char) (member : piece ∈ splitOn separator cs) :
    separator ∉ piece ∧ ∀ c ∈ piece, c ∈ cs := by
  induction cs generalizing piece with
  | nil =>
    cases List.mem_singleton.mp member
    exact ⟨List.not_mem_nil, fun _ none => none⟩
  | cons c rest ih =>
    by_cases here : c = separator
    · rw [splitOn, if_pos here] at member
      rcases List.mem_cons.mp member with rfl | later
      · exact ⟨List.not_mem_nil, fun _ none => absurd none List.not_mem_nil⟩
      · obtain ⟨absent, within⟩ := ih piece later
        exact ⟨absent, fun d among => List.mem_cons_of_mem c (within d among)⟩
    · obtain ⟨first, others, split, longer⟩ := split_on_cons separator c rest here
      rw [split] at ih
      rw [longer] at member
      rcases List.mem_cons.mp member with rfl | later
      · obtain ⟨absent, within⟩ := ih first List.mem_cons_self
        refine ⟨?_, fun d among => ?_⟩
        · simp [Ne.symm here, absent]
        · rcases List.mem_cons.mp among with rfl | old
          · exact List.mem_cons_self
          · exact List.mem_cons_of_mem c (within d old)
      · obtain ⟨absent, within⟩ := ih piece (List.mem_cons_of_mem first later)
        exact ⟨absent, fun d among => List.mem_cons_of_mem c (within d among)⟩

/-- A text is its pieces with the separator between them. -/
theorem joined_split (cs first : List Char) (others : List (List Char))
    (split : splitOn separator cs = first :: others) :
    cs = first ++ others.flatMap (separator :: ·) := by
  induction cs generalizing first others with
  | nil =>
    cases split
    rfl
  | cons c rest ih =>
    by_cases here : c = separator
    · obtain ⟨piece, pieces, more⟩ := List.exists_cons_of_ne_nil (split_on_ne_nil separator rest)
      rw [splitOn, if_pos here, more] at split
      cases split
      rw [List.flatMap_cons, List.nil_append, List.cons_append, ← ih piece pieces more, here]
    · obtain ⟨piece, pieces, more, longer⟩ := split_on_cons separator c rest here
      rw [longer] at split
      cases split
      rw [List.cons_append, ← ih piece others more]

theorem others_of_absent (cs : List Char) (absent : separator ∉ cs) :
    ∀ c ∈ cs, (c != separator) = true := fun _ member =>
  bne_iff_ne.mpr fun same => absent (same ▸ member)

theorem take_all (cs : List Char) (absent : separator ∉ cs) :
    cs.takeWhile (· != separator) = cs := by
  have whole : (cs ++ []).takeWhile (· != separator) = cs ++ [].takeWhile (· != separator) :=
    List.takeWhile_append_of_pos (others_of_absent separator cs absent)
  simpa using whole

theorem take_before (front back : List Char) (absent : separator ∉ front) :
    (front ++ separator :: back).takeWhile (· != separator) = front := by
  rw [List.takeWhile_append_of_pos (others_of_absent separator front absent)]
  simp

theorem drop_before (front back : List Char) (absent : separator ∉ front) :
    (front ++ separator :: back).dropWhile (· != separator) = separator :: back := by
  rw [List.dropWhile_append_of_pos (others_of_absent separator front absent)]
  simp

theorem mem_trim (cs : List Char) (c : Char) (member : c ∈ trim cs) : c ∈ cs := by
  simp only [trim, dropBlankEnd, List.mem_reverse] at member
  have shorter := (List.dropWhile_suffix isBlank).subset member
  exact (List.dropWhile_suffix isBlank).subset (List.mem_reverse.mp shorter)

theorem trim_unblank (cs : List Char) (first : ∀ c ∈ cs.head?, isBlank c = false)
    (last : ∀ c ∈ cs.getLast?, isBlank c = false) : trim cs = cs := by
  have kept (cs : List Char) (front : ∀ c ∈ cs.head?, isBlank c = false) :
      cs.dropWhile isBlank = cs := by
    cases cs with
    | nil => rfl
    | cons c rest => rw [List.dropWhile_cons_of_neg (by simp [front c rfl])]
  have back : ∀ c ∈ cs.reverse.head?, isBlank c = false := by
    rwa [List.head?_reverse]
  rw [trim, dropBlank, kept cs first, dropBlankEnd, kept cs.reverse back, List.reverse_reverse]

/-- What is left of a text has no blank at either end. -/
theorem trim_ends (cs : List Char) :
    (∀ c ∈ (trim cs).head?, isBlank c = false) ∧ ∀ c ∈ (trim cs).getLast?, isBlank c = false := by
  have kept (cs : List Char) : ∀ c ∈ (cs.dropWhile isBlank).head?, isBlank c = false := by
    intro c first
    have stops := List.head?_dropWhile_not isBlank cs
    rw [Option.mem_def.mp first] at stops
    exact stops
  constructor
  · intro c first
    have front : ((dropBlank cs).reverse.dropWhile isBlank).reverse <+: dropBlank cs := by
      rw [← List.reverse_suffix, List.reverse_reverse]
      exact List.dropWhile_suffix isBlank
    obtain ⟨behind, whole⟩ := front
    refine kept cs c ?_
    rw [← dropBlank, ← whole, List.head?_append]
    exact congrArg (·.or behind.head?) first
  · rw [trim, dropBlankEnd, List.getLast?_reverse]
    exact kept _

/-- Blanks put around a text are taken off again. -/
theorem trim_padded (before cs after : List Char) (blank_before : ∀ c ∈ before, isBlank c = true)
    (blank_after : ∀ c ∈ after, isBlank c = true) : trim (before ++ cs ++ after) = trim cs := by
  have front (cs : List Char) : dropBlank (before ++ cs) = dropBlank cs :=
    List.dropWhile_append_of_pos blank_before
  have back (cs : List Char) : dropBlankEnd (cs ++ after) = dropBlankEnd cs := by
    have turned : ∀ c ∈ after.reverse, isBlank c = true := by simpa using blank_after
    rw [dropBlankEnd, List.reverse_append, List.dropWhile_append_of_pos turned, dropBlankEnd]
  rw [List.append_assoc, trim, front, dropBlank, List.dropWhile_append]
  split
  · rename_i blank
    have none_left : after.dropWhile isBlank = [] := by
      simpa using @List.dropWhile_append_of_pos _ _ after [] blank_after
    rw [none_left, trim, dropBlank, List.isEmpty_iff.mp blank]
  · exact back _

/-- What trimming takes off is blank. -/
theorem trim_parts (cs : List Char) : ∃ before after, cs = before ++ trim cs ++ after ∧
    (∀ c ∈ before, isBlank c = true) ∧ ∀ c ∈ after, isBlank c = true := by
  have blank (cs : List Char) : ∀ c ∈ cs.takeWhile isBlank, isBlank c = true := by
    intro c member
    exact List.all_eq_true.mp (List.all_takeWhile (p := isBlank) (l := cs)) c member
  refine ⟨cs.takeWhile isBlank, ((dropBlank cs).reverse.takeWhile isBlank).reverse, ?_, blank cs,
    fun c member => blank _ c (List.mem_reverse.mp member)⟩
  rw [trim, dropBlankEnd, List.append_assoc, ← List.reverse_append, List.takeWhile_append_dropWhile,
    List.reverse_reverse, dropBlank, List.takeWhile_append_dropWhile]

theorem join_cons (mark first : String) (others : List String) :
    (join mark (first :: others)).toList =
      first.toList ++ others.flatMap fun other => mark.toList ++ other.toList := by
  induction others generalizing first with
  | nil => simp [join]
  | cons second more ih =>
    have rest := ih second
    rw [join] at rest ⊢
    rw [String.intercalate_cons_cons, String.toList_append, String.toList_append, rest]
    simp

end StartupLatency.Text
