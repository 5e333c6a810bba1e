import Mathlib.Data.List.Induction
import StartupLatency.Proofs.SelectorText

/-!
The grammar of selector texts. Each piece between two commas asks for one pair or for nothing, and
the pairs are put in one after the other. So a key stands for what the last piece that names it
says, a text behind another one overrides it, and a piece that asks for nothing might be missing.
-/

namespace StartupLatency

theorem Text.split_on_pieces (separator : Char) (cs : List Char) :
    splitOn separator cs = cs.splitOn separator := by
  obtain ⟨first, others, split⟩ := List.exists_cons_of_ne_nil (split_on_ne_nil separator cs)
  have absent : ∀ piece ∈ first :: others, separator ∉ piece := fun piece member =>
    (mem_split_on separator cs piece (split ▸ member)).1
  have joined (first : List Char) (others : List (List Char)) :
      first ++ others.flatMap (separator :: ·) = [separator].intercalate (first :: others) := by
    induction others generalizing first with
    | nil => simp
    | cons second more ih => simp [List.intercalate_cons_cons, ← ih second]
  have whole := joined_split separator cs first others split
  rw [split, whole, joined, List.splitOn_intercalate separator absent (List.cons_ne_nil _ _)]

namespace SortedMap

variable {κ α : Type} [Ord κ] [Std.TransOrd κ] [Std.LawfulEqOrd κ]

theorem of_list_concat (pairs : List (κ × α)) (pair : κ × α) :
    ofList (pairs ++ [pair]) = (ofList pairs).insert pair.1 pair.2 := List.foldl_append

variable [DecidableEq κ]

theorem find_insert_all (map : SortedMap κ α) (pairs : List (κ × α)) (key : κ) :
    (map.insertAll pairs).find? key = ((ofList pairs).find? key).or (map.find? key) := by
  induction pairs generalizing map with
  | nil => rfl
  | cons pair rest ih =>
    change ((map.insert pair.1 pair.2).insertAll rest).find? key =
      (((empty.insert pair.1 pair.2).insertAll rest).find? key).or (map.find? key)
    rw [ih, ih (empty.insert pair.1 pair.2), Option.or_assoc, find?_insert, find?_insert]
    split <;> rfl

theorem of_list_append (older newer : List (κ × α)) :
    ofList (older ++ newer) = (ofList older).override (ofList newer) := by
  refine ext_find? fun key => ?_
  have grown : ofList (older ++ newer) = (ofList older).insertAll newer := List.foldl_append
  rw [grown, find_insert_all, find?_override]

end SortedMap

namespace Selector

/-- Blanks around it aside, the piece is the key, one `=` and the value. -/
structure Asks (piece : List Char) (key value : String) : Prop where
  whole : Text.trim piece = key.toList ++ '=' :: value.toList
  named : key ≠ ""
  key_sign : '=' ∉ key.toList
  value_sign : '=' ∉ value.toList

/-- The last of the pieces that asks for the key asks for it with this value. -/
def LastAsks (pieces : List (List Char)) (key value : String) : Prop :=
  ∃ before piece after, pieces = before ++ piece :: after ∧ Asks piece key value ∧
    ∀ later ∈ after, ∀ other, ¬ Asks later key other

theorem pair_of_asks (piece : List Char) (key value : String) :
    pairOf? piece = some (key, value) ↔ Asks piece key value := by
  rw [pair_of_iff]
  constructor
  · rintro ⟨whole, named, key_sign, value_sign⟩
    exact ⟨whole, named, key_sign, value_sign⟩
  · rintro ⟨whole, named, key_sign, value_sign⟩
    exact ⟨whole, named, key_sign, value_sign⟩

theorem pair_of_none (piece : List Char) :
    pairOf? piece = none ↔ ∀ key value, ¬ Asks piece key value := by
  simp only [← pair_of_asks, Option.eq_none_iff_forall_ne_some, Prod.forall, ne_eq]

theorem last_asks_concat (pieces : List (List Char)) (piece : List Char) (key value : String) :
    LastAsks (pieces ++ [piece]) key value ↔
      Asks piece key value ∨ (∀ other, ¬ Asks piece key other) ∧ LastAsks pieces key value := by
  constructor
  · rintro ⟨before, last, after, split, asks, silent⟩
    rcases List.eq_nil_or_concat after with rfl | ⟨between, final, rfl⟩
    · obtain ⟨-, same⟩ := List.append_inj' split rfl
      cases same
      exact Or.inl asks
    · rw [List.concat_eq_append, ← List.cons_append, ← List.append_assoc] at split
      obtain ⟨front, same⟩ := List.append_inj' split rfl
      cases same
      refine Or.inr ⟨silent piece (by simp), before, last, between, front, asks, ?_⟩
      exact fun later member => silent later (by simp [member])
  · rintro (asks | ⟨silent, before, last, after, rfl, asks, others⟩)
    · exact ⟨pieces, piece, [], rfl, asks, fun later member => absurd member List.not_mem_nil⟩
    · refine ⟨before, last, after ++ [piece], by simp, asks, fun later member => ?_⟩
      rcases List.mem_append.mp member with early | final
      · exact others later early
      · cases List.mem_singleton.mp final
        exact silent

theorem find_pairs_iff (pieces : List (List Char)) (key value : String) :
    (SortedMap.ofList (pieces.filterMap pairOf?)).find? key = some value ↔
      LastAsks pieces key value := by
  -- From the end: the last piece decides if it names the key, else those before it do.
  induction pieces using List.reverseRecOn with
  | nil =>
    constructor
    · exact nofun
    · rintro ⟨before, piece, after, split, -⟩
      exact absurd split.symm (List.append_ne_nil_of_right_ne_nil _ (List.cons_ne_nil _ _))
  | append_singleton pieces piece ih =>
    rw [last_asks_concat, List.filterMap_append, ← ih]
    cases read : pairOf? piece with
    | none =>
      have silent := (pair_of_none piece).mp read
      simp [read, silent]
    | some pair =>
      have asks : Asks piece pair.1 pair.2 := (pair_of_asks piece pair.1 pair.2).mp read
      have only (key value : String) : Asks piece key value ↔ pair = (key, value) := by
        rw [← pair_of_asks, read, Option.some.injEq]
      rw [List.filterMap_cons_some read, List.filterMap_nil, SortedMap.of_list_concat,
        SortedMap.find?_insert]
      by_cases named : key = pair.1
      · simp [only, named, Prod.ext_iff]
      · simp [only, named, Ne.symm named, Prod.ext_iff]

theorem parse_pieces (raw : String) :
    parse raw = ⟨SortedMap.ofList ((raw.toList.splitOn ',').filterMap pairOf?)⟩ := by
  rw [parse, parseChars, Text.split_on_pieces]

theorem parse_between (front back : String) :
    parse (front ++ "," ++ back) = ⟨(parse front).pairs.override (parse back).pairs⟩ := by
  have pieces : Text.splitOn ',' (front ++ "," ++ back).toList =
      Text.splitOn ',' front.toList ++ Text.splitOn ',' back.toList := by
    rw [← Text.split_on_between]
    simp
  rw [parse, parseChars, pieces, List.filterMap_append, SortedMap.of_list_append]
  rfl

theorem parse_without (before after : List (List Char)) (piece : List Char) (raw shorter : String)
    (split : raw.toList.splitOn ',' = before ++ piece :: after)
    (rest : shorter.toList.splitOn ',' = before ++ after)
    (silent : ∀ key value, ¬ Asks piece key value) : parse raw = parse shorter := by
  rw [parse_pieces, parse_pieces, split, rest, List.filterMap_append, List.filterMap_append,
    List.filterMap_cons_none ((pair_of_none piece).mpr silent)]

/-- A text behind another one overrides it, a key stands for what the last piece that asks for it
says, and a piece that asks for nothing changes nothing. -/
theorem last_pair_counts :
    (∀ front back : String,
      parse (front ++ "," ++ back) = ⟨(parse front).pairs.override (parse back).pairs⟩) ∧
    (∀ (raw key value : String), (parse raw).pairs.find? key = some value ↔
      LastAsks (raw.toList.splitOn ',') key value) ∧
    ∀ (before after : List (List Char)) (piece : List Char) (raw shorter : String),
      raw.toList.splitOn ',' = before ++ piece :: after →
      shorter.toList.splitOn ',' = before ++ after →
      (∀ key value, ¬ Asks piece key value) → parse raw = parse shorter := by
  refine ⟨parse_between, fun raw key value => ?_, parse_without⟩
  rw [parse_pieces]
  exact find_pairs_iff _ key value

-- A piece with two signs and one without a key stand between two pairs of one key.
theorem broken_pieces_passed_over :
    parse ("app=sut" ++ "," ++ "tier = web ,app=") =
        ⟨(parse "app=sut").pairs.override (parse "tier = web ,app=").pairs⟩ ∧
      (parse "app=sut,a=b=c,=x, app =y,app=").pairs.find? "app" = some "" ∧
      parse "app=sut,a=b=c,app=" = parse "app=sut,app=" := by
  obtain ⟨overrides, counts, without⟩ := last_pair_counts
  refine ⟨overrides _ _, (counts _ _ _).mpr ?_, ?_⟩
  · have asks : Asks "app=".toList "app" "" := ⟨rfl, by decide, by decide, by decide⟩
    exact ⟨["app=sut".toList, "a=b=c".toList, "=x".toList, " app =y".toList], _, [], rfl, asks,
      fun later member => absurd member List.not_mem_nil⟩
  · exact without ["app=sut".toList] ["app=".toList] "a=b=c".toList _ _ rfl rfl
      ((pair_of_none _).mp rfl)

end Selector
end StartupLatency
