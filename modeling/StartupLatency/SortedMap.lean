/-!
Finite maps kept as entries in strictly ascending key order. Two maps with the same lookups are
equal (`ext_find?`), so a map may be read either as a function or as a listing.
-/

namespace StartupLatency

variable {κ α : Type}

/-- A finite map: its entries, with strictly ascending keys. -/
structure SortedMap (κ α : Type) [Ord κ] where
  entries : List (κ × α)
  ascending : entries.Pairwise fun a b => compare a.1 b.1 = .lt

namespace SortedMap

section Entries
variable [Ord κ]

def lookupIn (key : κ) : List (κ × α) → Option α
  | [] => none
  | entry :: rest => if compare key entry.1 = .eq then some entry.2 else lookupIn key rest

def insertIn (key : κ) (value : α) : List (κ × α) → List (κ × α)
  | [] => [(key, value)]
  | entry :: rest =>
    match compare key entry.1 with
    | .lt => (key, value) :: entry :: rest
    | .eq => (key, value) :: rest
    | .gt => entry :: insertIn key value rest

def eraseIn (key : κ) (entries : List (κ × α)) : List (κ × α) :=
  entries.filter fun entry => compare key entry.1 ≠ .eq

theorem mem_insertIn {key : κ} {value : α} {entry : κ × α} {entries : List (κ × α)}
    (member : entry ∈ insertIn key value entries) : entry = (key, value) ∨ entry ∈ entries := by
  induction entries with
  | nil => simpa [insertIn] using member
  | cons head rest ih =>
    simp only [insertIn] at member
    split at member
    · simpa using member
    · rcases List.mem_cons.mp member with same | old
      · exact .inl same
      · exact .inr (List.mem_cons_of_mem _ old)
    · rcases List.mem_cons.mp member with same | old
      · exact .inr (same ▸ List.mem_cons_self)
      · exact (ih old).imp_right (List.mem_cons_of_mem _)

theorem lookupIn_map (f : α → β) (key : κ) (entries : List (κ × α)) :
    lookupIn key (entries.map fun entry => (entry.1, f entry.2)) = (lookupIn key entries).map f := by
  induction entries with
  | nil => rfl
  | cons head rest ih =>
    simp only [List.map_cons, lookupIn]
    split <;> simp [ih]

theorem mem_of_lookupIn [Std.LawfulEqOrd κ] {key : κ} {value : α} {entries : List (κ × α)}
    (found : lookupIn key entries = some value) : (key, value) ∈ entries := by
  induction entries with
  | nil => simp [lookupIn] at found
  | cons head rest ih =>
    rw [lookupIn] at found
    split at found
    · rename_i same
      have keys := Std.LawfulEqOrd.eq_of_compare same
      simp only [Option.some.injEq] at found
      subst keys found
      exact List.mem_cons_self
    · exact List.mem_cons_of_mem _ (ih found)

/-- Below every key of the listing, a lookup finds nothing. -/
theorem lookupIn_eq_none_of_lt {key : κ} {entries : List (κ × α)}
    (above : ∀ entry ∈ entries, compare key entry.1 = .lt) : lookupIn key entries = none := by
  induction entries with
  | nil => rfl
  | cons head rest ih =>
    rw [lookupIn, above head List.mem_cons_self]
    simp only [reduceCtorEq, if_false]
    exact ih fun entry member => above entry (List.mem_cons_of_mem _ member)

theorem lookupIn_insertIn [Std.LawfulEqOrd κ] [DecidableEq κ] (wanted key : κ) (value : α)
    (entries : List (κ × α)) :
    lookupIn wanted (insertIn key value entries) =
      if wanted = key then some value else lookupIn wanted entries := by
  induction entries with
  | nil => simp [insertIn, lookupIn]
  | cons head rest ih =>
    simp only [insertIn]
    split
    · simp [lookupIn]
    · rename_i same
      have keys := Std.LawfulEqOrd.eq_of_compare same
      subst keys
      simp only [lookupIn, Std.LawfulEqCmp.compare_eq_iff_eq]
      split <;> rfl
    · rename_i more
      have differ : key ≠ head.1 := by
        intro same; rw [same, Std.ReflOrd.compare_self] at more; contradiction
      simp only [lookupIn, ih, Std.LawfulEqCmp.compare_eq_iff_eq]
      by_cases atHead : wanted = head.1
      · subst atHead
        simp [Ne.symm differ]
      · simp [atHead]

/-- A test of keys alone takes every entry of a key or none. -/
theorem lookupIn_filter [Std.LawfulEqOrd κ] [DecidableEq κ] (wanted : κ) (test : κ → Bool)
    (entries : List (κ × α)) :
    lookupIn wanted (entries.filter fun entry => test entry.1) =
      if test wanted then lookupIn wanted entries else none := by
  induction entries with
  | nil => simp [lookupIn]
  | cons head rest ih =>
    by_cases here : wanted = head.1
    · subst here
      cases kept : test head.1 <;> simp [kept, lookupIn, ih]
    · cases kept : test head.1 <;>
        simp [kept, lookupIn, ih, Std.LawfulEqCmp.compare_eq_iff_eq, here]

theorem lookupIn_eraseIn [Std.LawfulEqOrd κ] [DecidableEq κ] (wanted key : κ)
    (entries : List (κ × α)) :
    lookupIn wanted (eraseIn key entries) =
      if wanted = key then none else lookupIn wanted entries := by
  rw [eraseIn, lookupIn_filter wanted fun other => compare key other ≠ .eq]
  by_cases here : wanted = key
  · simp [here]
  · simp [Std.LawfulEqCmp.compare_eq_iff_eq, here, Ne.symm here]

theorem lookupIn_of_mem [Std.LawfulEqOrd κ] [Std.OrientedOrd κ] {key : κ} {value : α}
    {entries : List (κ × α)} (sorted : entries.Pairwise fun a b => compare a.1 b.1 = .lt)
    (member : (key, value) ∈ entries) : lookupIn key entries = some value := by
  induction entries with
  | nil => cases member
  | cons head rest ih =>
    obtain ⟨below, tail⟩ := List.pairwise_cons.mp sorted
    rcases List.mem_cons.mp member with rfl | later
    · simp [lookupIn]
    · have order : compare key head.1 = .gt := Std.OrientedCmp.gt_of_lt (below _ later)
      rw [lookupIn, order]
      exact ih tail later

variable [Std.TransOrd κ] [Std.LawfulEqOrd κ]

theorem ascending_insertIn (key : κ) (value : α) {entries : List (κ × α)}
    (sorted : entries.Pairwise fun a b => compare a.1 b.1 = .lt) :
    (insertIn key value entries).Pairwise fun a b => compare a.1 b.1 = .lt := by
  induction entries with
  | nil => simp [insertIn]
  | cons head rest ih =>
    have ⟨below, tail⟩ := List.pairwise_cons.mp sorted
    simp only [insertIn]
    split
    · rename_i less
      refine List.pairwise_cons.mpr ⟨?_, sorted⟩
      intro entry member
      rcases List.mem_cons.mp member with same | old
      · subst same; exact less
      · exact Std.TransCmp.lt_trans less (below entry old)
    · rename_i same
      have keys := Std.LawfulEqOrd.eq_of_compare same
      subst keys
      exact List.pairwise_cons.mpr ⟨below, tail⟩
    · rename_i more
      refine List.pairwise_cons.mpr ⟨?_, ih tail⟩
      intro entry member
      rcases mem_insertIn member with same | old
      · subst same; exact Std.OrientedCmp.lt_of_gt more
      · exact below entry old

theorem eq_of_lookupIn_eq {left right : List (κ × α)}
    (sortedLeft : left.Pairwise fun a b => compare a.1 b.1 = .lt)
    (sortedRight : right.Pairwise fun a b => compare a.1 b.1 = .lt)
    (same : ∀ key, lookupIn key left = lookupIn key right) : left = right := by
  induction left generalizing right with
  | nil =>
    cases right with
    | nil => rfl
    | cons head rest =>
      have := same head.1
      simp [lookupIn] at this
  | cons first rest ih =>
    cases right with
    | nil =>
      have := same first.1
      simp [lookupIn] at this
    | cons second others =>
      have ⟨belowFirst, tailLeft⟩ := List.pairwise_cons.mp sortedLeft
      have ⟨belowSecond, tailRight⟩ := List.pairwise_cons.mp sortedRight
      have absentLeft : ∀ key, compare key first.1 = .lt → lookupIn key (first :: rest) = none :=
        fun key less => lookupIn_eq_none_of_lt fun entry member =>
          (List.mem_cons.mp member).elim (fun e => e ▸ less)
            fun old => Std.TransCmp.lt_trans less (belowFirst entry old)
      have absentRight :
          ∀ key, compare key second.1 = .lt → lookupIn key (second :: others) = none :=
        fun key less => lookupIn_eq_none_of_lt fun entry member =>
          (List.mem_cons.mp member).elim (fun e => e ▸ less)
            fun old => Std.TransCmp.lt_trans less (belowSecond entry old)
      have keys : first.1 = second.1 := by
        cases order : compare first.1 second.1 with
        | eq => exact Std.LawfulEqOrd.eq_of_compare order
        | lt =>
          have := same first.1
          rw [absentRight _ order] at this
          simp [lookupIn] at this
        | gt =>
          have := same second.1
          rw [absentLeft _ (Std.OrientedCmp.lt_of_gt order)] at this
          simp [lookupIn] at this
      have values : first.2 = second.2 := by
        have := same first.1
        simpa [lookupIn, keys] using this
      have heads : first = second := Prod.ext keys values
      subst heads
      refine congrArg (first :: ·) (ih tailLeft tailRight fun key => ?_)
      by_cases atHead : key = first.1
      · subst atHead
        rw [lookupIn_eq_none_of_lt belowFirst, lookupIn_eq_none_of_lt belowSecond]
      · have := same key
        simpa [lookupIn, atHead] using this

end Entries

variable [Ord κ]

def empty : SortedMap κ α := ⟨[], .nil⟩

instance : EmptyCollection (SortedMap κ α) := ⟨empty⟩
instance : Inhabited (SortedMap κ α) := ⟨empty⟩

def find? (map : SortedMap κ α) (key : κ) : Option α := lookupIn key map.entries

def contains (map : SortedMap κ α) (key : κ) : Bool := (map.find? key).isSome

def size (map : SortedMap κ α) : Nat := map.entries.length

def isEmpty (map : SortedMap κ α) : Bool := map.entries.isEmpty

def keys (map : SortedMap κ α) : List κ := map.entries.map Prod.fst

def values (map : SortedMap κ α) : List α := map.entries.map Prod.snd

def erase (map : SortedMap κ α) (key : κ) : SortedMap κ α :=
  ⟨eraseIn key map.entries, map.ascending.filter _⟩

def filter (map : SortedMap κ α) (test : κ → α → Bool) : SortedMap κ α :=
  ⟨map.entries.filter fun entry => test entry.1 entry.2, map.ascending.filter _⟩

def mapValues (f : α → β) (map : SortedMap κ α) : SortedMap κ β :=
  ⟨map.entries.map fun entry => (entry.1, f entry.2), List.pairwise_map.mpr map.ascending⟩

def all (map : SortedMap κ α) (test : κ → α → Bool) : Bool :=
  map.entries.all fun entry => test entry.1 entry.2

instance [DecidableEq κ] [DecidableEq α] : DecidableEq (SortedMap κ α) := fun left right =>
  if same : left.entries = right.entries then
    isTrue (by cases left; cases right; simp_all)
  else isFalse fun equal => same (congrArg entries equal)

@[simp] theorem find?_empty (key : κ) : (empty : SortedMap κ α).find? key = none := rfl

@[simp] theorem find?_erase [Std.LawfulEqOrd κ] [DecidableEq κ] (map : SortedMap κ α)
    (wanted key : κ) :
    (map.erase key).find? wanted = if wanted = key then none else map.find? wanted :=
  lookupIn_eraseIn wanted key map.entries

@[simp] theorem find?_filter [Std.LawfulEqOrd κ] [DecidableEq κ] (map : SortedMap κ α)
    (test : κ → Bool) (wanted : κ) :
    (map.filter fun key _ => test key).find? wanted =
      if test wanted then map.find? wanted else none :=
  lookupIn_filter wanted test map.entries

@[simp] theorem find?_mapValues (f : α → β) (map : SortedMap κ α) (key : κ) :
    (map.mapValues f).find? key = (map.find? key).map f :=
  lookupIn_map f key map.entries

theorem nodup_keys [Std.LawfulEqOrd κ] (map : SortedMap κ α) : map.keys.Nodup := by
  refine List.pairwise_map.mpr (map.ascending.imp fun less same => ?_)
  rw [same, Std.ReflOrd.compare_self] at less
  cases less

variable [Std.TransOrd κ] [Std.LawfulEqOrd κ]

theorem find?_of_mem {map : SortedMap κ α} {key : κ} {value : α}
    (member : (key, value) ∈ map.entries) : map.find? key = some value :=
  lookupIn_of_mem map.ascending member

theorem mem_keys (map : SortedMap κ α) (key : κ) : key ∈ map.keys ↔ map.contains key = true := by
  constructor
  · intro member
    obtain ⟨entry, inside, rfl⟩ := List.mem_map.mp member
    rw [contains, find?_of_mem inside]
    rfl
  · intro present
    obtain ⟨value, found⟩ := Option.isSome_iff_exists.mp present
    exact List.mem_map.mpr ⟨(key, value), mem_of_lookupIn found, rfl⟩

theorem mem_values (map : SortedMap κ α) (value : α) :
    value ∈ map.values ↔ ∃ key, map.find? key = some value := by
  constructor
  · intro member
    obtain ⟨entry, inside, rfl⟩ := List.mem_map.mp member
    exact ⟨entry.1, find?_of_mem inside⟩
  · rintro ⟨key, found⟩
    exact List.mem_map.mpr ⟨(key, value), mem_of_lookupIn found, rfl⟩

def insert (map : SortedMap κ α) (key : κ) (value : α) : SortedMap κ α :=
  ⟨insertIn key value map.entries, ascending_insertIn key value map.ascending⟩

-- Insert the pairs one after the other, so the last value of a repeated key stays.
def insertAll (map : SortedMap κ α) (pairs : List (κ × α)) : SortedMap κ α :=
  pairs.foldl (fun grown pair => grown.insert pair.1 pair.2) map

def ofList (pairs : List (κ × α)) : SortedMap κ α := insertAll empty pairs

-- The entries of the second map override those of the first.
def override (map newer : SortedMap κ α) : SortedMap κ α := map.insertAll newer.entries

@[simp] theorem find?_insert [DecidableEq κ] (map : SortedMap κ α) (wanted key : κ) (value : α) :
    (map.insert key value).find? wanted = if wanted = key then some value else map.find? wanted :=
  lookupIn_insertIn wanted key value map.entries

@[simp] theorem find?_override [DecidableEq κ] (map newer : SortedMap κ α) (wanted : κ) :
    (map.override newer).find? wanted = (newer.find? wanted).or (map.find? wanted) := by
  obtain ⟨entries, ascending⟩ := newer
  change (map.insertAll entries).find? wanted = (lookupIn wanted entries).or (map.find? wanted)
  induction entries generalizing map with
  | nil => rfl
  | cons entry rest ih =>
    obtain ⟨below, later⟩ := List.pairwise_cons.mp ascending
    change ((map.insert entry.1 entry.2).insertAll rest).find? wanted = _
    rw [ih _ later, find?_insert, lookupIn]
    by_cases here : wanted = entry.1
    · subst here
      simp [lookupIn_eq_none_of_lt below]
    · simp [Std.LawfulEqCmp.compare_eq_iff_eq, here]

theorem ext_find? {left right : SortedMap κ α} (same : ∀ key, left.find? key = right.find? key) :
    left = right := by
  have entries := eq_of_lookupIn_eq left.ascending right.ascending same
  cases left; cases right
  simpa using entries

theorem isEmpty_iff (map : SortedMap κ α) : map.isEmpty = true ↔ ∀ key, map.find? key = none := by
  constructor
  · intro blank key
    rw [find?, List.isEmpty_iff.mp blank]
    rfl
  · intro absent
    have same : map = ∅ := ext_find? absent
    rw [same]
    rfl

theorem eq_empty_of_isEmpty {map : SortedMap κ α} (blank : map.isEmpty = true) : map = ∅ :=
  ext_find? ((isEmpty_iff map).mp blank)

end SortedMap
end StartupLatency
