import Mathlib.Data.List.Induction
import StartupLatency.Proofs.Pieces
import StartupLatency.Text.Decimal

/-!
Reading back what was written. A written number is read digit by digit onto whatever has been read
so far, so the law is stated with digits still to come behind it. In a fixed width the lowest digits
are written, and a number that fits is the same whether it is padded or written in that width.
-/

namespace StartupLatency.Text.Decimal

theorem digit_of_small : ∀ d < 10, digit? (Char.ofNat (48 + d)) = some d := by decide

theorem digit_char (n : Nat) : digit? (digitChar n) = some (n % 10) :=
  digit_of_small (n % 10) (Nat.mod_lt n (by decide))

theorem read_from_digits (n : Nat) (behind : List Char) :
    readFrom 0 (digitsOnto n behind) = readFrom n behind := by
  induction n using Nat.strongRecOn generalizing behind with
  | ind n ih =>
    rw [digitsOnto]
    by_cases small : n < 10
    · simp [small, readFrom, digit_char, Nat.mod_eq_of_lt small]
    · have shorter : n / 10 < n := Nat.div_lt_self (by omega) (by decide)
      simp only [small, ↓reduceDIte]
      rw [ih (n / 10) shorter, readFrom, digit_char, Option.bind_some, Nat.div_add_mod]

theorem read_write (n : Nat) : readFrom 0 (write n) = some n := read_from_digits n []

theorem text_injective (a b : Nat) (same : text a = text b) : a = b := by
  have digits : write a = write b := String.ofList_injective same
  have values : some a = some b := by rw [← read_write a, digits, read_write b]
  exact Option.some.inj values

/-! Numbers of a fixed width. -/

theorem digits_onto (n : Nat) (behind : List Char) : digitsOnto n behind = write n ++ behind := by
  induction n using Nat.strongRecOn generalizing behind with
  | ind n ih =>
    rw [write, digitsOnto]
    conv => rhs; rw [digitsOnto]
    by_cases small : n < 10
    · simp [small]
    · have shorter : n / 10 < n := Nat.div_lt_self (by omega) (by decide)
      simp only [small, ↓reduceDIte]
      rw [ih (n / 10) shorter, ih (n / 10) shorter [digitChar n], List.append_assoc,
        List.singleton_append]

theorem write_last_digit (n : Nat) :
    write n = if n < 10 then [digitChar n] else write (n / 10) ++ [digitChar n] := by
  rw [write, digitsOnto]
  split
  · rfl
  · exact digits_onto _ _

theorem is_digit_char (n : Nat) : isDigit (digitChar n) = true := by
  have all : ∀ d < 10, isDigit (Char.ofNat (48 + d)) = true := by decide
  exact all (n % 10) (Nat.mod_lt n (by decide))

theorem digit_char_unblank (n : Nat) : isBlank (digitChar n) = false := by
  have all : ∀ d < 10, isBlank (Char.ofNat (48 + d)) = false := by decide
  exact all (n % 10) (Nat.mod_lt n (by decide))

theorem mem_write (n : Nat) : ∀ c ∈ write n, ∃ m, c = digitChar m := by
  induction n using Nat.strongRecOn with
  | ind n ih =>
    intro c member
    rw [write_last_digit] at member
    split at member
    · exact ⟨n, List.mem_singleton.mp member⟩
    · rcases List.mem_append.mp member with front | last
      · exact ih (n / 10) (Nat.div_lt_self (by omega) (by decide)) c front
      · exact ⟨n, List.mem_singleton.mp last⟩

theorem write_cons (n : Nat) : ∃ m rest, write n = digitChar m :: rest := by
  have some_digit : write n ≠ [] := by
    rw [write_last_digit]
    split
    · exact List.cons_ne_nil _ _
    · exact List.append_ne_nil_of_right_ne_nil _ (List.cons_ne_nil _ _)
  obtain ⟨c, rest, written⟩ := List.exists_cons_of_ne_nil some_digit
  obtain ⟨m, rfl⟩ := mem_write n c (written ▸ List.mem_cons_self)
  exact ⟨m, rest, written⟩

theorem head_write (n : Nat) (positive : 0 < n) : (write n).head? ≠ some '0' := by
  induction n using Nat.strongRecOn with
  | ind n ih =>
    rw [write_last_digit]
    split
    · rename_i small
      have all : ∀ d < 10, 0 < d → digitChar d ≠ '0' := by decide
      exact fun same => all n small positive (Option.some.inj same)
    · obtain ⟨m, rest, written⟩ := write_cons (n / 10)
      have shorter := ih (n / 10) (Nat.div_lt_self positive (by decide)) (by omega)
      rw [written] at shorter ⊢
      exact shorter

theorem read_below_write (limit n : Nat) :
    readBelow? limit (write n) = if n < limit then some n else none := by
  have plus : ∀ m, digitChar m ≠ '+' := by
    intro m same
    have digit := is_digit_char m
    rw [same] at digit
    exact absurd digit (by decide)
  obtain ⟨m, rest, written⟩ := write_cons n
  have number : readUnsigned? (write n) = some n := by
    have value := read_write n
    rw [written] at value ⊢
    rw [readUnsigned?]
    · exact value
    · intro more same
      exact plus m (List.cons.inj same).1
  rw [readBelow?, number, Option.filter_some]
  simp

theorem trim_write (n : Nat) : trim (write n) = write n := by
  have unblank : ∀ c ∈ write n, isBlank c = false := by
    intro c member
    obtain ⟨m, rfl⟩ := mem_write n c member
    exact digit_char_unblank m
  exact trim_unblank _ (fun c first => unblank c (List.mem_of_mem_head? first))
    (fun c last => unblank c (List.mem_of_mem_getLast? last))

theorem digit_char_value (n : Nat) : (digitChar n).toNat - 48 = n % 10 := by
  have all : ∀ d < 10, (Char.ofNat (48 + d)).toNat - 48 = d := by decide
  exact all (n % 10) (Nat.mod_lt n (by decide))

@[simp] theorem length_write_fixed (width n : Nat) : (writeFixed width n).length = width := by
  induction width generalizing n with
  | zero => rfl
  | succ width ih => rw [writeFixed, List.length_append, ih, List.length_singleton]

theorem mem_write_fixed (width n : Nat) : ∀ c ∈ writeFixed width n, isDigit c = true := by
  induction width generalizing n with
  | zero => exact nofun
  | succ width ih =>
    intro c member
    rcases List.mem_append.mp member with front | last
    · exact ih (n / 10) c front
    · cases List.mem_singleton.mp last
      exact is_digit_char n

/-- How many numbers have no more than that many digits. -/
def limit : Nat → Nat
  | 0 => 1
  | width + 1 => 10 * limit width

def value (digits : List Char) : Nat := digits.foldl (fun n c => 10 * n + (c.toNat - 48)) 0

theorem value_concat (digits : List Char) (c : Char) :
    value (digits ++ [c]) = 10 * value digits + (c.toNat - 48) := by
  simp [value]

theorem value_write_fixed (width n : Nat) : value (writeFixed width n) = n % limit width := by
  induction width generalizing n with
  | zero => exact (Nat.mod_one n).symm
  | succ width ih =>
    rw [writeFixed, value_concat, ih, digit_char_value, limit, Nat.mod_mul, Nat.add_comm]

theorem value_zeros (digits : List Char) (count : Nat) :
    value (digits ++ List.replicate count '0') = value digits * Nat.pow 10 count := by
  induction count with
  | zero => simp
  | succ count ih =>
    have zero : '0'.toNat - 48 = 0 := by decide
    have power : Nat.pow 10 (count + 1) = Nat.pow 10 count * 10 := rfl
    rw [List.replicate_succ', ← List.append_assoc, value_concat, ih, zero, power, Nat.add_zero,
      Nat.mul_comm 10, Nat.mul_assoc]

theorem digit_bounds (c : Char) (digit : isDigit c = true) : 48 ≤ c.toNat ∧ c.toNat ≤ 57 := by
  simpa [isDigit, Char.le_def, UInt32.le_iff_toNat_le] using digit

theorem digit_char_self (c : Char) (digit : isDigit c = true) : digitChar (c.toNat - 48) = c := by
  obtain ⟨low, high⟩ := digit_bounds c digit
  have code : 48 + (c.toNat - 48) % 10 = c.toNat := by omega
  rw [digitChar, code, Char.ofNat_toNat]

/-- A row of digits is its number written at the full width. -/
theorem fixed_value (digits : List Char) (all : ∀ c ∈ digits, isDigit c = true) :
    writeFixed digits.length (value digits) = digits ∧ value digits < limit digits.length := by
  induction digits using List.reverseRecOn with
  | nil => exact ⟨rfl, Nat.one_pos⟩
  | append_singleton digits c ih =>
    obtain ⟨written, below⟩ := ih fun d member => all d (List.mem_append_left _ member)
    have digit : isDigit c = true := all c (by simp)
    obtain ⟨low, high⟩ := digit_bounds c digit
    have front : (10 * value digits + (c.toNat - 48)) / 10 = value digits := by omega
    have last : digitChar (10 * value digits + (c.toNat - 48)) = c := by
      rw [digitChar, Nat.mul_add_mod]
      exact digit_char_self c digit
    rw [List.length_append, List.length_singleton, value_concat, writeFixed, front, last, written,
      limit]
    exact ⟨rfl, by omega⟩

theorem write_fixed_zero (width : Nat) : writeFixed width 0 = List.replicate width '0' := by
  induction width with
  | zero => rfl
  | succ width ih =>
    rw [writeFixed, Nat.zero_div, ih, List.replicate_succ']
    rfl

theorem pad_write (width n : Nat) (fits : n < limit (width + 1)) :
    padLeft (width + 1) '0' (write n) = writeFixed (width + 1) n := by
  induction width generalizing n with
  | zero =>
    have small : n < 10 := fits
    rw [write_last_digit, if_pos small]
    rfl
  | succ width ih =>
    rw [write_last_digit, writeFixed]
    split
    · rename_i small
      rw [Nat.div_eq_of_lt small, write_fixed_zero]
      rfl
    · have shorter : n / 10 < limit (width + 1) := by
        rw [limit] at fits
        omega
      rw [← ih (n / 10) shorter, padLeft, padLeft, List.length_append, List.length_singleton,
        Nat.add_sub_add_right, List.append_assoc]

end StartupLatency.Text.Decimal
