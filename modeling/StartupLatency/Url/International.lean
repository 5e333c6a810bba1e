import StartupLatency.Text
/-!
Domain names in ASCII: letters are folded to lower case, and a label with other characters is
written behind `xn--` as its ASCII letters and the distances between its other code points. Case is
folded for the Latin, Greek and Cyrillic blocks; other characters are taken as they are.
-/

namespace StartupLatency.Url.International

/-- The largest digit below which the last digit of a number ends it, at a position. -/
def threshold (position bias : Nat) : Nat :=
  if position ≤ bias then 1 else if bias + 26 ≤ position then 26 else position - bias

theorem threshold_pos (position bias : Nat) : 1 ≤ threshold position bias := by
  unfold threshold
  split
  · exact Nat.le_refl 1
  · split <;> omega

def digitChar (digit : Nat) : Char := Char.ofNat (if digit < 26 then 97 + digit else 22 + digit)

-- Divide by 35 until the rest is small; each division counts 36.
def shrink (delta offset : Nat) : Nat × Nat :=
  if large : 455 < delta then shrink (delta / 35) (offset + 36) else (delta, offset)
termination_by delta
decreasing_by omega

/-- The bias behind a number, so that numbers of a similar size stay short. -/
def adapt (delta count : Nat) (isFirst : Bool) : Nat :=
  let damped := if isFirst then delta / 700 else delta / 2
  let (rest, offset) := shrink (damped + damped / count) 0
  offset + 36 * rest / (rest + 38)

-- A number in digits of varying range, least significant first.
def digits (bias position number : Nat) : List Char :=
  let t := threshold position bias
  if small : number < t then [digitChar number]
  else digitChar (t + (number - t) % (36 - t)) ::
    digits bias (position + 36) ((number - t) / (36 - t))
termination_by number
decreasing_by
  have := threshold_pos position bias
  exact Nat.lt_of_le_of_lt (Nat.div_le_self _ _) (by omega)

-- State of the encoder: what was counted since the last number, the bias, how many characters are
-- written.
structure State where
  delta : Nat
  bias : Nat
  written : Nat
  output : List Char

/-- Go over the label once for one code point: smaller characters count, equal ones are written. -/
def pass (point basic : Nat) (state : State) : List Char → State
  | [] => state
  | c :: rest =>
    if c.toNat < point then pass point basic { state with delta := state.delta + 1 } rest
    else if c.toNat = point then
      pass point basic
        { delta := 0
          bias := adapt state.delta (state.written + 1) (state.written = basic)
          written := state.written + 1
          output := state.output ++ digits state.bias 36 state.delta } rest
    else pass point basic state rest

-- All code points above the last one, in ascending order.
def passes (label : List Char) (basic last : Nat) (state : State) : List Nat → State
  | [] => state
  | point :: rest =>
    let skipped := (point - last) * (state.written + 1)
    let after := pass point basic { state with delta := state.delta + skipped } label
    passes label basic (point + 1) { after with delta := after.delta + 1 } rest

def encodeLabel (label : List Char) : List Char :=
  let basic := label.filter (·.toNat < 128)
  let points := (((label.map Char.toNat).filter (128 ≤ ·)).mergeSort (· ≤ ·)).eraseDups
  let start := if basic.isEmpty then [] else basic ++ ['-']
  (passes label basic.length 128 ⟨0, 72, basic.length, start⟩ points).output

def foldPoint (n : Nat) : Nat :=
  if 65 ≤ n ∧ n ≤ 90 then n + 32
  else if 0xC0 ≤ n ∧ n ≤ 0xDE ∧ n ≠ 0xD7 then n + 32
  else if 0x100 ≤ n ∧ n ≤ 0x137 ∧ n % 2 = 0 then n + 1
  else if 0x139 ≤ n ∧ n ≤ 0x148 ∧ n % 2 = 1 then n + 1
  else if 0x14A ≤ n ∧ n ≤ 0x177 ∧ n % 2 = 0 then n + 1
  else if 0x391 ≤ n ∧ n ≤ 0x3A9 then n + 32
  else if 0x410 ≤ n ∧ n ≤ 0x42F then n + 32
  else if 0x400 ≤ n ∧ n ≤ 0x40F then n + 80
  else if 0xFF01 ≤ n ∧ n ≤ 0xFF5E then
    (if 0xFF21 ≤ n ∧ n ≤ 0xFF3A then n - 0xFEC0 else n - 0xFEE0)
  else if n = 0x3002 ∨ n = 0xFF0E ∨ n = 0xFF61 then 46
  else n

-- Characters that leave no trace in a name.
def isIgnored (n : Nat) : Bool := n == 0xAD || n == 0x200B || n == 0x2060 || n == 0xFEFF

def isRefused (n : Nat) : Bool :=
  (0x80 ≤ n && n ≤ 0xA0) || n == 0x1680 || (0x2000 ≤ n && n ≤ 0x200F) ||
    (0x2028 ≤ n && n ≤ 0x202F) || n == 0x205F || n == 0x3000 || (0xE000 ≤ n && n ≤ 0xF8FF) ||
    (0xFFF9 ≤ n && n ≤ 0xFFFF)

def labelToAscii (label : List Char) : List Char :=
  if label.all (·.toNat < 128) then label else "xn--".toList ++ encodeLabel label

def toAscii? (name : List Char) : Option (List Char) :=
  let kept := name.filter fun c => !isIgnored c.toNat
  if kept.any fun c => isRefused c.toNat then none
  else
    let folded := kept.map fun c => Char.ofNat (foldPoint c.toNat)
    let labels := Text.splitOn '.' folded
    if labels.contains "xn--".toList then none
    else some (List.intercalate ['.'] (labels.map labelToAscii))

end StartupLatency.Url.International
