import StartupLatency.Text.Decimal
import StartupLatency.Word
/-!
Double precision numbers by exact arithmetic on natural numbers: rounding a quotient, the product
and quotient of two doubles, the fewest digits that read back, and fixed places.
-/

namespace StartupLatency

/-- A double by its 64 bits: sign, eleven bits of exponent, 52 bits of fraction. -/
structure Binary64 where
  bits : UInt64
deriving DecidableEq, Inhabited

namespace Binary64

def unit : Nat := 0x10000000000000

def isNegative (x : Binary64) : Bool := x.bits ≥ 0x8000000000000000

def biasedExponent (x : Binary64) : Nat := x.bits.toNat / unit % 2048

def fraction (x : Binary64) : Nat := x.bits.toNat % unit

def isFinite (x : Binary64) : Bool := x.biasedExponent < 2047

def isNaN (x : Binary64) : Bool := x.biasedExponent == 2047 && x.fraction != 0

-- The magnitude of a finite double is `significand · 2 ^ exponent`.
def significand (x : Binary64) : Nat :=
  if x.biasedExponent = 0 then x.fraction else x.fraction + unit

def exponent (x : Binary64) : Int := if x.biasedExponent = 0 then -1074 else x.biasedExponent - 1075

def magnitude (x : Binary64) : Nat × Nat :=
  match x.exponent with
  | .ofNat q => (x.significand * Nat.pow 2 q, 1)
  | .negSucc q => (x.significand, Nat.pow 2 (q + 1))

def signed (negative : Bool) (magnitudeBits : Nat) : Binary64 :=
  ⟨UInt64.ofNat (if negative then magnitudeBits + Word.half64 else magnitudeBits)⟩

def infinity (negative : Bool) : Binary64 := signed negative (2047 * unit)

def zero (negative : Bool) : Binary64 := signed negative 0

def divideToEven (numerator denominator : Nat) : Nat :=
  let whole := numerator / denominator
  let rest := numerator % denominator
  if 2 * rest < denominator then whole
  else if 2 * rest > denominator then whole + 1
  else whole + whole % 2

-- `numerator / denominator / 2 ^ q` as a quotient.
def scaleDown (numerator denominator : Nat) : Int → Nat × Nat
  | .ofNat q => (numerator, denominator * Nat.pow 2 q)
  | .negSucc q => (numerator * Nat.pow 2 (q + 1), denominator)

/-- The double nearest to a quotient, a tie going to the even significand. -/
def ofRatio (negative : Bool) (numerator denominator : Nat) : Binary64 :=
  if numerator = 0 then zero negative
  else
    let guess : Int := (numerator.log2 : Int) - denominator.log2 - 53
    let trial := scaleDown numerator denominator guess
    let q := max (if trial.1 / trial.2 < 2 * unit then guess else guess + 1) (-1074)
    let scaled := scaleDown numerator denominator q
    let m := divideToEven scaled.1 scaled.2
    if q > 971 ∨ (q = 971 ∧ m = 2 * unit) then infinity negative
    else if m < unit then signed negative m
    else signed negative ((q + 1074).toNat * unit + m)

def ofNat (n : Nat) : Binary64 := ofRatio false n 1

def mul (x y : Binary64) : Binary64 :=
  ofRatio (x.isNegative != y.isNegative) (x.magnitude.1 * y.magnitude.1)
    (x.magnitude.2 * y.magnitude.2)

def div (x y : Binary64) : Binary64 :=
  ofRatio (x.isNegative != y.isNegative) (x.magnitude.1 * y.magnitude.2)
    (x.magnitude.2 * y.magnitude.1)

def atMost (x y : Binary64) : Bool :=
  if x.isNaN || y.isNaN then false
  else if x.isNegative != y.isNegative then
    x.isNegative || (x.significand == 0 && y.significand == 0)
  else if x.isNegative then y.bits ≤ x.bits
  else x.bits ≤ y.bits

def atLeast (x : Binary64) (bound : Nat) : Bool :=
  !x.isNaN && !x.isNegative &&
    (!x.isFinite || decide (bound * x.magnitude.2 ≤ x.magnitude.1))

/-- The largest natural number not above `x`, kept within 64 bits; nothing below zero counts. -/
def floorClamped (x : Binary64) : Nat :=
  if x.isNaN || x.isNegative then 0
  else if x.isFinite then min (x.magnitude.1 / x.magnitude.2) (Word.limit64 - 1)
  else Word.limit64 - 1

/-- A decimal: `digits · 10 ^ (point - number of digits)`. -/
structure Decimal where
  digits : List Char
  point : Int
deriving DecidableEq

def comparePowers (a : Nat) (p : Int) (b : Nat) (q : Int) : Ordering :=
  let (a, b) := match p with
    | .ofNat p => (a * Nat.pow 10 p, b)
    | .negSucc p => (a, b * Nat.pow 10 (p + 1))
  let (a, b) := match q with
    | .ofNat q => (a, b * Nat.pow 2 q)
    | .negSucc q => (a * Nat.pow 2 (q + 1), b)
  compare a b

def pointFrom (x : Binary64) (k : Int) : Nat → Int
  | 0 => k
  | fuel + 1 =>
    if comparePowers 1 k x.significand x.exponent = .gt then k else pointFrom x (k + 1) fuel

/-- A decimal reads back as `x` when it lies between the midpoints to the neighbouring doubles,
the midpoints themselves included for an even significand. -/
def readsBack (x : Binary64) (value : Nat) (power : Int) : Bool :=
  let m := x.significand
  let below := if m = unit ∧ x.biasedExponent > 1 then 4 * m - 1 else 4 * m - 2
  let low := comparePowers value power below (x.exponent - 2)
  let high := comparePowers value power (4 * m + 2) (x.exponent - 2)
  if m % 2 = 0 then low != .lt && high != .gt else low == .gt && high == .lt

-- The grid point with `count` digits that reads back, the nearer one of two.
def onGrid? (x : Binary64) (point : Int) (count : Nat) : Option Nat :=
  let power := point - count
  let (numerator, denominator) := match power with
    | .ofNat p => (x.magnitude.1, x.magnitude.2 * Nat.pow 10 p)
    | .negSucc p => (x.magnitude.1 * Nat.pow 10 (p + 1), x.magnitude.2)
  let low := numerator / denominator
  match readsBack x low power, readsBack x (low + 1) power with
  | true, true => some (if 2 * (numerator % denominator) ≤ denominator then low else low + 1)
  | true, false => some low
  | false, true => some (low + 1)
  | false, false => none

def shortestFrom (x : Binary64) (point : Int) (count : Nat) : Nat → Decimal
  | 0 => ⟨['0'], 1⟩
  | fuel + 1 =>
    match onGrid? x point count with
    | some value =>
      let digits := Text.Decimal.write value
      ⟨(digits.reverse.dropWhile (· = '0')).reverse, point + digits.length - count⟩
    | none => shortestFrom x point (count + 1) fuel

/-- The fewest digits that read back as the magnitude of `x`, and of those the nearest. -/
def shortest (x : Binary64) : Decimal :=
  if x.significand = 0 then ⟨['0'], 1⟩
  else
    let guess := ((x.significand.log2 : Int) + x.exponent) * 3 / 10 - 2
    shortestFrom x (pointFrom x guess 50) 1 20

def Decimal.positional (d : Decimal) : List Char :=
  match d.point with
  | .ofNat 0 => '0' :: '.' :: d.digits
  | .ofNat (p + 1) =>
    if d.digits.length ≤ p + 1 then
      d.digits ++ List.replicate (p + 1 - d.digits.length) '0' ++ ['.', '0']
    else d.digits.take (p + 1) ++ '.' :: d.digits.drop (p + 1)
  | .negSucc p => '0' :: '.' :: (List.replicate (p + 1) '0' ++ d.digits)

def Decimal.scientific (d : Decimal) : List Char :=
  match d.digits with
  | [] => ['0']
  | [digit] => digit :: 'e' :: Text.Decimal.writeInt (d.point - 1)
  | digit :: more => digit :: '.' :: (more ++ 'e' :: Text.Decimal.writeInt (d.point - 1))

def fixed (x : Binary64) (places : Nat) : List Char :=
  let scaled := divideToEven (x.magnitude.1 * Nat.pow 10 places) x.magnitude.2
  let whole := Text.Decimal.write (scaled / Nat.pow 10 places)
  let sign := if x.isNegative then ['-'] else []
  if places = 0 then sign ++ whole
  else sign ++ whole ++ '.' :: Text.Decimal.writeFixed places (scaled % Nat.pow 10 places)

end Binary64
end StartupLatency
