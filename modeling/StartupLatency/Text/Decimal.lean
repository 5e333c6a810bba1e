import StartupLatency.Text
/-!
Whole numbers in decimal notation: digits are ASCII, and a reader states the range it accepts.
-/

namespace StartupLatency.Text.Decimal

def digit? (c : Char) : Option Nat := if isDigit c then some (c.toNat - 48) else none

def readFrom (value : Nat) : List Char → Option Nat
  | [] => some value
  | c :: rest => (digit? c).bind fun d => readFrom (10 * value + d) rest

def read? : List Char → Option Nat
  | [] => none
  | c :: rest => readFrom 0 (c :: rest)

def readUnsigned? : List Char → Option Nat
  | '+' :: rest => read? rest
  | cs => read? cs

def readBelow? (limit : Nat) (cs : List Char) : Option Nat :=
  (readUnsigned? cs).filter fun n => n < limit

def digitChar (n : Nat) : Char := Char.ofNat (48 + n % 10)

-- The digits of a number behind digits already written.
def digitsOnto (n : Nat) (written : List Char) : List Char :=
  if small : n < 10 then digitChar n :: written
  else digitsOnto (n / 10) (digitChar n :: written)
termination_by n
decreasing_by omega

def write (n : Nat) : List Char := digitsOnto n []

def writeInt (i : Int) : List Char :=
  match i with
  | .ofNat n => write n
  | .negSucc n => '-' :: write (n + 1)

def writeFixed (width : Nat) (n : Nat) : List Char :=
  match width with
  | 0 => []
  | width + 1 => writeFixed width (n / 10) ++ [digitChar n]

def text (n : Nat) : String := String.ofList (write n)

def textInt (i : Int) : String := String.ofList (writeInt i)

end StartupLatency.Text.Decimal
