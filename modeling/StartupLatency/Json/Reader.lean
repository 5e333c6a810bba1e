import StartupLatency.Json
import StartupLatency.Word
/-!
Reading JSON text. A step takes characters off the front and returns the rest. Numbers follow one
rule for doubles: the digits that fit 64 bits are rounded to a double, which is then multiplied or
divided by a power of ten.
-/

namespace StartupLatency.Json

def isSpace (c : Char) : Bool := c = ' ' || c = '\n' || c = '\t' || c = '\r'

def skipSpace (cs : List Char) : List Char := cs.dropWhile isSpace

def readHex4 : List Char → Option (Nat × List Char)
  | a :: b :: c :: d :: rest => do
    let a ← Text.hexValue? a
    let b ← Text.hexValue? b
    let c ← Text.hexValue? c
    let d ← Text.hexValue? d
    pure (((a * 16 + b) * 16 + c) * 16 + d, rest)
  | _ => none

def simpleEscape? : Char → Option Char
  | '"' => some '"'
  | '\\' => some '\\'
  | '/' => some '/'
  | 'b' => some '\x08'
  | 'f' => some '\x0c'
  | 'n' => some '\n'
  | 'r' => some '\r'
  | 't' => some '\t'
  | _ => none

/-- The rest of a string behind its opening mark: its characters, or `none` for them when a
surrogate stands alone. The outer `none` is text that is not a string. -/
def readString (fuel : Nat) (done : Option (List Char)) (cs : List Char) :
    Option (Option (List Char) × List Char) :=
  match fuel, cs with
  | 0, _ => none
  | _, [] => none
  | fuel + 1, c :: rest =>
    if c = '"' then some (done.map List.reverse, rest)
    else if c.toNat < 32 then none
    else if c ≠ '\\' then readString fuel (done.map (c :: ·)) rest
    else
      match rest with
      | [] => none
      | 'u' :: rest =>
        match readHex4 rest with
        | none => none
        | some (unit, rest) =>
          if 0xDC00 ≤ unit ∧ unit ≤ 0xDFFF then readString fuel none rest
          else if 0xD800 ≤ unit ∧ unit ≤ 0xDBFF then
            match rest with
            | '\\' :: 'u' :: more =>
              match readHex4 more with
              | none => none
              | some (low, more) =>
                if 0xDC00 ≤ low ∧ low ≤ 0xDFFF then
                  let c := Char.ofNat (0x10000 + (unit - 0xD800) * 0x400 + (low - 0xDC00))
                  readString fuel (done.map (c :: ·)) more
                else readString fuel none rest
            | _ => readString fuel none rest
          else readString fuel (done.map (Char.ofNat unit :: ·)) rest
      | c :: rest =>
        match simpleEscape? c with
        | none => none
        | some c => readString fuel (done.map (c :: ·)) rest

def spanDigits (cs : List Char) : List Char × List Char :=
  (cs.takeWhile Text.isDigit, cs.dropWhile Text.isDigit)

-- Digits taken onto a significand while it fits 64 bits; then the number of digits left over.
def takeDigits (value : Nat) : List Char → Nat × Nat
  | [] => (value, 0)
  | c :: rest =>
    let grown := 10 * value + (c.toNat - 48)
    if grown < Word.limit64 then takeDigits grown rest else (value, rest.length + 1)

-- `significand · 10 ^ exponent`, first by whole steps of `10 ^ 308`; `none` beyond the range.
def scaleByTen (fuel : Nat) (x : Binary64) (exponent : Int) : Option Binary64 :=
  match fuel with
  | 0 => some x
  | fuel + 1 =>
    if exponent.natAbs ≤ 308 then
      let power := Binary64.ofNat (Nat.pow 10 exponent.natAbs)
      if exponent ≥ 0 then
        let scaled := x.mul power
        if scaled.isFinite then some scaled else none
      else some (x.div power)
    else if x.significand = 0 then some x
    else if exponent ≥ 0 then none
    else scaleByTen fuel (x.div (Binary64.ofNat (Nat.pow 10 308))) (exponent + 308)

def realOfParts (negative : Bool) (significand : Nat) (exponent : Int) : Json :=
  if exponent < -2000 then .num (.real (Binary64.zero negative))
  else
    match scaleByTen 10 (Binary64.ofNat significand) exponent with
    | some x => .num (.real (Binary64.signed negative x.bits.toNat))
    | none => .valueless

/-- A whole number of 64 bits stays whole; minus zero and what does not fit become doubles. -/
def intOfParts (negative : Bool) (significand : Nat) : Json :=
  if negative then
    if significand = 0 ∨ Word.half64 < significand then realOfParts true significand 0
    else .num (.int (-(significand : Int)))
  else .num (.int significand)

def readExponent (cs : List Char) : Option (Int × List Char) :=
  let (negative, cs) := match cs with
    | '-' :: rest => (true, rest)
    | '+' :: rest => (false, rest)
    | _ => (false, cs)
  let (digits, rest) := spanDigits cs
  if digits.isEmpty then none
  else
    let value := (digits.foldl (fun n c => min (10 * n + (c.toNat - 48)) Word.half32) 0 : Nat)
    some (if negative then -(value : Int) else value, rest)

def readNumber (cs : List Char) : Option (Json × List Char) :=
  let (negative, cs) := match cs with
    | '-' :: rest => (true, rest)
    | _ => (false, cs)
  let (whole, rest) := spanDigits cs
  if whole.isEmpty || (whole.length > 1 && whole.head? == some '0') then none
  else
    let (significand, dropped) := takeDigits 0 whole
    let finish (significand : Nat) (exponent : Int) (real : Bool) (cs : List Char) :
        Option (Json × List Char) :=
      match cs with
      | c :: more =>
        if c = 'e' ∨ c = 'E' then
          (readExponent more).map fun (e, rest) =>
            (realOfParts negative significand (exponent + e), rest)
        else
          some (if real then realOfParts negative significand exponent
            else intOfParts negative significand, cs)
      | [] =>
        some (if real then realOfParts negative significand exponent
          else intOfParts negative significand, cs)
    match rest with
    | '.' :: more =>
      let (fraction, rest) := spanDigits more
      if fraction.isEmpty then none
      else if dropped > 0 then finish significand dropped true rest
      else
        let (significand, left) := takeDigits significand fraction
        finish significand (-((fraction.length - left : Nat) : Int)) true rest
    | _ => finish significand dropped (dropped > 0) rest

def readWord (word : List Char) (value : Json) (cs : List Char) : Option (Json × List Char) :=
  (Text.strip? word cs).map fun rest => (value, rest)

mutual

def readValue (fuel : Nat) (cs : List Char) : Option (Json × List Char) :=
  match fuel with
  | 0 => none
  | fuel + 1 =>
    match skipSpace cs with
    | [] => none
    | 'n' :: rest => readWord "ull".toList .null rest
    | 't' :: rest => readWord "rue".toList (.bool true) rest
    | 'f' :: rest => readWord "alse".toList (.bool false) rest
    | '"' :: rest =>
      (readString (rest.length + 1) (some []) rest).map fun (value, rest) =>
        (match value with
          | some cs => .str (String.ofList cs)
          | none => .valueless, rest)
    | '[' :: rest =>
      match skipSpace rest with
      | ']' :: rest => some (.arr [], rest)
      | _ => (readItems fuel rest).map fun (items, rest) => (.arr items, rest)
    | '{' :: rest =>
      match skipSpace rest with
      | '}' :: rest => some (.obj [], rest)
      | _ => (readMembers fuel rest).map fun (members, rest) =>
        (if members.all fun member => member.1.isSome then
          .obj (members.filterMap fun member => member.1.map fun name => (name, member.2))
        else .valueless, rest)
    | c :: rest => readNumber (c :: rest)

def readItems (fuel : Nat) (cs : List Char) : Option (List Json × List Char) :=
  match fuel with
  | 0 => none
  | fuel + 1 =>
    match readValue fuel cs with
    | none => none
    | some (item, rest) =>
      match skipSpace rest with
      | ',' :: rest => (readItems fuel rest).map fun (items, rest) => (item :: items, rest)
      | ']' :: rest => some ([item], rest)
      | _ => none

-- Members up to the closing brace, at least one; a name with a lone surrogate is `none`.
def readMembers (fuel : Nat) (cs : List Char) :
    Option (List (Option String × Json) × List Char) :=
  match fuel with
  | 0 => none
  | fuel + 1 =>
    match skipSpace cs with
    | '"' :: rest =>
      match readString (rest.length + 1) (some []) rest with
      | none => none
      | some (name, rest) =>
        match skipSpace rest with
        | ':' :: rest =>
          match readValue fuel rest with
          | none => none
          | some (value, rest) =>
            let member := (name.map String.ofList, value)
            match skipSpace rest with
            | ',' :: rest =>
              (readMembers fuel rest).map fun (members, rest) => (member :: members, rest)
            | '}' :: rest => some ([member], rest)
            | _ => none
        | _ => none
    | _ => none

end

def read? (cs : List Char) : Option Json :=
  match readValue (cs.length + 1) cs with
  | some (value, rest) => if (skipSpace rest).isEmpty then some value else none
  | none => none

def ofText? (text : String) : Option Json := read? text.toList

end StartupLatency.Json
