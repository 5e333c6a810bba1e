import StartupLatency.Instant
import StartupLatency.Text.Decimal
import StartupLatency.Word
/-!
RFC 3339 text of instants. The writer always ends in `Z`; years outside 0 to 9999 carry a sign. The
strict reader takes the fixed form of the standard, where second 60 may follow any minute; the
relaxed reader takes what data files hold: blanks between the parts, short numbers, signed years.
-/

namespace StartupLatency.Instant

def yearText (year : Int) : List Char :=
  let digits := Text.padLeft 4 '0' (Text.Decimal.write year.natAbs)
  if year < 0 then '-' :: digits
  else if year ≤ 9999 then digits
  else '+' :: digits

def dateText (date : CivilDate) : List Char :=
  yearText date.year ++ '-' :: (Text.Decimal.writeFixed 2 date.month ++
    '-' :: Text.Decimal.writeFixed 2 date.day)

def clockText (t : Instant) : List Char :=
  let second := t.secondOfDay.toNat
  Text.Decimal.writeFixed 2 (second / 3600) ++ ':' ::
    (Text.Decimal.writeFixed 2 (second / 60 % 60) ++ ':' ::
      Text.Decimal.writeFixed 2 (second % 60 + t.nanos / 1000000000))

/-- Nine fraction digits always: the form that annotations and records carry. -/
def format (t : Instant) : String :=
  String.ofList (dateText t.date ++ 'T' :: (t.clockText ++
    '.' :: (Text.Decimal.writeFixed 9 (t.nanos % 1000000000) ++ ['Z'])))

/-- The fewest fraction digits of 0, 3, 6 and 9 that lose nothing: the form of data files. -/
def formatShort (t : Instant) : String :=
  let nanos := t.nanos % 1000000000
  let fraction :=
    if nanos = 0 then []
    else if nanos % 1000000 = 0 then '.' :: Text.Decimal.writeFixed 3 (nanos / 1000000)
    else if nanos % 1000 = 0 then '.' :: Text.Decimal.writeFixed 6 (nanos / 1000)
    else '.' :: Text.Decimal.writeFixed 9 nanos
  String.ofList (dateText t.date ++ 'T' :: (t.clockText ++ (fraction ++ ['Z'])))

inductive ReadFault where
  | tooShort
  | tooLong
  | invalid
  | outOfRange
  | impossible
deriving DecidableEq

def ReadFault.message : ReadFault → String
  | .tooShort => "premature end of input"
  | .tooLong => "trailing input"
  | .invalid => "input contains invalid characters"
  | .outOfRange => "input is out of range"
  | .impossible => "no possible date and time matching input"

def takeNumber (least most : Nat) (cs : List Char) : Except ReadFault (Nat × List Char) :=
  let digits := (cs.take most).takeWhile Text.isDigit
  if cs.length < least then .error .tooShort
  else if digits.length < least then .error .invalid
  else .ok (digits.foldl (fun n c => 10 * n + (c.toNat - 48)) 0, cs.drop digits.length)

def takeChar (wanted : Char) : List Char → Except ReadFault (List Char)
  | [] => .error .tooShort
  | c :: rest => if c = wanted then .ok rest else .error .invalid

def within (low high value : Nat) : Except ReadFault Nat :=
  if low ≤ value ∧ value ≤ high then .ok value else .error .outOfRange

-- Date and time are parted by `T`, `t` or a space.
def takeSeparator : List Char → Except ReadFault (List Char)
  | [] => .error .tooShort
  | c :: rest => if c = 'T' ∨ c = 't' ∨ c = ' ' then .ok rest else .error .invalid

-- The digits behind a decimal point as nanoseconds: nine count, further ones are dropped.
def takeFraction (cs : List Char) : Except ReadFault (Nat × List Char) :=
  match cs with
  | '.' :: rest =>
    match takeNumber 1 9 rest with
    | .error fault => .error fault
    | .ok (value, _) =>
      let digits := rest.takeWhile Text.isDigit
      .ok (value * Nat.pow 10 (9 - min 9 digits.length), rest.drop digits.length)
  | _ => .ok (0, cs)

def takeMinutes : List Char → Except ReadFault (Nat × List Char)
  | a :: b :: rest =>
    if Text.isDigit a ∧ Text.isDigit b then
      let minutes := (a.toNat - 48) * 10 + (b.toNat - 48)
      if minutes < 60 then .ok (minutes, rest) else .error .outOfRange
    else .error .invalid
  | _ => .error .tooShort

/-- An offset from UTC in seconds: `Z`, or a sign, two digits of hours and two of minutes, with
`between` taking what parts them. The minus sign proper stands for a minus as well. -/
def takeOffset (between : List Char → Except ReadFault (List Char)) (cs : List Char) :
    Except ReadFault (Int × List Char) :=
  match cs with
  | [] => .error .tooShort
  | c :: rest =>
    if c = 'Z' ∨ c = 'z' then .ok (0, rest)
    else if c ≠ '+' ∧ c ≠ '-' ∧ c ≠ '−' then .error .invalid
    else
      match rest with
      | a :: b :: rest =>
        if Text.isDigit a ∧ Text.isDigit b then do
          let hours := (a.toNat - 48) * 10 + (b.toNat - 48)
          let rest ← between rest
          let (minutes, rest) ← takeMinutes rest
          let seconds : Int := ((hours * 60 + minutes) * 60 : Nat)
          pure (if c = '+' then seconds else -seconds, rest)
        else .error .invalid
      | _ => .error .tooShort

structure Reading where
  date : CivilDate
  hour : Nat
  minute : Nat
  second : Nat
  nanos : Nat
  offset : Int

/-- The instant of a reading: second 60 becomes the leap second of the minute, and the offset is
taken off. -/
def Reading.resolve (r : Reading) : Except ReadFault Instant :=
  if !r.date.isValid || r.offset.natAbs ≥ 86400 then .error .outOfRange
  else
    let leap := r.second = 60
    let second := if leap then 59 else r.second
    let secs := r.date.toDays * 86400 + ((r.hour * 60 + r.minute) * 60 + second : Nat) - r.offset
    match ofParts? secs (if leap then r.nanos + 1000000000 else r.nanos) with
    | some t => .ok t
    | none => .error .impossible

def readStrict (cs : List Char) : Except ReadFault Instant := do
  let (year, cs) ← takeNumber 4 4 cs
  let cs ← takeChar '-' cs
  let (month, cs) ← takeNumber 2 2 cs
  let month ← within 1 12 month
  let cs ← takeChar '-' cs
  let (day, cs) ← takeNumber 2 2 cs
  let day ← within 1 31 day
  let cs ← takeSeparator cs
  let (hour, cs) ← takeNumber 2 2 cs
  let hour ← within 0 23 hour
  let cs ← takeChar ':' cs
  let (minute, cs) ← takeNumber 2 2 cs
  let minute ← within 0 59 minute
  let cs ← takeChar ':' cs
  let (second, cs) ← takeNumber 2 2 cs
  let second ← within 0 60 second
  let (nanos, cs) ← takeFraction cs
  let (offset, cs) ← takeOffset (takeChar ':') cs
  if cs.isEmpty then Reading.resolve ⟨⟨year, month, day⟩, hour, minute, second, nanos, offset⟩
  else .error .tooLong

def parse? (raw : String) : Option Instant := (readStrict (Text.trim raw.toList)).toOption

def takeYear (cs : List Char) : Except ReadFault (Int × List Char) := do
  let bounded (sign : Int) (cs : List Char) : Except ReadFault (Int × List Char) := do
    let (value, rest) ← takeNumber 1 (max 1 cs.length) cs
    if value < Word.half32 then pure (sign * value, rest) else .error .outOfRange
  match cs with
  | '-' :: rest => bounded (-1) rest
  | '+' :: rest => bounded 1 rest
  | _ =>
    let (value, rest) ← takeNumber 1 4 cs
    pure (value, rest)

-- The offset of the relaxed form: `UTC` in any case, or colons and blanks between the digits.
def takeRelaxedOffset (cs : List Char) : Except ReadFault (Int × List Char) :=
  match cs with
  | a :: b :: c :: rest =>
    if Text.lower [a, b, c] = ['u', 't', 'c'] then .ok (0, rest)
    else takeOffset (fun cs => .ok (cs.dropWhile fun c => c = ':' || Text.isBlank c)) cs
  | _ => takeOffset (fun cs => .ok (cs.dropWhile fun c => c = ':' || Text.isBlank c)) cs

def takeField (low high : Nat) (cs : List Char) : Except ReadFault (Nat × List Char) := do
  let (value, cs) ← takeNumber 1 2 (Text.dropBlank cs)
  let value ← within low high value
  pure (value, cs)

def readRelaxed (cs : List Char) : Except ReadFault Instant := do
  let (year, cs) ← takeYear (Text.dropBlank cs)
  let cs ← takeChar '-' (Text.dropBlank cs)
  let (month, cs) ← takeField 1 12 cs
  let cs ← takeChar '-' (Text.dropBlank cs)
  let (day, cs) ← takeField 1 31 cs
  let cs ← takeSeparator cs
  let (hour, cs) ← takeField 0 23 cs
  let cs ← takeChar ':' (Text.dropBlank cs)
  let (minute, cs) ← takeField 0 59 cs
  let cs ← takeChar ':' (Text.dropBlank cs)
  let (second, cs) ← takeField 0 60 cs
  let (nanos, cs) ← takeFraction cs
  let (offset, cs) ← takeRelaxedOffset (Text.dropBlank cs)
  if (Text.dropBlank cs).isEmpty then
    Reading.resolve ⟨⟨year, month, day⟩, hour, minute, second, nanos, offset⟩
  else .error .tooLong

def ofData (raw : String) : Except ReadFault Instant := readRelaxed raw.toList

end StartupLatency.Instant
