import StartupLatency.Text.Decimal
import StartupLatency.Word
/-!
Spans of time: seconds of 64 bits and nanoseconds below one second. Arithmetic that would leave
the range has no result.
-/

namespace StartupLatency

structure Duration where
  secs : Nat
  nanos : Nat
  secs_lt : secs < Word.limit64
  nanos_lt : nanos < 1000000000
deriving DecidableEq

namespace Duration

def ofParts? (secs nanos : Nat) : Option Duration :=
  if valid : secs < Word.limit64 ∧ nanos < 1000000000 then some ⟨secs, nanos, valid.1, valid.2⟩ else none

def zero : Duration := ⟨0, 0, by decide, by decide⟩

instance : Inhabited Duration := ⟨zero⟩

def longest : Duration := ⟨Word.limit64 - 1, 999999999, by decide, by decide⟩

def ofMillis (millis : Nat) : Duration :=
  (ofParts? (millis / 1000) (millis % 1000 * 1000000)).getD longest

def ofSeconds (secs : Nat) : Duration := (ofParts? secs 0).getD longest

def totalNanos (d : Duration) : Nat := d.secs * 1000000000 + d.nanos

-- Whole milliseconds, what is left over being dropped.
def millis (d : Duration) : Nat := d.secs * 1000 + d.nanos / 1000000

/-- Milliseconds that a timer runs for it, a begun one being run to its end. -/
def ticks (d : Duration) : Nat := d.secs * 1000 + (d.nanos + 999999) / 1000000

theorem ticks_pos {d : Duration} (lasts : 0 < d.totalNanos) : 0 < d.ticks := by
  rcases Nat.eq_zero_or_pos d.nanos with whole | begun
  · rw [totalNanos, whole, Nat.add_zero] at lasts
    exact Nat.add_pos_left (Nat.mul_pos (Nat.pos_of_mul_pos_right lasts) (by decide)) _
  · have enough : 1000000 ≤ d.nanos + 999999 := Nat.add_le_add_right begun 999999
    exact Nat.add_pos_right _ (Nat.div_pos enough (by decide))

-- The product, with the nanoseconds carried into the seconds.
def times? (d : Duration) (factor : Nat) : Option Duration :=
  let nanos := d.nanos * factor
  ofParts? (d.secs * factor + nanos / 1000000000) (nanos % 1000000000)

def atMost (d bound : Duration) : Bool :=
  d.secs < bound.secs || (d.secs == bound.secs && d.nanos ≤ bound.nanos)

def shorter (d bound : Duration) : Duration := if d.atMost bound then d else bound

-- A quotient in decimal notation without trailing zeros: `places` digits may follow the point.
def decimalText (whole fraction places : Nat) : List Char :=
  let digits := ((Text.Decimal.writeFixed places fraction).reverse.dropWhile (· == '0')).reverse
  Text.Decimal.write whole ++ if digits.isEmpty then [] else '.' :: digits

/-- A span in the largest unit that leaves something before the point. -/
def text (d : Duration) : String :=
  if 0 < d.secs then String.ofList (decimalText d.secs d.nanos 9) ++ "s"
  else if 1000000 ≤ d.nanos then
    String.ofList (decimalText (d.nanos / 1000000) (d.nanos % 1000000) 6) ++ "ms"
  else if 1000 ≤ d.nanos then
    String.ofList (decimalText (d.nanos / 1000) (d.nanos % 1000) 3) ++ "µs"
  else Text.Decimal.text d.nanos ++ "ns"

end Duration
end StartupLatency
