import StartupLatency.Text
/-!
UTF-8: the bytes of characters, and the characters of bytes. A byte sequence that cannot go on to
be a character is read as one replacement character, as far as it could have gone on.
-/

namespace StartupLatency.Text.Utf8

def bytesOf (c : Char) : List Nat :=
  let n := c.toNat
  if n < 0x80 then [n]
  else if n < 0x800 then [0xC0 + n / 64, 0x80 + n % 64]
  else if n < 0x10000 then [0xE0 + n / 4096, 0x80 + n / 64 % 64, 0x80 + n % 64]
  else [0xF0 + n / 262144, 0x80 + n / 4096 % 64, 0x80 + n / 64 % 64, 0x80 + n % 64]

def encode (cs : List Char) : List Nat := cs.flatMap bytesOf

def replacement : Char := '\uFFFD'

/-- What a first byte announces: the bits that it gives, the range of the second byte, and how
many bytes follow. -/
structure Lead where
  bits : Nat
  low : Nat
  high : Nat
  more : Nat

def lead? (b : Nat) : Option Lead :=
  if b < 0xC2 then none
  else if b < 0xE0 then some ⟨b - 0xC0, 0x80, 0xBF, 1⟩
  else if b = 0xE0 then some ⟨0, 0xA0, 0xBF, 2⟩
  else if b = 0xED then some ⟨0xD, 0x80, 0x9F, 2⟩
  else if b < 0xF0 then some ⟨b - 0xE0, 0x80, 0xBF, 2⟩
  else if b = 0xF0 then some ⟨0, 0x90, 0xBF, 3⟩
  else if b < 0xF4 then some ⟨b - 0xF0, 0x80, 0xBF, 3⟩
  else if b = 0xF4 then some ⟨4, 0x80, 0x8F, 3⟩
  else none

inductive State where
  | start
  | inside (lead : Lead)

-- A byte at the start of a character: what it completes, and where it leads.
def begin (b : Nat) : List (Option Char) × State :=
  if b < 0x80 then ([some (Char.ofNat b)], .start)
  else
    match lead? b with
    | some lead => ([], .inside lead)
    | none => ([none], .start)

/-- Characters in order, `none` for every sequence that is none. -/
def run : State → List Nat → List (Option Char)
  | .start, [] => []
  | .inside _, [] => [none]
  | .start, b :: rest => (begin b).1 ++ run (begin b).2 rest
  | .inside lead, b :: rest =>
    if lead.low ≤ b ∧ b ≤ lead.high then
      let bits := lead.bits * 64 + (b - 0x80)
      if lead.more = 1 then some (Char.ofNat bits) :: run .start rest
      else run (.inside ⟨bits, 0x80, 0xBF, lead.more - 1⟩) rest
    else none :: ((begin b).1 ++ run (begin b).2 rest)

def decodeLossy (bytes : List Nat) : List Char := (run .start bytes).map (·.getD replacement)

def decode? (bytes : List Nat) : Option (List Char) := (run .start bytes).mapM id

end StartupLatency.Text.Utf8
