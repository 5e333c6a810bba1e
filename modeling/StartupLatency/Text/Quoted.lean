import StartupLatency.Text
/-!
The diagnostic form of a text: in quotation marks, with the usual escapes, and with every
character that has no visible form of its own written by its code point.
-/

namespace StartupLatency.Text.Quoted

/-- Code points, as inclusive ranges, that do not print: controls, formats, blanks other than the
space, private use. -/
def unprintable : List (Nat × Nat) :=
  [(0x00, 0x1F), (0x7F, 0xA0), (0xAD, 0xAD), (0x600, 0x605), (0x61C, 0x61C), (0x6DD, 0x6DD),
    (0x70F, 0x70F), (0x890, 0x891), (0x8E2, 0x8E2), (0x1680, 0x1680), (0x180E, 0x180E),
    (0x2000, 0x200F), (0x2028, 0x202F), (0x205F, 0x206F), (0x3000, 0x3000), (0xE000, 0xF8FF),
    (0xFEFF, 0xFEFF), (0xFFF0, 0xFFFB), (0xFFFE, 0xFFFF), (0x110BD, 0x110BD), (0x110CD, 0x110CD),
    (0x13430, 0x1343F), (0x1BCA0, 0x1BCA3), (0x1D173, 0x1D17A), (0xE0000, 0xE00FF),
    (0xE01F0, 0x10FFFF)]

def attaching : List (Nat × Nat) :=
  [(0x300, 0x36F), (0x483, 0x489), (0x591, 0x5BD), (0x5BF, 0x5BF), (0x5C1, 0x5C2), (0x5C4, 0x5C5),
    (0x5C7, 0x5C7), (0x610, 0x61A), (0x64B, 0x65F), (0x670, 0x670), (0x6D6, 0x6DC), (0x6DF, 0x6E4),
    (0x6E7, 0x6E8), (0x6EA, 0x6ED), (0x711, 0x711), (0x730, 0x74A), (0x900, 0x902), (0x93A, 0x93A),
    (0x93C, 0x93C), (0x941, 0x948), (0x94D, 0x94D), (0xE31, 0xE31), (0xE34, 0xE3A), (0xE47, 0xE4E),
    (0x1AB0, 0x1ACE), (0x1DC0, 0x1DFF), (0x20D0, 0x20F0), (0x302A, 0x302F), (0x3099, 0x309A),
    (0xFE00, 0xFE0F), (0xFE20, 0xFE2F), (0xFF9E, 0xFF9F), (0xE0100, 0xE01EF)]

def inRanges (ranges : List (Nat × Nat)) (c : Char) : Bool :=
  ranges.any fun range => range.1 ≤ c.toNat && c.toNat ≤ range.2

def hexDigits (fuel n : Nat) (written : List Char) : List Char :=
  match fuel with
  | 0 => written
  | fuel + 1 =>
    if n = 0 then written else hexDigits fuel (n / 16) (hexDigitLower (n % 16) :: written)

def codePoint (c : Char) : List Char :=
  '\\' :: 'u' :: '{' ::
    ((if c.toNat = 0 then ['0'] else hexDigits 8 c.toNat []) ++ ['}'])

def encodeChar (c : Char) : List Char :=
  if c = '"' then ['\\', '"']
  else if c = '\\' then ['\\', '\\']
  else if c = '\n' then ['\\', 'n']
  else if c = '\r' then ['\\', 'r']
  else if c = '\t' then ['\\', 't']
  else if c.toNat = 0 then ['\\', '0']
  else if inRanges unprintable c || inRanges attaching c then codePoint c
  else [c]

def encode (cs : List Char) : List Char := '"' :: (cs.flatMap encodeChar ++ ['"'])

def text (s : String) : String := String.ofList (encode s.toList)

def listText (texts : List String) : String := "[" ++ join ", " (texts.map text) ++ "]"

end StartupLatency.Text.Quoted
