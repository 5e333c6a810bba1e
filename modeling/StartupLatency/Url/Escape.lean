import StartupLatency.Text.Utf8
/-!
Percent-encoding. Each part of a URL keeps its own set of characters as they are; every other
character is written by its UTF-8 bytes. A percent sign is kept, so encoded text is not encoded
again.
-/

namespace StartupLatency.Url

def escapeByte (b : Nat) : List Char :=
  ['%', Text.hexDigitUpper (b / 16), Text.hexDigitUpper (b % 16)]

def escape (keep : Char → Bool) (cs : List Char) : List Char :=
  cs.flatMap fun c => if keep c then [c] else (Text.Utf8.bytesOf c).flatMap escapeByte

def isPlain (c : Char) : Bool := 0x20 ≤ c.toNat && c.toNat < 0x7F

def keepOpaque (c : Char) : Bool := isPlain c

def keepFragment (c : Char) : Bool := isPlain c && !" \"<>`".toList.contains c

def keepPath (c : Char) : Bool := keepFragment c && !"#?\x7b\x7d".toList.contains c

def keepUserInfo (c : Char) : Bool := keepPath c && !"/:;=@[\\]^|".toList.contains c

def keepQuery (c : Char) : Bool := isPlain c && !" \"#<>".toList.contains c

-- In the query of a URL of a special scheme the apostrophe is escaped too.
def keepSpecialQuery (c : Char) : Bool := keepQuery c && c != '\''

/-- Bytes of a text, where a percent sign and two hexadecimal digits stand for one byte. -/
def unescape : List Char → List Nat
  | [] => []
  | '%' :: a :: b :: rest =>
    match Text.hexValue? a, Text.hexValue? b with
    | some high, some low => (16 * high + low) :: unescape rest
    | _, _ => 0x25 :: unescape (a :: b :: rest)
  | c :: rest => Text.Utf8.bytesOf c ++ unescape rest

end StartupLatency.Url
