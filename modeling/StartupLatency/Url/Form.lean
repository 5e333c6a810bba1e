import StartupLatency.Url.Escape
/-!
The form encoding of query strings: pairs joined by `&`, name and value parted by `=`, a blank
written as `+`. Reading takes any text: an empty piece is no pair, and a piece without `=` has an
empty value.
-/

namespace StartupLatency.Url.Form

def keep (c : Char) : Bool := Text.isAlpha c || Text.isDigit c || "*-._".toList.contains c

def encodeChar (c : Char) : List Char :=
  if c = ' ' then ['+'] else escape keep [c]

def encodeText (cs : List Char) : List Char := cs.flatMap encodeChar

def encodePair (pair : String × String) : List Char :=
  encodeText pair.1.toList ++ '=' :: encodeText pair.2.toList

def append (query : List Char) : List (String × String) → List Char
  | [] => query
  | pair :: rest =>
    append ((if query.isEmpty then [] else query ++ ['&']) ++ encodePair pair) rest

def encode (pairs : List (String × String)) : List Char := append [] pairs

def decodeText (cs : List Char) : String :=
  String.ofList (Text.Utf8.decodeLossy (unescape (cs.map fun c => if c = '+' then ' ' else c)))

def decodePair (piece : List Char) : String × String :=
  (decodeText (piece.takeWhile (· != '=')), decodeText ((piece.dropWhile (· != '=')).drop 1))

def decode (query : List Char) : List (String × String) :=
  ((Text.splitOn '&' query).filter fun piece => !piece.isEmpty).map decodePair

end StartupLatency.Url.Form
