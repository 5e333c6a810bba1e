import StartupLatency.Text.Decimal
import StartupLatency.Url.Escape
import StartupLatency.Url.International
/-!
Hosts of URLs. A special scheme has domains and addresses, where a domain that ends in a number has
to be an IPv4 address; every other scheme has opaque hosts and IPv6 addresses.
-/

namespace StartupLatency.Url

inductive Host where
  | domain (name : List Char)
  | ipv4 (address : Nat)
  -- Eight pieces of 16 bits.
  | ipv6 (pieces : List Nat)
deriving DecidableEq

inductive Fault where
  | emptyHost
  | internationalName
  | invalidPort
  | invalidIpv4
  | invalidIpv6
  | invalidHostCharacter
  | relativeWithoutBase
  | relativeToOpaque
deriving DecidableEq

def Fault.message : Fault → String
  | .emptyHost => "empty host"
  | .internationalName => "invalid international domain name"
  | .invalidPort => "invalid port number"
  | .invalidIpv4 => "invalid IPv4 address"
  | .invalidIpv6 => "invalid IPv6 address"
  | .invalidHostCharacter => "invalid domain character"
  | .relativeWithoutBase => "relative URL without a base"
  | .relativeToOpaque => "relative URL with a cannot-be-a-base base"

namespace Host

def number? (base : Nat) (cs : List Char) : Option Nat :=
  cs.foldl (fun value c =>
    value.bind fun value =>
      (Text.hexValue? c).bind fun digit =>
        if digit < base then some (base * value + digit) else none) (some 0)

/-- A number of an IPv4 address: decimal, octal after a leading zero, hexadecimal after `0x`. -/
def ipv4Number? : List Char → Option Nat
  | [] => none
  | '0' :: 'x' :: rest => number? 16 rest
  | '0' :: 'X' :: rest => number? 16 rest
  | '0' :: c :: rest => number? 8 (c :: rest)
  | cs => number? 10 cs

def dropLastEmpty (parts : List (List Char)) : List (List Char) :=
  if parts.getLast? = some [] then parts.dropLast else parts

-- The last label, not counting one trailing dot, is a number.
def endsInNumber (name : List Char) : Bool :=
  match (dropLastEmpty (Text.splitOn '.' name)).getLast? with
  | some last => (!last.isEmpty && last.all Text.isDigit) || (ipv4Number? last).isSome
  | none => false

/-- The last number fills the bytes that are left, each other one fills one byte. -/
def ipv4? (name : List Char) : Option Nat := do
  let parts := dropLastEmpty (Text.splitOn '.' name)
  if parts.length > 4 then none
  else
    let numbers ← parts.mapM ipv4Number?
    let last ← numbers.getLast?
    let bytes := numbers.dropLast
    if bytes.any (255 < ·) || Nat.pow 256 (4 - bytes.length) ≤ last then none
    else
      let high := bytes.foldl (fun value byte => 256 * value + byte) 0
      some (high * Nat.pow 256 (4 - bytes.length) + last)

-- One byte in decimal, without leading zeros.
def byte? (cs : List Char) : Option Nat :=
  if cs.length > 1 && cs.head? = some '0' then none
  else (Text.Decimal.read? cs).filter (· < 256)

-- Pieces between colons; the last of all may be an IPv4 address, which fills two.
def pieces? (last : Bool) : List (List Char) → Option (List Nat)
  | [] => some []
  | piece :: rest =>
    if last && rest.isEmpty && piece.contains '.' then do
      let bytes ← (Text.splitOn '.' piece).mapM byte?
      match bytes with
      | [a, b, c, d] => some [256 * a + b, 256 * c + d]
      | _ => none
    else if piece.isEmpty || piece.length > 4 then none
    else do
      let value ← number? 16 piece
      let more ← pieces? last rest
      some (value :: more)

def splitAtGap : List Char → List Char × Option (List Char)
  | [] => ([], none)
  | ':' :: ':' :: rest => ([], some rest)
  | c :: rest =>
    let (before, behind) := splitAtGap rest
    (c :: before, behind)

def piecesOf? (last : Bool) (cs : List Char) : Option (List Nat) :=
  if cs.isEmpty then some [] else pieces? last (Text.splitOn ':' cs)

/-- Eight pieces, of which a double colon leaves out one or more that are zero. -/
def ipv6? (cs : List Char) : Option (List Nat) := do
  match splitAtGap cs with
  | (all, none) =>
    let pieces ← piecesOf? true all
    if pieces.length = 8 then some pieces else none
  | (before, some behind) =>
    let front ← piecesOf? false before
    let back ← piecesOf? true behind
    if front.length + back.length < 8 then
      some (front ++ List.replicate (8 - front.length - back.length) 0 ++ back)
    else none

def bracketed? : List Char → Option (Except Fault Host)
  | '[' :: rest =>
    if rest.getLast? = some ']' then
      match ipv6? rest.dropLast with
      | some pieces => some (.ok (.ipv6 pieces))
      | none => some (.error .invalidIpv6)
    else some (.error .invalidIpv6)
  | _ => none

def forbiddenInDomain (c : Char) : Bool :=
  c.toNat ≤ 0x20 || c.toNat == 0x7F || "#%/:<>?@[\\]^|".toList.contains c

def forbiddenInOpaque (c : Char) : Bool :=
  c.toNat == 0 || "\t\n\r #/:<>?@[\\]^|".toList.contains c

def special (cs : List Char) : Except Fault Host :=
  match bracketed? cs with
  | some host => host
  | none =>
    match (Text.Utf8.decode? (unescape cs)).bind International.toAscii? with
    | none => .error .internationalName
    | some name =>
      if name.any forbiddenInDomain then .error .internationalName
      else if name.isEmpty then .error .emptyHost
      else if endsInNumber name then
        match ipv4? name with
        | some address => .ok (.ipv4 address)
        | none => .error .invalidIpv4
      else .ok (.domain name)

-- A host of any other scheme; it may be empty.
def opaqueHost (cs : List Char) : Except Fault Host :=
  match bracketed? cs with
  | some host => host
  | none =>
    if cs.any forbiddenInOpaque then .error .invalidHostCharacter
    else .ok (.domain (escape keepOpaque cs))

def ipv4Text (address : Nat) : List Char :=
  Text.Decimal.write (address / 0x1000000 % 256) ++ '.' ::
    (Text.Decimal.write (address / 0x10000 % 256) ++ '.' ::
      (Text.Decimal.write (address / 256 % 256) ++ '.' :: Text.Decimal.write (address % 256)))

def pieceText (piece : Nat) : List Char :=
  let digits :=
    [piece / 4096 % 16, piece / 256 % 16, piece / 16 % 16].dropWhile (· = 0) ++ [piece % 16]
  digits.map Text.hexDigitLower

def zeroRun (pieces : List Nat) : Nat := (pieces.takeWhile (· = 0)).length

-- Where the longest run of zeros starts, and its length; of runs of one length the first.
def longestZeros (position : Nat) : List Nat → Nat × Nat
  | [] => (position, 0)
  | piece :: rest =>
    let here := zeroRun (piece :: rest)
    let later := longestZeros (position + 1) rest
    if later.2 ≤ here then (position, here) else later

def joinPieces (pieces : List Nat) : List Char :=
  List.intercalate [':'] (pieces.map pieceText)

/-- The longest run of two zeros or more is written as a double colon. -/
def ipv6Text (pieces : List Nat) : List Char :=
  let (start, length) := longestZeros 0 pieces
  if length < 2 then joinPieces pieces
  else joinPieces (pieces.take start) ++ "::".toList ++ joinPieces (pieces.drop (start + length))

def text : Host → List Char
  | .domain name => name
  | .ipv4 address => ipv4Text address
  | .ipv6 pieces => '[' :: (ipv6Text pieces ++ [']'])

def isEmpty : Host → Bool
  | .domain [] => true
  | _ => false

end Host
end StartupLatency.Url
