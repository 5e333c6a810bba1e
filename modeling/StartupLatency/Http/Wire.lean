import StartupLatency.Client.Exchange
import StartupLatency.Text.Utf8
/-!
Requests and answers as they are sent over a connection that is closed behind the answer. An answer
is read byte by byte, a byte taken for the character of its number; its text is what the bytes of
its body say in UTF-8.
-/

namespace StartupLatency.Http

def lineEnd : List Char := ['\r', '\n']

def splitAt? (mark : List Char) : List Char → Option (List Char × List Char)
  | [] => none
  | c :: rest =>
    match Text.strip? mark (c :: rest) with
    | some behind => some ([], behind)
    | none => (splitAt? mark rest).map fun parts => (c :: parts.1, parts.2)

def hostText (url : Url) : String :=
  String.ofList ((url.host?.elim [] Url.Host.text) ++
    url.port?.elim [] fun port => ':' :: Text.Decimal.write port)

def requestText (url : Url) : String :=
  requestLine url ++ "\r\nHost: " ++ hostText url ++
    "\r\nAccept: */*\r\nConnection: close\r\n\r\n"

-- The value of a header line of that name, letter case aside.
def headerOf? (name : String) (line : List Char) : Option String := do
  let (given, value) ← splitAt? [':'] line
  if Text.lower given == name.toList then some (String.ofList (Text.trim value)) else none

def hexNumber? (digits : List Char) : Option Nat :=
  if digits.isEmpty then none
  else
    digits.foldlM (fun value digit => (Text.hexValue? digit).map fun d => 16 * value + d) 0

-- The pieces of a body that comes in chunks, each with its size ahead; the fuel bounds their
-- number.
def joinChunks (fuel : Nat) (body : List Char) : Option (List Char) :=
  match fuel with
  | 0 => none
  | fuel + 1 => do
    let (line, rest) ← splitAt? lineEnd body
    let size ← hexNumber? (Text.trim (line.takeWhile (· != ';')))
    if size = 0 then some []
    else if rest.length < size then none
    else
      let more ← joinChunks fuel ((rest.drop size).drop lineEnd.length)
      some (rest.take size ++ more)

def statusOf? (line : List Char) : Option Nat := do
  let (_, rest) ← splitAt? [' '] line
  Text.Decimal.read? (rest.take 3)

def linesOf (head : List Char) : List (List Char) :=
  (Text.splitOn '\n' head).map fun line => line.filter (· != '\r')

def answerOf? (bytes : List Nat) : Option ServerAnswer := do
  let (head, body) ← splitAt? (lineEnd ++ lineEnd) (bytes.map Char.ofNat)
  let lines := linesOf head
  let status ← lines.head? >>= statusOf?
  let header (name : String) := lines.tail.findSome? (headerOf? name)
  let body ←
    if header "transfer-encoding" == some "chunked" then joinChunks body.length body else some body
  some ⟨status, String.ofList (Text.Utf8.decodeLossy (body.map Char.toNat)), header "location"⟩

end StartupLatency.Http
