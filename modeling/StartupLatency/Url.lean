import StartupLatency.Url.Form
import StartupLatency.Url.Host
/-!
URLs and their text. The parts are kept escaped, so that the text is their concatenation.
-/

namespace StartupLatency

namespace Url

structure Authority where
  user : List Char
  password? : Option (List Char)
  -- Empty only outside the special schemes, and for files.
  host : Host
  port? : Option Nat
deriving DecidableEq

inductive Path where
  | segments (segments : List (List Char))
  -- The path of a URL that nothing can be relative to.
  | opaqueText (text : List Char)
deriving DecidableEq

end Url

structure Url where
  scheme : List Char
  authority? : Option Url.Authority
  path : Url.Path
  query? : Option (List Char)
  fragment? : Option (List Char)
deriving DecidableEq

namespace Url

def isSpecialScheme (scheme : List Char) : Bool :=
  ["http", "https", "ws", "wss", "ftp", "file"].any fun name => name.toList == scheme

def isSpecial (url : Url) : Bool := isSpecialScheme url.scheme

def isFile (url : Url) : Bool := url.scheme == "file".toList

def Authority.text (authority : Authority) : List Char :=
  let password := authority.password?.elim [] (':' :: ·)
  let user := authority.user ++ password
  (if user.isEmpty then [] else user ++ ['@']) ++ authority.host.text ++
    authority.port?.elim [] fun port => ':' :: Text.Decimal.write port

def Path.text : Path → List Char
  | .segments pieces => pieces.flatMap fun segment => '/' :: segment
  | .opaqueText written => written

/-- What stands between scheme and path. Without an authority, a path that begins with an empty
segment is kept apart from the colon. -/
def authorityText (url : Url) : List Char :=
  match url.authority?, url.path with
  | some authority, _ => "//".toList ++ authority.text
  | none, .segments ([] :: _ :: _) => "/.".toList
  | none, _ => []

def chars (url : Url) : List Char :=
  url.scheme ++ ':' :: (url.authorityText ++ url.path.text ++
    url.query?.elim [] ('?' :: ·) ++ url.fragment?.elim [] ('#' :: ·))

def text (url : Url) : String := String.ofList url.chars

def host? (url : Url) : Option Host :=
  (url.authority?.map Authority.host).filter fun host => !host.isEmpty

def port? (url : Url) : Option Nat := url.authority?.bind Authority.port?

def target (url : Url) : String :=
  String.ofList (url.path.text ++ url.query?.elim [] ('?' :: ·))

def reachesLoopback (url : Url) (port : Nat) : Bool :=
  url.scheme == "http".toList && url.host? == some (.ipv4 0x7F000001) && url.port?.getD 80 == port

-- Append pairs to the query; a query that ends up empty is dropped.
def withPairs (url : Url) (pairs : List (String × String)) : Url :=
  { url with
    query? := (some (Form.append (url.query?.getD []) pairs)).filter fun query => !query.isEmpty }

end Url
end StartupLatency
