import StartupLatency.Url
/-!
Reading URLs, alone and against a base, by the rules that browsers follow. The fragment and the
query are split off first; what is left is an authority and a path, or a path alone.
-/

namespace StartupLatency.Url

/-- Blanks and controls at the ends do not count, tabs and line ends nowhere. -/
def clean (cs : List Char) : List Char :=
  let isOuter (c : Char) : Bool := c.toNat ≤ 0x20
  let trimmed := ((cs.dropWhile isOuter).reverse.dropWhile isOuter).reverse
  trimmed.filter fun c => !"\t\n\r".toList.contains c

def isSchemeChar (c : Char) : Bool := Text.isAlpha c || Text.isDigit c || "+-.".toList.contains c

def splitScheme? (cs : List Char) : Option (List Char × List Char) :=
  match cs.head? with
  | some c =>
    if Text.isAlpha c then
      match cs.dropWhile isSchemeChar with
      | ':' :: rest => some (Text.lower (cs.takeWhile isSchemeChar), rest)
      | _ => none
    else none
  | none => none

def cutAt (separator : Char) (cs : List Char) : List Char × Option (List Char) :=
  match cs.dropWhile (· != separator) with
  | [] => (cs, none)
  | _ :: rest => (cs.takeWhile (· != separator), some rest)

structure Parts where
  main : List Char
  query? : Option (List Char)
  fragment? : Option (List Char)

def Parts.of (cs : List Char) : Parts :=
  let (front, fragment?) := cutAt '#' cs
  let (main, query?) := cutAt '?' front
  ⟨main, query?, fragment?⟩

def isSlash (special : Bool) (c : Char) : Bool := c == '/' || (special && c == '\\')

def splitPath (special : Bool) : List Char → List (List Char)
  | [] => [[]]
  | c :: rest =>
    if isSlash special c then [] :: splitPath special rest
    else
      match splitPath special rest with
      | [] => [[c]]
      | piece :: pieces => (c :: piece) :: pieces

-- An escaped dot counts as a dot.
def unescapeDots : List Char → List Char
  | '%' :: '2' :: 'e' :: rest => '.' :: unescapeDots rest
  | '%' :: '2' :: 'E' :: rest => '.' :: unescapeDots rest
  | c :: rest => c :: unescapeDots rest
  | [] => []

def isDriveLetter (piece : List Char) : Bool :=
  match piece with
  | [letter, mark] => Text.isAlpha letter && (mark == ':' || mark == '|')
  | _ => false

-- Take the last segment off; a drive letter at the root of a file stays.
def shorten (isFile : Bool) (segments : List (List Char)) : List (List Char) :=
  match segments with
  | [only] => if isFile && isDriveLetter only then [only] else []
  | _ => segments.dropLast

/-- Put pieces onto the segments of a path: `..` takes a segment off, `.` does nothing, and either
as the last piece leaves an empty segment. -/
def extend (isFile : Bool) (segments : List (List Char)) :
    List (List Char) → List (List Char)
  | [] => segments
  | piece :: rest =>
    let dots := unescapeDots piece
    let ending : List (List Char) := if rest.isEmpty then [[]] else []
    if dots = ['.', '.'] then extend isFile (shorten isFile segments ++ ending) rest
    else if dots = ['.'] then extend isFile (segments ++ ending) rest
    else
      let escaped := escape keepPath piece
      let segment :=
        if isFile && segments.isEmpty && isDriveLetter escaped then escaped.take 1 ++ [':']
        else escaped
      extend isFile (segments ++ [segment]) rest

-- The path of a file has no empty segments at its root.
def dropEmptyRoot (segments : List (List Char)) : List (List Char) :=
  match segments.dropWhile List.isEmpty with
  | [] => [[]]
  | kept => kept

def filePath (segments pieces : List (List Char)) : Path :=
  .segments (dropEmptyRoot (extend true segments pieces))

def pathAfterAuthority (special : Bool) (cs : List Char) : Path :=
  match cs with
  | [] => .segments (if special then [[]] else [])
  | _ :: rest => .segments (extend false [] (splitPath special rest))

def encodeQuery (special : Bool) (query? : Option (List Char)) : Option (List Char) :=
  query?.map (escape (if special then keepSpecialQuery else keepQuery))

def encodeFragment (fragment? : Option (List Char)) : Option (List Char) :=
  fragment?.map (escape keepFragment)

-- The text before the last at-sign, if there is one, and the text behind it.
def cutUserInfo (cs : List Char) : Option (List Char) × List Char :=
  let (behind, front?) := cutAt '@' cs.reverse
  (front?.map List.reverse, behind.reverse)

def cutHost (inBrackets : Bool) : List Char → List Char × Option (List Char)
  | [] => ([], none)
  | c :: rest =>
    if c = ':' ∧ !inBrackets then ([], some rest)
    else
      let inside := if c = '[' then true else if c = ']' then false else inBrackets
      let (host, port?) := cutHost inside rest
      (c :: host, port?)

def defaultPort? (scheme : List Char) : Option Nat :=
  if scheme = "http".toList ∨ scheme = "ws".toList then some 80
  else if scheme = "https".toList ∨ scheme = "wss".toList then some 443
  else if scheme = "ftp".toList then some 21
  else none

/-- Decimal digits up to 65535; no digits are no port, and the default port is not kept. -/
def port (scheme digits : List Char) : Except Fault (Option Nat) :=
  if digits.isEmpty then .ok none
  else
    match Text.Decimal.read? digits with
    | some n =>
      if n < 65536 then .ok (if defaultPort? scheme = some n then none else some n)
      else .error .invalidPort
    | none => .error .invalidPort

-- User and password as they are kept: without a colon when the password is empty.
def userInfo (cs : List Char) : List Char × Option (List Char) :=
  let (user, password?) := cutAt ':' cs
  (escape keepUserInfo user,
    (password?.filter fun password => !password.isEmpty).map (escape keepUserInfo))

/-- An authority; `isLast` when nothing follows it. A host may be missing outside the special
schemes only, and not behind a user or in front of a port. -/
def authority (scheme : List Char) (special isLast : Bool) (cs : List Char) :
    Except Fault Authority := do
  let (user?, hostPort) := cutUserInfo cs
  let (hostText, port?) := cutHost false hostPort
  let (user, password?) := userInfo (user?.getD [])
  let hasUser := !user.isEmpty || password?.isSome || (user? == some [] && !isLast)
  if hostText.isEmpty && (special || port?.isSome || hasUser) then .error .emptyHost
  else
    let host ← if special then Host.special hostText else Host.opaqueHost hostText
    let port? ← port scheme (port?.getD [])
    .ok ⟨user, password?, host, port?⟩

def withAuthority (scheme : List Char) (special : Bool) (parts : Parts) (cs : List Char) :
    Except Fault Url := do
  let front := cs.takeWhile fun c => !isSlash special c
  let path := cs.dropWhile fun c => !isSlash special c
  let isLast := path.isEmpty && parts.query?.isNone && parts.fragment?.isNone
  let authority ← authority scheme special isLast front
  .ok ⟨scheme, some authority, pathAfterAuthority special path, encodeQuery special parts.query?,
    encodeFragment parts.fragment?⟩

def file (parts : Parts) : Except Fault Url := do
  let scheme := "file".toList
  let url (host : Host) (path : Path) : Url :=
    ⟨scheme, some ⟨[], none, host, none⟩, path, encodeQuery true parts.query?,
      encodeFragment parts.fragment?⟩
  match parts.main with
  | a :: b :: rest =>
    if isSlash true a && isSlash true b then
      let host := rest.takeWhile fun c => !isSlash true c
      let path := rest.dropWhile fun c => !isSlash true c
      if isDriveLetter host then .ok (url (.domain []) (filePath [] (splitPath true rest)))
      else
        let host ← if host.isEmpty then .ok (.domain []) else Host.special host
        let host := if host = .domain "localhost".toList then .domain [] else host
        .ok (url host (filePath [] (splitPath true (path.drop 1))))
    else if isSlash true a then .ok (url (.domain []) (filePath [] (splitPath true (b :: rest))))
    else .ok (url (.domain []) (filePath [] (splitPath true (a :: b :: rest))))
  | [a] =>
    .ok (url (.domain []) (filePath [] (splitPath true (if isSlash true a then [] else [a]))))
  | [] => .ok (url (.domain []) (.segments [[]]))

def absolute (scheme : List Char) (parts : Parts) : Except Fault Url :=
  if scheme = "file".toList then file parts
  else if isSpecialScheme scheme then
    withAuthority scheme true parts (parts.main.dropWhile (isSlash true))
  else
    match parts.main with
    | '/' :: '/' :: rest => withAuthority scheme false parts rest
    | '/' :: rest =>
      .ok ⟨scheme, none, .segments (extend false [] (splitPath false rest)),
        encodeQuery false parts.query?, encodeFragment parts.fragment?⟩
    | main =>
      .ok ⟨scheme, none, .opaqueText (escape keepOpaque main), encodeQuery false parts.query?,
        encodeFragment parts.fragment?⟩

def relative (base : Url) (segments : List (List Char)) (parts : Parts) : Except Fault Url :=
  let special := base.isSpecial
  let isFile := base.isFile
  let fragment? := encodeFragment parts.fragment?
  let withPath (path : List (List Char)) : Url :=
    { base with
      path := .segments (if isFile then dropEmptyRoot path else path)
      query? := encodeQuery special parts.query?
      fragment? := fragment? }
  match parts.main with
  | [] =>
    match parts.query? with
    | none => .ok { base with fragment? := fragment? }
    | some _ =>
      .ok { base with query? := encodeQuery special parts.query?, fragment? := fragment? }
  | c :: rest =>
    if c = '/' ∨ c = '\\' then
      match rest with
      | d :: more =>
        if d = '/' ∨ d = '\\' then
          if isFile then file parts
          else
            withAuthority base.scheme special parts
              (if c = '/' ∧ d = '/' then more else more.dropWhile (isSlash true))
        else .ok (withPath (extend isFile [] (splitPath special rest)))
      | [] => .ok (withPath [[]])
    else .ok (withPath (extend isFile segments.dropLast (splitPath special (c :: rest))))

def parseAgainst (base? : Option Url) (raw : List Char) : Except Fault Url :=
  let input := clean raw
  match splitScheme? input with
  | some (scheme, rest) =>
    let parts := Parts.of rest
    match base? with
    | some base =>
      match base.path with
      | .segments segments =>
        let slashes := (parts.main.takeWhile (isSlash true)).length
        if base.scheme = scheme ∧ base.isSpecial ∧ slashes < 2 then relative base segments parts
        else absolute scheme parts
      | .opaqueText _ => absolute scheme parts
    | none => absolute scheme parts
  | none =>
    match base? with
    | none => .error .relativeWithoutBase
    | some base =>
      match base.path with
      | .segments segments => relative base segments (Parts.of input)
      | .opaqueText _ =>
        match input with
        | '#' :: fragment => .ok { base with fragment? := encodeFragment (some fragment) }
        | _ => .error .relativeToOpaque

def parse (raw : String) : Except Fault Url := parseAgainst none raw.toList

def join (base : Url) (reference : String) : Except Fault Url :=
  parseAgainst (some base) reference.toList

end StartupLatency.Url
