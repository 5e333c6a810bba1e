import StartupLatency.Json
/-!
JSON text, compact and indented. Strings escape the quotation mark, the backslash and the control
characters, and nothing else.
-/

namespace StartupLatency.Json

def escapeChar (c : Char) : List Char :=
  if c = '"' then ['\\', '"']
  else if c = '\\' then ['\\', '\\']
  else if c = '\n' then ['\\', 'n']
  else if c = '\r' then ['\\', 'r']
  else if c = '\t' then ['\\', 't']
  else if c = '\x08' then ['\\', 'b']
  else if c = '\x0c' then ['\\', 'f']
  else if c.toNat < 32 then
    ['\\', 'u', '0', '0', Text.hexDigitLower (c.toNat / 16), Text.hexDigitLower (c.toNat % 16)]
  else [c]

def quote (cs : List Char) : List Char := '"' :: (cs.flatMap escapeChar ++ ['"'])

/-- Doubles are positional while the point stands within 16 digits or up to four zeros before
them, and scientific beyond. -/
def realText (x : Binary64) : List Char :=
  let d := x.shortest
  let sign := if x.isNegative then ['-'] else []
  if -5 < d.point ∧ d.point ≤ 16 then sign ++ d.positional else sign ++ d.scientific

def Number.text : Number → List Char
  | .int value => Text.Decimal.writeInt value
  | .real value => if value.isFinite then realText value else "null".toList

mutual

def compact : Json → List Char
  | .null => "null".toList
  | .bool true => "true".toList
  | .bool false => "false".toList
  | .num value => value.text
  | .str value => quote value.toList
  | .arr [] => "[]".toList
  | .arr (item :: rest) => '[' :: (item.compact ++ compactItems rest)
  | .obj [] => "\x7b\x7d".toList
  | .obj (member :: rest) =>
    '{' :: (quote member.1.toList ++ ':' :: (member.2.compact ++ compactMembers rest))
  | .valueless => "null".toList

def compactItems : List Json → List Char
  | [] => [']']
  | item :: rest => ',' :: (item.compact ++ compactItems rest)

def compactMembers : List (String × Json) → List Char
  | [] => ['}']
  | member :: rest =>
    ',' :: (quote member.1.toList ++ ':' :: (member.2.compact ++ compactMembers rest))

end

def newLine (depth : Nat) : List Char := '\n' :: List.replicate (2 * depth) ' '

mutual

def indented (depth : Nat) : Json → List Char
  | .arr (item :: rest) =>
    '[' :: (newLine (depth + 1) ++ item.indented (depth + 1) ++ indentedItems depth rest)
  | .obj (member :: rest) =>
    '{' :: (newLine (depth + 1) ++ quote member.1.toList ++ ':' :: ' ' ::
      (member.2.indented (depth + 1) ++ indentedMembers depth rest))
  | .arr [] => "[]".toList
  | .obj [] => "\x7b\x7d".toList
  | .null => "null".toList
  | .bool true => "true".toList
  | .bool false => "false".toList
  | .num value => value.text
  | .str value => quote value.toList
  | .valueless => "null".toList

def indentedItems (depth : Nat) : List Json → List Char
  | [] => newLine depth ++ [']']
  | item :: rest =>
    ',' :: (newLine (depth + 1) ++ item.indented (depth + 1) ++ indentedItems depth rest)

def indentedMembers (depth : Nat) : List (String × Json) → List Char
  | [] => newLine depth ++ ['}']
  | member :: rest =>
    ',' :: (newLine (depth + 1) ++ quote member.1.toList ++ ':' :: ' ' ::
      (member.2.indented (depth + 1) ++ indentedMembers depth rest))

end

def compactText (json : Json) : String := String.ofList json.compact

def indentedText (json : Json) : String := String.ofList (json.indented 0)

end StartupLatency.Json
