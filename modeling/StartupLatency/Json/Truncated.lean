import StartupLatency.Json.Reader
/-!
Text that breaks off: it is no JSON text, but nothing in it is wrong so far. The text is scanned
character by character with the open brackets on a stack.
-/

namespace StartupLatency.Json

inductive NumberPart where
  | sign
  | zero
  | whole
  | point
  | fraction
  | mark
  | markSign
  | exponent
deriving DecidableEq

inductive Expecting where
  | value
  | valueOrClose
  | name
  | nameOrClose
  | colon
  | more
  | string (isName : Bool)
  | escape (isName : Bool)
  | hex (isName : Bool) (left : Nat)
  | word (rest : List Char)
  | number (part : NumberPart)
deriving DecidableEq

structure Scan where
  -- Open brackets, the innermost first; `true` for those of objects.
  stack : List Bool
  expecting : Expecting
deriving DecidableEq

namespace Scan

def start : Scan := ⟨[], .value⟩

def await (scan : Scan) (expecting : Expecting) : Option Scan := some ⟨scan.stack, expecting⟩

def close (scan : Scan) (isObject : Bool) : Option Scan :=
  match scan.stack with
  | top :: rest => if top = isObject then some ⟨rest, .more⟩ else none
  | [] => none

def afterValue (scan : Scan) (c : Char) : Option Scan :=
  if isSpace c then scan.await .more
  else
    match c, scan.stack with
    | ',', true :: _ => scan.await .name
    | ',', false :: _ => scan.await .value
    | '}', _ => scan.close true
    | ']', _ => scan.close false
    | _, _ => none

def openValue (scan : Scan) (c : Char) : Option Scan :=
  match c with
  | '{' => some ⟨true :: scan.stack, .nameOrClose⟩
  | '[' => some ⟨false :: scan.stack, .valueOrClose⟩
  | '"' => scan.await (.string false)
  | 'n' => scan.await (.word "ull".toList)
  | 't' => scan.await (.word "rue".toList)
  | 'f' => scan.await (.word "alse".toList)
  | '-' => scan.await (.number .sign)
  | '0' => scan.await (.number .zero)
  | c => if Text.isDigit c then scan.await (.number .whole) else none

def numberPart? (part : NumberPart) (c : Char) : Option NumberPart :=
  let digit := Text.isDigit c
  match part with
  | .sign => if c = '0' then some .zero else if digit then some .whole else none
  | .zero => tail c
  | .whole => if digit then some .whole else tail c
  | .point => if digit then some .fraction else none
  | .fraction => if digit then some .fraction else if c = 'e' ∨ c = 'E' then some .mark else none
  | .mark => if digit then some .exponent else if c = '+' ∨ c = '-' then some .markSign else none
  | .markSign => if digit then some .exponent else none
  | .exponent => if digit then some .exponent else none
where
  tail (c : Char) : Option NumberPart :=
    if c = '.' then some .point else if c = 'e' ∨ c = 'E' then some .mark else none

def mayEnd : NumberPart → Bool
  | .zero | .whole | .fraction | .exponent => true
  | _ => false

def stringEnd (isName : Bool) : Expecting := if isName then .colon else .more

-- Take one character; `none` when the text is wrong there.
def step (scan : Scan) (c : Char) : Option Scan :=
  match scan.expecting with
  | .value => if isSpace c then some scan else scan.openValue c
  | .valueOrClose =>
    if isSpace c then some scan
    else if c = ']' then scan.close false else scan.openValue c
  | .name => if isSpace c then some scan else if c = '"' then scan.await (.string true) else none
  | .nameOrClose =>
    if isSpace c then some scan
    else if c = '"' then scan.await (.string true)
    else if c = '}' then scan.close true else none
  | .colon => if isSpace c then some scan else if c = ':' then scan.await .value else none
  | .more => scan.afterValue c
  | .string isName =>
    if c = '"' then scan.await (stringEnd isName)
    else if c = '\\' then scan.await (.escape isName)
    else if c.toNat < 32 then none else some scan
  | .escape isName =>
    if c = 'u' then scan.await (.hex isName 4)
    else (simpleEscape? c).bind fun _ => scan.await (.string isName)
  | .hex isName left =>
    if Text.isHexDigit c then
      scan.await (if left ≤ 1 then .string isName else .hex isName (left - 1))
    else none
  | .word [] => scan.afterValue c
  | .word (wanted :: rest) =>
    if c = wanted then scan.await (if rest.isEmpty then .more else .word rest) else none
  | .number part =>
    match numberPart? part c with
    | some next => scan.await (.number next)
    | none => if mayEnd part then scan.afterValue c else none

def isComplete (scan : Scan) : Bool :=
  scan.stack.isEmpty &&
    match scan.expecting with
    | .more => true
    | .number part => mayEnd part
    | _ => false

end Scan

/-- Whether something is missing at the end, and nothing is wrong before. -/
def isTruncated (cs : List Char) : Bool :=
  match cs.foldlM Scan.step Scan.start with
  | some scan => !scan.isComplete
  | none => false

end StartupLatency.Json
