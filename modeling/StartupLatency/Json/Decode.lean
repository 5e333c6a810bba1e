import StartupLatency.Json.Writer
import StartupLatency.SortedMap
import StartupLatency.Text.Quoted
import StartupLatency.Word
/-!
Typed values out of JSON. A structure is read from an object, whose unknown members are skipped
and whose known members may occur once, or from an array that holds the fields in order. A fault
says what was found and what was wanted.
-/

namespace StartupLatency.Json

inductive DecodeFault where
  | wrongType (found : Json) (wanted : String)
  | wrongValue (found : Json) (wanted : String)
  | wrongLength (length : Nat) (wanted : String)
  | missingField (name : String)
  | duplicateField (name : String)
  | unknownVariant (name : String) (known : List String)
  | malformed (text : String)

def description : Json → String
  | .null => "null"
  | .bool value => "boolean `" ++ (if value then "true" else "false") ++ "`"
  | .num (.int value) => "integer `" ++ Text.Decimal.textInt value ++ "`"
  | .num (.real value) => "floating point `" ++ String.ofList (realText value) ++ "`"
  | .str value => "string " ++ Text.Quoted.text value
  | .arr _ => "sequence"
  | .obj _ => "map"
  | .valueless => "value"

def variantList : List String → String
  | [] => "there are no variants"
  | [one] => "`" ++ one ++ "`"
  | [one, two] => "`" ++ one ++ "` or `" ++ two ++ "`"
  | many => "one of " ++ Text.join ", " (many.map fun name => "`" ++ name ++ "`")

def DecodeFault.message : DecodeFault → String
  | .wrongType found wanted => "invalid type: " ++ found.description ++ ", expected " ++ wanted
  | .wrongValue found wanted => "invalid value: " ++ found.description ++ ", expected " ++ wanted
  | .wrongLength length wanted =>
    "invalid length " ++ Text.Decimal.text length ++ ", expected " ++ wanted
  | .missingField name => "missing field `" ++ name ++ "`"
  | .duplicateField name => "duplicate field `" ++ name ++ "`"
  | .unknownVariant name known =>
    "unknown variant `" ++ name ++ "`, expected " ++ variantList known
  | .malformed text => text

abbrev Decoder (α : Type) := Json → Except DecodeFault α

namespace Decode

def string : Decoder String
  | .str value => .ok value
  | other => .error (.wrongType other "a string")

def boolean : Decoder Bool
  | .bool value => .ok value
  | other => .error (.wrongType other "a boolean")

-- Whole numbers of a range; a double is none, even without a fraction.
def integer (low high : Int) (wanted : String) : Decoder Int
  | .num (.int value) =>
    if low ≤ value ∧ value ≤ high then .ok value
    else .error (.wrongValue (.num (.int value)) wanted)
  | other => .error (.wrongType other wanted)

def int64 : Decoder Int := integer (-(Word.half64 : Int)) (Word.half64 - 1) "i64"

def count (json : Json) : Except DecodeFault Nat :=
  (integer 0 (Word.limit64 - 1) "usize" json).map Int.toNat

def real : Decoder Binary64
  | .num (.real value) => .ok value
  | .num (.int value) => .ok (Binary64.ofRatio (value < 0) value.natAbs 1)
  | other => .error (.wrongType other "f64")

def optional (read : Decoder α) : Decoder (Option α)
  | .null => .ok none
  | other => (read other).map some

def items (read : Decoder α) : List Json → Except DecodeFault (List α)
  | [] => .ok []
  | item :: rest =>
    match read item with
    | .error fault => .error fault
    | .ok value => (items read rest).map (value :: ·)

def list (read : Decoder α) : Decoder (List α)
  | .arr values => items read values
  | other => .error (.wrongType other "a sequence")

-- The members in document order; the last value of a repeated name stays.
def entries (read : Decoder α) (map : SortedMap String α) :
    List (String × Json) → Except DecodeFault (SortedMap String α)
  | [] => .ok map
  | member :: rest =>
    match read member.2 with
    | .error fault => .error fault
    | .ok value => entries read (map.insert member.1 value) rest

def map (read : Decoder α) : Decoder (SortedMap String α)
  | .obj members => entries read ∅ members
  | other => .error (.wrongType other "a map")

-- A value named by a text, or by an object whose one member of that name is `null`.
def variant (values : List α) (name : α → String) (typeName : String) : Decoder α
  | .str given => pick given
  | .obj [(given, .null)] => pick given
  | .obj [(given, other)] =>
    match pick given with
    | .ok _ => .error (.wrongType other "unit")
    | .error fault => .error fault
  | .obj _ => .error (.wrongValue (.obj []) "map with a single key")
  | other => .error (.wrongType other ("string or map for enum " ++ typeName))
where
  pick (given : String) : Except DecodeFault α :=
    match values.find? fun value => name value == given with
    | some value => .ok value
    | none => .error (.unknownVariant given (values.map name))

def tagged (cases : List (String × Decoder α)) : Decoder α
  | .obj [(name, value)] =>
    match cases.lookup name with
    | some read => read value
    | none => .error (.unknownVariant name (cases.map Prod.fst))
  | .obj _ => .error (.wrongValue (.obj []) "map with a single key")
  | other => .error (.wrongType other "a map")

end Decode

/-- Where a field has to be given: in every form, in arrays but not in objects, or nowhere. -/
inductive Required where
  | always
  | inArrays
  | never
deriving DecidableEq

structure Field (α : Type) where
  name : String
  required : Required
  read : Json → α → Except DecodeFault α

/-- How a structure is read: its name, the value that its fields are put into, its fields. -/
structure Shape (α : Type) where
  name : String
  start : α
  fields : List (Field α)

def field (name : String) (required : Required) (read : Decoder β) (put : α → β → α) : Field α :=
  ⟨name, required, fun json value => (read json).map (put value)⟩

namespace Shape

def readMembers (shape : Shape α) (value : α) (seen : List String) :
    List (String × Json) → Except DecodeFault α
  | [] =>
    match shape.fields.find? fun field =>
        field.required = .always && !seen.contains field.name with
    | some field => .error (.missingField field.name)
    | none => .ok value
  | member :: rest =>
    match shape.fields.find? fun field => field.name == member.1 with
    | none => readMembers shape value seen rest
    | some field =>
      if seen.contains field.name then .error (.duplicateField field.name)
      else
        match field.read member.2 value with
        | .error fault => .error fault
        | .ok value => readMembers shape value (field.name :: seen) rest

def lengthText (shape : Shape α) : String :=
  "struct " ++ shape.name ++ " with " ++ Text.Decimal.text shape.fields.length ++
    (if shape.fields.length = 1 then " element" else " elements")

def readItems (shape : Shape α) (value : α) (position : Nat) :
    List (Field α) → List Json → Except DecodeFault α
  | [], [] => .ok value
  | [], _ :: more =>
    .error (.wrongLength (position + 1 + more.length) "fewer elements in array")
  | field :: fields, [] =>
    if field.required = .never then readItems shape value (position + 1) fields []
    else .error (.wrongLength position shape.lengthText)
  | field :: fields, item :: items =>
    match field.read item value with
    | .error fault => .error fault
    | .ok value => readItems shape value (position + 1) fields items

def decode (shape : Shape α) : Decoder α
  | .obj members => shape.readMembers shape.start [] members
  | .arr items => shape.readItems shape.start 0 shape.fields items
  | other => .error (.wrongType other ("struct " ++ shape.name))

end Shape

def member (name : String) (value : Json) : List (String × Json) := [(name, value)]

def textMember (name value : String) : List (String × Json) :=
  if value = "" then [] else [(name, .str value)]

def ofStringMap (map : SortedMap String String) : Json :=
  .obj (map.entries.map fun entry => (entry.1, .str entry.2))

end StartupLatency.Json
