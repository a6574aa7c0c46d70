import ApiEvolution.Json.Printer
import ApiEvolution.Text.Quoted

/-!
# Reading values by their shape

A `Mismatch` says why a JSON value does not have the wanted shape. The readers of simple values are
here, and `Record`, the common part of reading a structure: its fields come from an object, in which
no field may be repeated and unknown members are ignored, or in their declared order from an array.

The order in which a reader asks for the fields of a record decides which of several faults is
reported. To report the first as it is met in a sorted object, it asks for the fields in the order
of their keys, and only then for the absent ones.
-/

namespace ApiEvolution.Json

/-- Why a value does not have the wanted shape. -/
inductive Mismatch where
  /-- The value is of another type than the wanted one. -/
  | wrongType (found : Json) (wanted : String)
  /-- The value is of the right type but not in its range. -/
  | badValue (found : Json) (wanted : String)
  /-- A field without default is absent. -/
  | missingField (name : String)
  /-- A field is there twice. -/
  | repeatedField (name : String)
  /-- An array of fields ends before one that has no default. -/
  | tooShort (length : Nat) (wanted : String)
  /-- An array of fields goes on after the last one. -/
  | tooLong (length : Nat)
  /-- A text is none of the known names. -/
  | unknownVariant (name : String) (known : List String)
  /-- A limit is classified by a number that has no meaning. -/
  | limitCode (code : Nat)
  /-- A default value is not of its declared type. -/
  | defaultValue (value : Json) (declared : String)
  /-- A limit of a boundary is given by a name that its side does not have. -/
  | limitSymbol (symbol : String)

/-- What a value is, as messages say it. -/
def describe : Json → String
  | .null => "null"
  | .bool b => "boolean `" ++ (if b then "true" else "false") ++ "`"
  | .integer i => "integer `" ++ Decimal.integer i ++ "`"
  | .real x => "floating point `" ++ number x ++ "`"
  | .text s => "string " ++ Text.quoted s
  | .array _ => "sequence"
  | .object _ => "map"
  | .unusable => "value"

/-- Names in backquotes as alternatives. -/
def alternatives (names : List String) : String :=
  match names.map fun n => "`" ++ n ++ "`" with
  | [] => "there are no variants"
  | [a] => "expected " ++ a
  | [a, b] => "expected " ++ a ++ " or " ++ b
  | more => "expected one of " ++ ", ".intercalate more

/-- The message for a mismatch. -/
def Mismatch.message : Mismatch → String
  | .wrongType found wanted => "invalid type: " ++ describe found ++ ", expected " ++ wanted
  | .badValue found wanted => "invalid value: " ++ describe found ++ ", expected " ++ wanted
  | .missingField name => "missing field `" ++ name ++ "`"
  | .repeatedField name => "duplicate field `" ++ name ++ "`"
  | .tooShort length wanted =>
    "invalid length " ++ Decimal.natural length ++ ", expected " ++ wanted
  | .tooLong length =>
    "invalid length " ++ Decimal.natural length ++ ", expected fewer elements in array"
  | .unknownVariant name known => "unknown variant `" ++ name ++ "`, " ++ alternatives known
  | .limitCode code => "invalid limit type code " ++ Decimal.natural code
  | .defaultValue value declared =>
    "defaultValue " ++ compact value ++ " does not match defaultType " ++ Text.quoted declared
  | .limitSymbol symbol => "unexpected boundary limit " ++ Text.quoted symbol

/-- A value of the wanted shape, or why the JSON value does not have it. -/
abbrev Reading (α : Type) := Except Mismatch α

/-! ## Simple values -/

/-- A text. -/
def asText : Json → Reading String
  | .text s => .ok s
  | v => .error (.wrongType v "a string")

/-- A truth value. -/
def asBool : Json → Reading Bool
  | .bool b => .ok b
  | v => .error (.wrongType v "a boolean")

/-- A number; an integer counts as the nearest double. -/
def asFloat : Json → Reading Float
  | .real x => .ok x
  | .integer i => .ok (Float.ofInt i)
  | v => .error (.wrongType v "f64")

/-- An integer from 0 to 255. -/
def asByte : Json → Reading Nat
  | .integer i => if 0 ≤ i ∧ i < 256 then .ok i.toNat else .error (.badValue (.integer i) "u8")
  | v => .error (.wrongType v "u8")

/-- A number of things: an integer from 0 below `2 ^ 64`. -/
def asCount : Json → Reading Nat
  | .integer i =>
    if 0 ≤ i ∧ i < Int.pow 2 64 then .ok i.toNat else .error (.badValue (.integer i) "a count")
  | v => .error (.wrongType v "a count")

/-- A signed integer of 64 bits. -/
def asSigned : Json → Reading Int
  | .integer i =>
    if -Int.pow 2 63 ≤ i ∧ i < Int.pow 2 63 then .ok i else .error (.badValue (.integer i) "a signed integer")
  | v => .error (.wrongType v "a signed integer")

/-- A value that may be null. -/
def asOption {α : Type} (read : Json → Reading α) : Json → Reading (Option α)
  | .null => .ok none
  | v => (read v).map some

/-- An array whose items have a shape. -/
def asList {α : Type} (read : Json → Reading α) : Json → Reading (List α)
  | .array items => items.mapM read
  | v => .error (.wrongType v "a sequence")

/-- An array of texts. -/
def asTexts : Json → Reading (List String) :=
  asList asText

/-- A JSON object whose values have a shape; of a repeated key the last value counts. -/
def asMap {α : Type} (read : Json → Reading α) : Json → Reading (List (String × α))
  | .object members => do
    return latest (← members.mapM fun m => (read m.2).map fun a => (m.1, a))
  | v => .error (.wrongType v "a map")

/-- One of some named constants: its name as a text, or an object with the name as its only key and
a void value. -/
def asConstant {α : Type} (isVoid : Json → Bool) (constants : List (String × α)) :
    Json → Reading α
  | .text s => find s
  | .object [(k, v)] => do
    let a ← find k
    if isVoid v then .ok a else .error (.wrongType v "unit")
  | .object members => .error (.badValue (.object members) "map with a single key")
  | v => .error (.wrongType v "string or map")
where
  /-- The constant of a name. -/
  find (name : String) : Reading α :=
    match constants.find? fun c => c.1 = name with
    | some c => .ok c.2
    | none => .error (.unknownVariant name (constants.map (·.1)))

/-- Null is void. -/
def isNull : Json → Bool
  | .null => true
  | _ => false

/-- Null is void, and so is an object without members. -/
def isNullOrEmpty : Json → Bool
  | .null => true
  | .object [] => true
  | _ => false

/-! ## Records -/

/-- The fields of a structure that a value has. -/
structure Record where
  /-- What the structure is called in messages. -/
  shape : String
  /-- The number of fields that the structure declares. -/
  size : Nat
  /-- Whether the fields came with their names, from an object. -/
  named : Bool
  fields : List (String × Json)

/-- The first of some names that is a key of two members. -/
def repeatedKey? (names : List String) (members : List (String × Json)) : Option String :=
  names.find? fun n => 1 < members.countP fun m => m.1 = n

/-- A structure with a name, given the names of its fields and a reader of its record. An array may
not go on after the last field, which is looked at after the fields are. -/
def asRecord {α : Type} (shape : String) (names : List String) (read : Record → Reading α) :
    Json → Reading α
  | .object members =>
    match repeatedKey? names members with
    | some n => .error (.repeatedField n)
    | none => read ⟨shape, names.length, true, members⟩
  | .array items => do
    let a ← read ⟨shape, names.length, false, names.zip items⟩
    if items.length ≤ names.length then return a else throw (.tooLong items.length)
  | v => .error (.wrongType v ("struct " ++ shape))

/-- A field, if the record has it. -/
def Record.get? {α : Type} (r : Record) (name : String) (read : Json → Reading α) :
    Reading (Option α) :=
  match lookup name r.fields with
  | some v => (read v).map some
  | none => .ok none

/-- The failure for a field without default that the record does not have. -/
def Record.absent (r : Record) (name : String) : Mismatch :=
  if r.named then .missingField name
  else .tooShort r.fields.length ("struct " ++ r.shape ++ " with " ++ Decimal.natural r.size ++
    (if r.size = 1 then " element" else " elements"))

/-- A field that must be there. -/
def Record.need {α : Type} (r : Record) (name : String) : Option α → Reading α
  | some a => .ok a
  | none => .error (r.absent name)

/-- A field that must be there, read at once. -/
def Record.get {α : Type} (r : Record) (name : String) (read : Json → Reading α) : Reading α := do
  r.need name (← r.get? name read)

/-- A field with a default. -/
def Record.getD {α : Type} (r : Record) (name : String) (read : Json → Reading α) (default : α) :
    Reading α := do
  return (← r.get? name read).getD default

/-- A field that may be null or absent. -/
def Record.getOption {α : Type} (r : Record) (name : String) (read : Json → Reading α) :
    Reading (Option α) := do
  match ← r.get? name (asOption read) with
  | some a => .ok a
  | none => .ok none

/-- The only field of a structure. -/
def asField {α : Type} (shape name : String) (read : Json → Reading α) : Json → Reading α :=
  asRecord shape [name] fun r => r.get name read

end ApiEvolution.Json
