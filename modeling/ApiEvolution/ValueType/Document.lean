import ApiEvolution.Json.Record
import ApiEvolution.Json.Reader
import ApiEvolution.ValueType.Basic

/-!
# Types in documents

A type is written as an object whose member `kind` names the variant. An unbounded side of a
boundary is written by name, a different one on each side; any other limit is a number, and a flag
tells whether it belongs to the range. `ValueType.ofJson` reads what `ValueType.toJson` writes.
-/

namespace ApiEvolution

open Json

/-- The name of an unbounded lower side. -/
def lowerSymbol : String := "NegativeInfinity"

/-- The name of an unbounded upper side. -/
def upperSymbol : String := "Infinity"

/-- A limit, given the name of an unbounded one. -/
def Limit.toJson (symbol : String) : Limit → Json
  | .unbounded => .text symbol
  | .inclusive v => Json.ofFloat v
  | .exclusive v => Json.ofFloat v

/-- The members of a boundary. -/
def Boundary.members (b : Boundary) : List (String × Json) :=
  [("base_type", .text b.base.name), ("min", b.lower.toJson lowerSymbol),
    ("max", b.upper.toJson upperSymbol), ("min_inclusive", .bool b.lower.isInclusive),
    ("max_inclusive", .bool b.upper.isInclusive)]

mutual

/-- The document of a type. -/
def ValueType.toJson : ValueType → Json
  | .named name => .object [("kind", .text "NamedType"), ("name", .text name)]
  | .enumeration values => .object [("kind", .text "EnumType"), ("values", Json.ofTexts values)]
  | .boundary b => .object (("kind", .text "BoundaryType") :: b.members)
  | .union ms => .object [("kind", .text "UnionType"), ("types", .array (ValueType.allToJson ms))]

/-- The documents of types. -/
def ValueType.allToJson : List ValueType → List Json
  | [] => []
  | t :: rest => t.toJson :: ValueType.allToJson rest

end

/-- A limit by its number or its name. -/
def Limit.ofJson (symbol : String) (isInclusive : Bool) : Json → Reading Limit
  | .text s => if s = symbol then .ok .unbounded else .error (.limitSymbol s)
  | v => do
    let x ← asFloat v
    return if isInclusive then .inclusive x else .exclusive x

/-- The two bases by name. -/
def NumberBase.ofJson : Json → Reading NumberBase :=
  asConstant isNullOrEmpty [("int", .int), ("float", .float)]

/-- The boundary in a record. -/
def Boundary.ofRecord (r : Record) : Reading Boundary := do
  let base ← r.get "base_type" NumberBase.ofJson
  let low ← r.get "min" .ok
  let high ← r.get "max" .ok
  let lowIn ← r.get "min_inclusive" asBool
  let highIn ← r.get "max_inclusive" asBool
  let lower ← Limit.ofJson lowerSymbol lowIn low
  let upper ← Limit.ofJson upperSymbol highIn high
  return ⟨base, lower, upper⟩

/-- A boundary. -/
def Boundary.ofJson : Json → Reading Boundary :=
  asRecord "Boundary" ["base_type", "min", "max", "min_inclusive", "max_inclusive"]
    Boundary.ofRecord

/-- The variants by name. -/
def TypeFamily.documentNames : List (String × TypeFamily) :=
  [("NamedType", .named), ("EnumType", .enumeration), ("BoundaryType", .boundary),
    ("UnionType", .union)]

/-- The variant that a member `kind` names. Inside a union its position does as well. -/
def TypeFamily.ofJson (inside : Bool) : Json → Reading TypeFamily
  | .text s =>
    match TypeFamily.documentNames.find? fun n => n.1 = s with
    | some n => .ok n.2
    | none => .error (.unknownVariant s (TypeFamily.documentNames.map (·.1)))
  | .integer i =>
    match inside, TypeFamily.all.find? fun f => (f.rank : Int) = i with
    | true, some f => .ok f
    | _, _ => .error (.wrongType (.integer i) "the name of a variant")
  | v => .error (.wrongType v "the name of a variant")

/-- The variant of a type's document and the document without it: from an object the members other
than `kind`, from an array the items after the first. -/
def splitKind (inside : Bool) : Json → Reading (TypeFamily × Json)
  | .object members => do
    match repeatedKey? ["kind"] members, lookup "kind" members with
    | some k, _ => .error (.repeatedField k)
    | none, none => .error (.missingField "kind")
    | none, some k =>
      return (← TypeFamily.ofJson inside k, .object (members.filter fun m => m.1 ≠ "kind"))
  | .array [] => .error (.missingField "kind")
  | .array (k :: rest) => do return (← TypeFamily.ofJson inside k, .array rest)
  | v => .error (.wrongType v "a type")

/-- Read a type whose document is nested no deeper than the fuel. -/
def ValueType.ofJsonWithin : Nat → Bool → Json → Reading ValueType
  | 0, _, v => .error (.wrongType v "a type")
  | fuel + 1, inside, v => do
    let (family, payload) ← splitKind inside v
    match family with
    | .named => return .named (← asField "NamedType" "name" asText payload)
    | .enumeration =>
      return .enumeration (SortedSet.ofTexts (← asField "EnumType" "values" asTexts payload))
    | .boundary => return .boundary (← Boundary.ofJson payload)
    | .union =>
      return .union (ValueType.setOf
        (← asField "UnionType" "types" (asList (ValueType.ofJsonWithin fuel true)) payload))

/-- The type that a document describes. -/
def ValueType.ofJson (v : Json) : Reading ValueType :=
  ValueType.ofJsonWithin (v.depth + 1) false v

/-- The type that a text describes. The whole document is looked at, so no part of it may be
unusable or nested too deep. -/
def ValueType.read? (text : String) : Option ValueType := do
  let v ← Json.read? text
  if v.isReadable 0 then (ValueType.ofJson v).toOption else none

/-- A type, or null where there is none. -/
def ValueType.optionToJson : Option ValueType → Json
  | some t => t.toJson
  | none => .null

end ApiEvolution
