import ApiEvolution.Annotation.Basic
import ApiEvolution.Json.Record

/-!
# The fields of an annotation

In a store an annotation is an object that has the common fields and those of its kind side by side,
sorted by key; the kind itself is known from where the object stands. `Annotation.ofFields` reads
what `Annotation.fields` writes. The common fields are read before those of the kind.
-/

namespace ApiEvolution

open Json

/-- The name of a review's result in documents. -/
def ReviewResult.text : ReviewResult → String
  | .none => ""
  | .unsure => "unsure"

/-- The value of a default as documents give it. -/
def DefaultValue.json : DefaultValue → Json
  | .text s => .text s
  | .number x => Json.ofFloat x
  | .boolean b => .bool b
  | .absent => .null

/-- The two fields of a default value. -/
def DefaultValue.members (d : DefaultValue) : List (String × Json) :=
  [("defaultType", .text d.typeName), ("defaultValue", d.json)]

/-- The document of an interval. -/
def Interval.toJson (i : Interval) : Json :=
  .object [("isDiscrete", .bool i.isDiscrete), ("lowerIntervalLimit", Json.ofFloat i.lowerLimit),
    ("lowerLimitType", .integer i.lowerCode.toNat),
    ("upperIntervalLimit", Json.ofFloat i.upperLimit),
    ("upperLimitType", .integer i.upperCode.toNat)]

/-- The document of a pair, sorted by key. -/
def EnumPair.toJson (p : EnumPair) : Json :=
  .object [("instanceName", .text p.instanceName), ("stringValue", .text p.value)]

/-- The fields of a payload. -/
def Payload.members : Payload → List (String × Json)
  | .remove | .required | .expert => []
  | .optional d | .constant d => d.members
  | .boundary i => [("interval", i.toJson)]
  | .enumeration name pairs =>
    [("enumName", .text name), ("pairs", .array (pairs.map EnumPair.toJson))]
  | .move destination => [("destination", .text destination)]
  | .rename newName => [("newName", .text newName)]
  | .description newDescription => [("newDescription", .text newDescription)]
  | .todo newTodo => [("newTodo", .text newTodo)]
  | .group name parameters => [("groupName", .text name), ("parameters", Json.ofTexts parameters)]
  | .calledAfter name => [("calledAfterName", .text name)]

/-- All fields of an annotation, sorted by key. -/
def Annotation.fields (a : Annotation) : Json :=
  sortedObject ([("target", .text a.target), ("authors", Json.ofTexts a.authors),
    ("reviewers", Json.ofTexts a.reviewers), ("comment", .text a.comment),
    ("reviewResult", .text a.review.text)] ++ a.payload.members)

/-! ## Reading -/

/-- The result of a review by name. -/
def ReviewResult.ofJson : Json → Reading ReviewResult :=
  asConstant isNull [("", .none), ("unsure", .unsure)]

/-- The default value in a record, whose value has to be of the declared type. -/
def DefaultValue.ofRecord (r : Record) : Reading DefaultValue := do
  let declared ← r.get "defaultType" asText
  let value ← r.getD "defaultValue" .ok .null
  match declared, value with
  | "string", .text s => return .text s
  | "number", .integer i => return .number (Float.ofInt i)
  | "number", .real x => return .number x
  | "boolean", .bool b => return .boolean b
  | "none", _ => return .absent
  | _, _ => throw (.defaultValue value declared)

/-- A default value. -/
def DefaultValue.ofFields : Json → Reading DefaultValue :=
  asRecord "DefaultValue" ["defaultType", "defaultValue"] DefaultValue.ofRecord

/-- The kind of a limit by its number. -/
def LimitCode.ofJson (v : Json) : Reading LimitCode := do
  let n ← asByte v
  match LimitCode.ofNat? n with
  | some c => return c
  | none => throw (.limitCode n)

/-- The interval in a record. -/
def Interval.ofRecord (r : Record) : Reading Interval := do
  let isDiscrete ← r.get? "isDiscrete" asBool
  let lowerLimit ← r.get? "lowerIntervalLimit" asFloat
  let lowerCode ← r.get? "lowerLimitType" LimitCode.ofJson
  let upperLimit ← r.get? "upperIntervalLimit" asFloat
  let upperCode ← r.get? "upperLimitType" LimitCode.ofJson
  return {
    isDiscrete := ← r.need "isDiscrete" isDiscrete
    lowerLimit := ← r.need "lowerIntervalLimit" lowerLimit
    lowerCode := ← r.need "lowerLimitType" lowerCode
    upperLimit := ← r.need "upperIntervalLimit" upperLimit
    upperCode := ← r.need "upperLimitType" upperCode }

/-- An interval. -/
def Interval.ofJson : Json → Reading Interval :=
  asRecord "Interval" ["isDiscrete", "lowerIntervalLimit", "lowerLimitType", "upperIntervalLimit",
    "upperLimitType"] Interval.ofRecord

/-- The pair in a record. Its two fields stand the other way round in an array than sorted by key.
-/
def EnumPair.ofRecord (r : Record) : Reading EnumPair := do
  if r.named then
    let instanceName ← r.get? "instanceName" asText
    let value ← r.get "stringValue" asText
    return ⟨value, ← r.need "instanceName" instanceName⟩
  else
    let value ← r.get "stringValue" asText
    return ⟨value, ← r.get "instanceName" asText⟩

/-- A value and its instance name. -/
def EnumPair.ofJson : Json → Reading EnumPair :=
  asRecord "EnumPair" ["stringValue", "instanceName"] EnumPair.ofRecord

/-- The enumeration in a record. -/
def Payload.enumerationOfRecord (r : Record) : Reading Payload := do
  let name ← r.get? "enumName" asText
  let pairs ← r.getD "pairs" (asList EnumPair.ofJson) []
  return .enumeration (← r.need "enumName" name) pairs

/-- The group in a record. -/
def Payload.groupOfRecord (r : Record) : Reading Payload := do
  let name ← r.get? "groupName" asText
  let parameters ← r.getD "parameters" asTexts []
  return .group (← r.need "groupName" name) parameters

/-- The payload of a kind. -/
def Payload.ofFields (v : Json) : AnnotationKind → Reading Payload
  | .remove => return .remove
  | .required => return .required
  | .expert => return .expert
  | .optional => return .optional (← DefaultValue.ofFields v)
  | .constant => return .constant (← DefaultValue.ofFields v)
  | .boundary => return .boundary (← asField "Boundary" "interval" Interval.ofJson v)
  | .enumeration => asRecord "Enum" ["enumName", "pairs"] Payload.enumerationOfRecord v
  | .move => return .move (← asField "Move" "destination" asText v)
  | .rename => return .rename (← asField "Rename" "newName" asText v)
  | .description =>
    return .description (← asField "Description" "newDescription" asText v)
  | .todo => return .todo (← asField "Todo" "newTodo" asText v)
  | .group => asRecord "Group" ["groupName", "parameters"] Payload.groupOfRecord v
  | .calledAfter =>
    return .calledAfter (← asField "CalledAfter" "calledAfterName" asText v)

/-- The common fields in a record, as an annotation for any payload. -/
def Annotation.ofRecord (r : Record) : Reading (Payload → Annotation) := do
  let authors ← r.getD "authors" asTexts []
  let comment ← r.getD "comment" asText ""
  let review ← r.getD "reviewResult" ReviewResult.ofJson .none
  let reviewers ← r.getD "reviewers" asTexts []
  let target ← r.get "target" asText
  return fun payload => ⟨target, authors, reviewers, comment, review, payload⟩

/-- The annotation of a kind that has the given fields. -/
def Annotation.ofFields (kind : AnnotationKind) (v : Json) : Reading Annotation := do
  let annotate ← asRecord "Annotation"
    ["target", "authors", "reviewers", "comment", "reviewResult"] Annotation.ofRecord v
  return annotate (← Payload.ofFields v kind)

end ApiEvolution
