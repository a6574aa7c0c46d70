import ApiEvolution.Error
import ApiEvolution.Json.Reader
import ApiEvolution.Snapshot.Basic
import ApiEvolution.ValueType.Document

/-!
# Snapshot documents

A document has the header of a snapshot and, for each kind, the records of the declarations in
order. A record's type is written but never read, as it follows from the rest of the record.

A document is refused if two of its elements have one identity, whatever their kinds, or if a
container lists an identity that is not declared with the right kind.
-/

namespace ApiEvolution

open Json

/-! ## Writing -/

/-- The names of the ways to bind an argument. -/
def Assignment.byName : List (String × Assignment) :=
  [("POSITION_ONLY", .positionOnly), ("POSITION_OR_NAME", .positionOrName),
    ("NAME_ONLY", .nameOnly), ("IMPLICIT", .implicit), ("POSITIONAL_VARARG", .positionalVararg),
    ("NAMED_VARARG", .namedVararg)]

/-- The name of a way to bind an argument. -/
def Assignment.name : Assignment → String
  | .positionOnly => "POSITION_ONLY"
  | .positionOrName => "POSITION_OR_NAME"
  | .nameOnly => "NAME_ONLY"
  | .implicit => "IMPLICIT"
  | .positionalVararg => "POSITIONAL_VARARG"
  | .namedVararg => "NAMED_VARARG"

/-- A text, or null where there is none. -/
def optionalText : Option String → Json
  | some s => .text s
  | none => .null

/-- The members of a class's record. -/
def ClassDecl.members (c : ClassDecl) : List (String × Json) :=
  [("id", .text c.id), ("qname", .text c.qname), ("decorators", Json.ofTexts c.decorators),
    ("superclasses", Json.ofTexts c.superclasses), ("methods", Json.ofTexts c.methods),
    ("attributes", Json.ofTexts c.attributes), ("is_public", .bool c.isPublic),
    ("reexported_by", Json.ofTexts c.reexportedBy), ("description", .text c.description),
    ("full_docstring", .text c.fullDocstring), ("code", .text c.code)]

/-- The members of a function's record. -/
def FunctionDecl.members (f : FunctionDecl) : List (String × Json) :=
  [("id", .text f.id), ("qname", .text f.qname), ("decorators", Json.ofTexts f.decorators),
    ("parameters", Json.ofTexts f.parameters), ("results", Json.ofTexts f.results),
    ("is_public", .bool f.isPublic), ("reexported_by", Json.ofTexts f.reexportedBy),
    ("description", .text f.description), ("full_docstring", .text f.fullDocstring),
    ("code", .text f.code)]

/-- The documentation of a parameter. -/
def ParameterDoc.toJson (d : ParameterDoc) : Json :=
  .object [("type", .text d.typeText), ("default_value", .text d.defaultValue),
    ("description", .text d.description)]

/-- The members of a parameter's record. -/
def ParameterDecl.members (p : ParameterDecl) : List (String × Json) :=
  [("id", .text p.id), ("qname", .text p.qname), ("default_value", optionalText p.defaultValue),
    ("assigned_by", .text p.assignedBy.name), ("is_public", .bool p.isPublic),
    ("docstring", p.doc.toJson), ("type_hint", optionalText p.typeHint),
    ("type", ValueType.optionToJson p.type)]

/-- The documentation of an attribute or a result. -/
def MemberDoc.toJson (d : MemberDoc) : Json :=
  .object [("type", .text d.typeText), ("description", .text d.description)]

/-- The members of an attribute's or a result's record. -/
def MemberDecl.members (m : MemberDecl) : List (String × Json) :=
  [("id", .text m.id), ("name", .text m.name), ("docstring", m.doc.toJson),
    ("type_hint", optionalText m.typeHint), ("type", ValueType.optionToJson m.type)]

/-- The members of an element's record. -/
def Element.members : Element → List (String × Json)
  | .ofClass c => c.members
  | .ofFunction f => f.members
  | .ofParameter p => p.members
  | .ofAttribute a => a.members
  | .ofResult r => r.members

/-- The key under which a document lists the elements of a kind. -/
def ElementKind.documentKey : ElementKind → String
  | .classKind => "classes"
  | .functionKind => "functions"
  | .parameterKind => "parameters"
  | .attributeKind => "attributes"
  | .resultKind => "results"

namespace Snapshot

/-- The document of a snapshot. -/
def toJson (s : Snapshot) : Json :=
  .object ([("distribution", .text s.distribution), ("package", .text s.package),
    ("version", .text s.version)] ++
    ElementKind.all.map fun k =>
      (k.documentKey, .array ((s.elements k).map fun e => .object e.members)))

/-- The text of a snapshot's document. -/
def write (s : Snapshot) : String :=
  s.toJson.pretty

end Snapshot

/-! ## Reading -/

/-- The record of a class. -/
def ClassDecl.ofJson : Json → Reading ClassDecl :=
  asRecord "Class" ["id", "qname", "decorators", "superclasses", "methods", "attributes",
    "is_public", "reexported_by", "description", "full_docstring", "code"] fun r => return {
    id := ← r.get "id" asText
    qname := ← r.get "qname" asText
    decorators := ← r.getD "decorators" asTexts []
    superclasses := ← r.getD "superclasses" asTexts []
    methods := ← r.getD "methods" asTexts []
    attributes := ← r.getD "attributes" asTexts []
    isPublic := ← r.getD "is_public" asBool true
    reexportedBy := ← r.getD "reexported_by" asTexts []
    description := ← r.getD "description" asText ""
    fullDocstring := ← r.getD "full_docstring" asText ""
    code := ← r.getD "code" asText "" }

/-- The record of a function. -/
def FunctionDecl.ofJson : Json → Reading FunctionDecl :=
  asRecord "Function" ["id", "qname", "decorators", "parameters", "results", "is_public",
    "reexported_by", "description", "full_docstring", "code"] fun r => return {
    id := ← r.get "id" asText
    qname := ← r.get "qname" asText
    decorators := ← r.getD "decorators" asTexts []
    parameters := ← r.getD "parameters" asTexts []
    results := ← r.getD "results" asTexts []
    isPublic := ← r.getD "is_public" asBool true
    reexportedBy := ← r.getD "reexported_by" asTexts []
    description := ← r.getD "description" asText ""
    fullDocstring := ← r.getD "full_docstring" asText ""
    code := ← r.getD "code" asText "" }

/-- The documentation in a parameter's record. -/
def ParameterDoc.ofJson : Json → Reading ParameterDoc :=
  asRecord "ParameterDoc" ["type", "default_value", "description"] fun r => return {
    typeText := ← r.getD "type" asText ""
    defaultValue := ← r.getD "default_value" asText ""
    description := ← r.getD "description" asText "" }

/-- The record of a parameter. -/
def ParameterDecl.ofJson : Json → Reading ParameterDecl :=
  asRecord "Parameter" ["id", "qname", "default_value", "assigned_by", "is_public", "docstring",
    "type_hint"] fun r => return {
    id := ← r.get "id" asText
    qname := ← r.get "qname" asText
    defaultValue := ← r.getOption "default_value" asText
    assignedBy := ← r.getD "assigned_by" (asConstant isNull Assignment.byName) .positionOrName
    isPublic := ← r.getD "is_public" asBool true
    doc := ← r.getD "docstring" ParameterDoc.ofJson {}
    typeHint := ← r.getOption "type_hint" asText }

/-- The documentation in an attribute's or a result's record. -/
def MemberDoc.ofJson : Json → Reading MemberDoc :=
  asRecord "MemberDoc" ["type", "description"] fun r => return {
    typeText := ← r.getD "type" asText ""
    description := ← r.getD "description" asText "" }

/-- The record of an attribute or a result. -/
def MemberDecl.ofJson (shape : String) : Json → Reading MemberDecl :=
  asRecord shape ["id", "name", "docstring", "type_hint"] fun r => return {
    id := ← r.get "id" asText
    name := ← r.get "name" asText
    doc := ← r.getD "docstring" MemberDoc.ofJson {}
    typeHint := ← r.getOption "type_hint" asText }

/-- The record of an element of a kind. -/
def Element.ofJson : ElementKind → Json → Reading Element
  | .classKind, v => return .ofClass (← ClassDecl.ofJson v)
  | .functionKind, v => return .ofFunction (← FunctionDecl.ofJson v)
  | .parameterKind, v => return .ofParameter (← ParameterDecl.ofJson v)
  | .attributeKind, v => return .ofAttribute (← MemberDecl.ofJson "Attribute" v)
  | .resultKind, v => return .ofResult (← MemberDecl.ofJson "Result" v)

namespace Snapshot

/-- A document as it is read: the header and the elements of all kinds, kind by kind. -/
structure Outline where
  distribution : String
  package : String
  version : String
  elements : List Element

/-- The outline in a record. -/
def Outline.ofRecord (r : Record) : Reading Outline := do
  let distribution ← r.get "distribution" asText
  let package ← r.get "package" asText
  let version ← r.get "version" asText
  let groups ← ElementKind.all.mapM fun k => r.getD k.documentKey (asList (Element.ofJson k)) []
  return ⟨distribution, package, version, groups.flatten⟩

/-- The outline that a JSON value describes. -/
def Outline.ofJson : Json → Reading Outline :=
  asRecord "Snapshot" (["distribution", "package", "version"] ++
    ElementKind.all.map ElementKind.documentKey) Outline.ofRecord

/-- The first identity that occurs a second time, given those that have occurred. -/
def firstRepeated? (seen : List String) : List String → Option String
  | [] => none
  | id :: rest => if id ∈ seen then some id else firstRepeated? (id :: seen) rest

/-- The snapshot that has the header and the elements of an outline. -/
def ofOutline (o : Outline) : Snapshot :=
  o.elements.foldl add
    { distribution := o.distribution, package := o.package, version := o.version }

/-- The kinds of elements that a container of a kind lists. -/
def listedKinds : ElementKind → List ElementKind
  | .classKind => [.functionKind, .attributeKind]
  | .functionKind => [.parameterKind, .resultKind]
  | _ => []

/-- Everything that is listed, class by class and then function by function: the container, the kind
and the identity. -/
def listings (s : Snapshot) : List (String × ElementKind × String) :=
  ((s.classes.map fun c => (c.id, ElementKind.classKind)) ++
    s.functions.map fun f => (f.id, ElementKind.functionKind)).flatMap fun c =>
    (listedKinds c.2).flatMap fun k => (s.children c.1 k).map fun child => (c.1, k, child)

/-- Whether an identity is declared with a kind. -/
def declares (s : Snapshot) (kind : ElementKind) (id : String) : Bool :=
  (s.element? id).any fun e => e.kind = kind

/-- The snapshot of an outline, if the identities are distinct and all that is listed is declared.
-/
def ofOutline? (o : Outline) : Outcome Snapshot :=
  match firstRepeated? [] (o.elements.map Element.id) with
  | some id => .error (.invalidDocument (.repeatedIdentity id))
  | none =>
    let s := ofOutline o
    match s.listings.find? fun l => !s.declares l.2.1 l.2.2 with
    | some l => .error (.invalidDocument (.undeclaredChild l.1 l.2.1 l.2.2))
    | none => .ok s

/-- The snapshot that a JSON value describes. -/
def ofJson (v : Json) : Outcome Snapshot := do
  ofOutline? (← Outcome.ofReading (Outline.ofJson v))

/-- The snapshot that a text describes. -/
def read (text : String) : Outcome Snapshot :=
  match Json.read? text with
  | some v => ofJson v
  | none => .error .malformed

end Snapshot

/-- The element of a kind that a text describes. -/
def Element.read (kind : ElementKind) (text : String) : Outcome Element :=
  match Json.read? text with
  | some v => Outcome.ofReading (Element.ofJson kind v)
  | none => .error .malformed

end ApiEvolution
