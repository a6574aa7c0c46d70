import ApiEvolution.Annotation.Ledger
import ApiEvolution.Snapshot.Basic
import ApiEvolution.Usage.Basic

/-!
# Annotations from usage

`generate` proposes annotations for a snapshot: to remove the public classes and functions that
nobody uses, to make public parameters constant that have the same value in all calls, and for other
public parameters the boundary and the enumeration that their type has.
-/

namespace ApiEvolution

/-- Cut a text at each character that is no letter or digit of ASCII; the empty pieces are left out.
-/
def alphanumericParts (text : String) : List (List Char) :=
  ((text.toList.splitBy fun a b => a.isAlphanum = b.isAlphanum).filter fun part =>
    part.all Char.isAlphanum)

/-- The parts of a name, each with a capital first letter, put together. -/
def upperCamelCase (name : String) : String :=
  String.ofList ((alphanumericParts name).flatMap fun
    | [] => []
    | c :: rest => c.toUpper :: rest)

/-- The parts of a value in capitals with underscores between them. A name that would be empty or
start with a digit is replaced or extended. -/
def upperSnakeCase (value : String) : String :=
  let parts := (alphanumericParts value).map fun part => String.ofList (part.map Char.toUpper)
  let name := "_".intercalate parts
  match name.toList with
  | [] => "EMPTY"
  | c :: _ => if c.isDigit then "VALUE_" ++ name else name

/-- The pairs of an enumeration's values and the names of their instances. -/
def enumPairs (values : List String) : List EnumPair :=
  values.map fun v => ⟨v, upperSnakeCase v⟩

/-- The value of a parameter that has only one literal. -/
def onlyValue? : Counts → Option DefaultValue
  | [value] => some (.ofLiteral value.1)
  | _ => none

/-- The only value that a parameter has in the calls of its function, if the function is called and
the parameter is used. -/
def constantValue? (s : Snapshot) (u : UsageCounts) (p : ParameterDecl) :
    Outcome (Option DefaultValue) :=
  match s.parentOf? p.id with
  | none => .ok none
  | some function =>
    let calls := u.functions.get function
    if calls = 0 ∨ u.parameters.get p.id = 0 then .ok none
    else (u.effectiveValues p.id p.defaultValue calls).map onlyValue?

/-- What is proposed for a public parameter with a constant value or without one. -/
def ParameterDecl.payloads (p : ParameterDecl) : Option DefaultValue → List Payload
  | some value => [.constant value]
  | none =>
    let boundary := match p.type.bind ValueType.boundary? with
      | some b => [Payload.boundary (.ofBoundary b)]
      | none => []
    let enumeration := match p.type.bind ValueType.enumeration? with
      | some (v :: vs) => [Payload.enumeration (upperCamelCase p.name) (enumPairs (v :: vs))]
      | _ => []
    boundary ++ enumeration

/-- What is proposed for a parameter. -/
def parameterPayloads (s : Snapshot) (u : UsageCounts) (p : ParameterDecl) :
    Outcome (List Payload) :=
  if p.isPublic then (constantValue? s u p).map p.payloads else .ok []

/-- All proposals in order: for classes, for functions and for parameters. -/
def proposals (s : Snapshot) (u : UsageCounts) (author : String) : Outcome (List Annotation) := do
  let unusedClasses := s.classes.filter fun c => c.isPublic && u.classes.get c.id = 0
  let unusedFunctions := s.functions.filter fun f => f.isPublic && u.functions.get f.id = 0
  let forParameters ← s.parameters.mapM fun p =>
    (parameterPayloads s u p).map fun payloads => payloads.map (.ofPayload p.id author)
  return unusedClasses.map (fun c => .ofPayload c.id author .remove) ++
    unusedFunctions.map (fun f => .ofPayload f.id author .remove) ++ forParameters.flatten

/-- The ledger of the proposals. -/
def generate (s : Snapshot) (u : UsageCounts) (author : String) : Outcome Ledger :=
  (proposals s u author).map Ledger.ofList

/-- The author of generated annotations where none is given. -/
def defaultGenerationAuthor : String := "$autogen$"

end ApiEvolution
