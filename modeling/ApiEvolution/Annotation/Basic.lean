import ApiEvolution.Annotation.Kind
import ApiEvolution.Decimal.Reader
import ApiEvolution.Text.Blank
import ApiEvolution.ValueType.Basic

/-!
# Annotations

An `Annotation` is attached to an element by the element's identity, its target. Besides the target
it says who wrote and reviewed it, carries a comment and the result of the review, and a `Payload`
that depends on its kind.

* `DefaultValue.ofLiteral` classifies a literal as it stands in a call.
* `Annotation.describe` is the text by which review notes refer to an annotation.
* `kind_migrated`, `payload_markUnsure`: carrying an annotation over and marking it for review leave
  what it says alone.
-/

namespace ApiEvolution

/-- The result of a review. -/
inductive ReviewResult where
  | none
  | unsure
deriving DecidableEq, Repr

/-- The default value of a parameter. -/
inductive DefaultValue where
  | text (value : String)
  | number (value : Float)
  | boolean (value : Bool)
  | absent
deriving DecidableEq

namespace DefaultValue

/-- The name of the type of a value. -/
def typeName : DefaultValue → String
  | .text _ => "string"
  | .number _ => "number"
  | .boolean _ => "boolean"
  | .absent => "none"

/-- What stands between two quotes of a kind. -/
def unquote? (q : Char) : List Char → Option (List Char)
  | [] => none
  | c :: rest => if c = q ∧ rest.getLast? = some q then some rest.dropLast else none

/-- The value of a literal: one of the constants, a finite number, or a text with or without quotes.
-/
def ofLiteral (literal : String) : DefaultValue :=
  let trimmed := Text.trim literal.toList
  let word := String.ofList trimmed
  if word = "None" ∨ word = "null" then .absent
  else if word = "True" ∨ word = "true" then .boolean true
  else if word = "False" ∨ word = "false" then .boolean false
  else
    match Decimal.read? trimmed with
    | some x => .number x
    | none => .text (String.ofList
        (((unquote? '"' trimmed).or (unquote? '\'' trimmed)).getD trimmed))

/-- The text of a value. -/
def display : DefaultValue → String
  | .text s => Text.quoted s
  | .number x => Decimal.prose x
  | .boolean b => if b then "true" else "false"
  | .absent => "None"

end DefaultValue

/-- The interval of a boundary annotation. A side that is unbounded keeps the number that it was
given with. -/
structure Interval where
  isDiscrete : Bool
  lowerLimit : Float
  lowerCode : LimitCode
  upperLimit : Float
  upperCode : LimitCode
deriving DecidableEq

namespace Interval

/-- The interval of a documented boundary; it is discrete over the integers. -/
def ofBoundary (b : Boundary) : Interval :=
  ⟨b.base = .int, b.lower.value, b.lower.code, b.upper.value, b.upper.code⟩

/-- The text of an interval. -/
def display (i : Interval) : String :=
  (if i.isDiscrete then "discrete " else "continuous ") ++
    Boundary.openingText (Limit.ofCode i.lowerCode i.lowerLimit) ++ ", " ++
    Boundary.closingText (Limit.ofCode i.upperCode i.upperLimit)

end Interval

/-- A value of an enumeration and the name of the instance that stands for it. -/
structure EnumPair where
  value : String
  instanceName : String
deriving DecidableEq, Repr

/-- What an annotation says, by kind. -/
inductive Payload where
  | remove
  | required
  | optional (default : DefaultValue)
  | constant (default : DefaultValue)
  | boundary (interval : Interval)
  | enumeration (name : String) (pairs : List EnumPair)
  | move (destination : String)
  | rename (newName : String)
  | description (newDescription : String)
  | todo (newTodo : String)
  | group (name : String) (parameters : List String)
  | calledAfter (name : String)
  | expert
deriving DecidableEq

/-- The kind of a payload. -/
def Payload.kind : Payload → AnnotationKind
  | .remove => .remove
  | .required => .required
  | .optional _ => .optional
  | .constant _ => .constant
  | .boundary _ => .boundary
  | .enumeration _ _ => .enumeration
  | .move _ => .move
  | .rename _ => .rename
  | .description _ => .description
  | .todo _ => .todo
  | .group _ _ => .group
  | .calledAfter _ => .calledAfter
  | .expert => .expert

/-- An annotation. -/
structure Annotation where
  target : String
  authors : List String
  reviewers : List String
  comment : String
  review : ReviewResult
  payload : Payload
deriving DecidableEq

namespace Annotation

/-- The kind of an annotation. -/
def kind (a : Annotation) : AnnotationKind :=
  a.payload.kind

/-- A fresh annotation by one author, neither commented nor reviewed. -/
def ofPayload (target author : String) (payload : Payload) : Annotation :=
  ⟨target, [author], [], "", .none, payload⟩

/-- Whether two annotations exclude each other. -/
def conflicts (a b : Annotation) : Bool :=
  a.target = b.target && a.kind.conflicts b.kind

/-- The annotation on another target, with one more author. -/
def migrated (a : Annotation) (target author : String) : Annotation :=
  { a with target := target, authors := a.authors ++ [author] }

/-- The annotation as one that needs review, with an explanation in place of its comment. -/
def markUnsure (a : Annotation) (comment : String) : Annotation :=
  { a with review := .unsure, comment := comment }

/-- Texts with commas between them. -/
def commaList (texts : List String) : String :=
  ", ".intercalate texts

/-- A short text of what an annotation says. -/
def describe (a : Annotation) : String :=
  match a.payload with
  | .remove | .required | .expert => "@" ++ a.kind.name
  | .optional default | .constant default =>
    "@" ++ a.kind.name ++ " with the default value " ++ default.display
  | .boundary interval => "@Boundary with the interval " ++ interval.display
  | .enumeration name pairs =>
    "@Enum " ++ name ++ " (" ++
      commaList (pairs.map fun p => p.instanceName ++ "=" ++ Text.quoted p.value) ++ ")"
  | .move destination => "@Move with the destination " ++ Text.quoted destination
  | .rename newName => "@Rename with the new name " ++ Text.quoted newName
  | .description text => "@Description " ++ Text.quoted text
  | .todo text => "@Todo " ++ Text.quoted text
  | .group name parameters => "@Group " ++ name ++ " (" ++ commaList parameters ++ ")"
  | .calledAfter name => "@CalledAfter " ++ Text.quoted name

@[simp] theorem kind_migrated (a : Annotation) (target author : String) :
    (a.migrated target author).kind = a.kind := rfl

@[simp] theorem target_migrated (a : Annotation) (target author : String) :
    (a.migrated target author).target = target := rfl

@[simp] theorem kind_markUnsure (a : Annotation) (comment : String) :
    (a.markUnsure comment).kind = a.kind := rfl

@[simp] theorem target_markUnsure (a : Annotation) (comment : String) :
    (a.markUnsure comment).target = a.target := rfl

@[simp] theorem payload_markUnsure (a : Annotation) (comment : String) :
    (a.markUnsure comment).payload = a.payload := rfl

end Annotation

end ApiEvolution
