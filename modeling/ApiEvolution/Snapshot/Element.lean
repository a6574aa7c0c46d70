import ApiEvolution.Snapshot.Kind
import ApiEvolution.TypeText.Reader

/-!
# Elements of an API

The declarations that make up a snapshot. A class lists the identities of its methods and
attributes, a function those of its parameters and results. Parameters, attributes and results have
a type, which is always the one that their documentation and type hint give: the declarations carry
a proof of that.

`Element` is a declaration of any kind.
-/

namespace ApiEvolution

/-- The part of a text after the last occurrence of a character, or all of it. -/
def afterLast (separator : Char) (text : List Char) : List Char :=
  (text.reverse.takeWhile (· ≠ separator)).reverse

/-- The last segment of an identity or a qualified name: what follows the last slash, and in that
what follows the last point. -/
def simpleName (path : String) : String :=
  String.ofList (afterLast '.' (afterLast '/' path.toList))

/-- A class. -/
structure ClassDecl where
  id : String
  qname : String
  decorators : List String := []
  superclasses : List String := []
  methods : List String := []
  attributes : List String := []
  isPublic : Bool := true
  reexportedBy : List String := []
  description : String := ""
  fullDocstring : String := ""
  code : String := ""
deriving DecidableEq, Repr

/-- The name of a class. -/
def ClassDecl.name (c : ClassDecl) : String :=
  simpleName c.qname

/-- A function or method. -/
structure FunctionDecl where
  id : String
  qname : String
  decorators : List String := []
  parameters : List String := []
  results : List String := []
  isPublic : Bool := true
  reexportedBy : List String := []
  description : String := ""
  fullDocstring : String := ""
  code : String := ""
deriving DecidableEq, Repr

/-- The name of a function. -/
def FunctionDecl.name (f : FunctionDecl) : String :=
  simpleName f.qname

/-- How an argument is bound to a parameter in a call. -/
inductive Assignment where
  | positionOnly
  | positionOrName
  | nameOnly
  | implicit
  | positionalVararg
  | namedVararg
deriving DecidableEq, Repr

/-- What is documented about a parameter. -/
structure ParameterDoc where
  typeText : String := ""
  defaultValue : String := ""
  description : String := ""
deriving DecidableEq, Repr

/-- A parameter. -/
structure ParameterDecl where
  id : String
  qname : String
  defaultValue : Option String := none
  assignedBy : Assignment := .positionOrName
  isPublic : Bool := true
  doc : ParameterDoc := {}
  typeHint : Option String := none
  type : Option ValueType := TypeText.resolve doc.typeText typeHint doc.description
  type_eq : type = TypeText.resolve doc.typeText typeHint doc.description := by rfl

/-- The name of a parameter. -/
def ParameterDecl.name (p : ParameterDecl) : String :=
  simpleName p.id

/-- Whether a call has to supply the parameter. -/
def ParameterDecl.isRequired (p : ParameterDecl) : Bool :=
  p.defaultValue.isNone

/-- What is documented about an attribute or a result. -/
structure MemberDoc where
  typeText : String := ""
  description : String := ""
deriving DecidableEq, Repr

/-- An attribute of a class or a result of a function. -/
structure MemberDecl where
  id : String
  name : String
  doc : MemberDoc := {}
  typeHint : Option String := none
  type : Option ValueType := TypeText.resolve doc.typeText typeHint doc.description
  type_eq : type = TypeText.resolve doc.typeText typeHint doc.description := by rfl

/-- A declaration of any kind. -/
inductive Element where
  | ofClass (decl : ClassDecl)
  | ofFunction (decl : FunctionDecl)
  | ofParameter (decl : ParameterDecl)
  | ofAttribute (decl : MemberDecl)
  | ofResult (decl : MemberDecl)

namespace Element

/-- The identity of an element. -/
def id : Element → String
  | .ofClass c => c.id
  | .ofFunction f => f.id
  | .ofParameter p => p.id
  | .ofAttribute a => a.id
  | .ofResult r => r.id

/-- The name of an element. -/
def name : Element → String
  | .ofClass c => c.name
  | .ofFunction f => f.name
  | .ofParameter p => p.name
  | .ofAttribute a => a.name
  | .ofResult r => r.name

/-- The kind of an element. -/
def kind : Element → ElementKind
  | .ofClass _ => .classKind
  | .ofFunction _ => .functionKind
  | .ofParameter _ => .parameterKind
  | .ofAttribute _ => .attributeKind
  | .ofResult _ => .resultKind

/-- The type of an element, if it is of a kind that has types and one is known. -/
def type : Element → Option ValueType
  | .ofClass _ => none
  | .ofFunction _ => none
  | .ofParameter p => p.type
  | .ofAttribute a => a.type
  | .ofResult r => r.type

/-- The code of an element, if it is of a kind that has code. -/
def code : Element → Option String
  | .ofClass c => some c.code
  | .ofFunction f => some f.code
  | _ => none

end Element

end ApiEvolution
