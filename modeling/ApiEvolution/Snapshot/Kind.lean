/-!
# Kinds of elements

The elements of a snapshot come in five kinds. Classes and functions are containers; the other three
are only found inside them.
-/

namespace ApiEvolution

/-- The kind of an element. -/
inductive ElementKind where
  | classKind
  | functionKind
  | parameterKind
  | attributeKind
  | resultKind
deriving DecidableEq, Repr

namespace ElementKind

/-- The kinds in the order in which they are listed. -/
def all : List ElementKind :=
  [.classKind, .functionKind, .parameterKind, .attributeKind, .resultKind]

/-- The name of a kind. -/
def name : ElementKind → String
  | .classKind => "class"
  | .functionKind => "function"
  | .parameterKind => "parameter"
  | .attributeKind => "attribute"
  | .resultKind => "result"

/-- The names of the kinds, each with its kind. -/
def byName : List (String × ElementKind) :=
  all.map fun k => (k.name, k)

/-- The kind with a name. -/
def ofName? (name : String) : Option ElementKind :=
  all.find? fun k => k.name = name

theorem mem_all (k : ElementKind) : k ∈ all := by
  cases k <;> decide

theorem ofName?_name (k : ElementKind) : ofName? k.name = some k := by
  cases k <;> decide

end ElementKind

end ApiEvolution
