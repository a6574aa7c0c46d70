/-!
# Kinds of annotations

The kinds in the order in which stores list them. The first four say how the value of a parameter is
supplied, so a target has at most one of them; of every other kind it has at most one as well.

* `conflicts_symm`, `conflicts_self`: conflicting is symmetric, and every kind conflicts with
  itself.
-/

namespace ApiEvolution

/-- The kind of an annotation. -/
inductive AnnotationKind where
  | remove
  | required
  | optional
  | constant
  | boundary
  | enumeration
  | move
  | rename
  | description
  | todo
  | group
  | calledAfter
  | expert
deriving DecidableEq, Repr

namespace AnnotationKind

/-- The kinds in the order of stores. -/
def all : List AnnotationKind :=
  [.remove, .required, .optional, .constant, .boundary, .enumeration, .move, .rename, .description,
    .todo, .group, .calledAfter, .expert]

/-- The name of a kind. -/
def name : AnnotationKind → String
  | .remove => "Remove"
  | .required => "Required"
  | .optional => "Optional"
  | .constant => "Constant"
  | .boundary => "Boundary"
  | .enumeration => "Enum"
  | .move => "Move"
  | .rename => "Rename"
  | .description => "Description"
  | .todo => "Todo"
  | .group => "Group"
  | .calledAfter => "CalledAfter"
  | .expert => "Expert"

/-- The key under which documents list the annotations of a kind. -/
def storeKey : AnnotationKind → String
  | .remove => "removeAnnotations"
  | .required => "requiredAnnotations"
  | .optional => "optionalAnnotations"
  | .constant => "constantAnnotations"
  | .boundary => "boundaryAnnotations"
  | .enumeration => "enumAnnotations"
  | .move => "moveAnnotations"
  | .rename => "renameAnnotations"
  | .description => "descriptionAnnotations"
  | .todo => "todoAnnotations"
  | .group => "groupAnnotations"
  | .calledAfter => "calledAfterAnnotations"
  | .expert => "expertAnnotations"

/-- The kind with a name. -/
def ofName? (name : String) : Option AnnotationKind :=
  all.find? fun k => k.name = name

/-- The kind that documents list under a key. -/
def ofStoreKey? (key : String) : Option AnnotationKind :=
  all.find? fun k => k.storeKey = key

/-- Whether annotations of the kind say how the value of a parameter is supplied. -/
def suppliesValue : AnnotationKind → Bool
  | .remove | .required | .optional | .constant => true
  | _ => false

/-- Whether annotations of the two kinds on one target exclude each other. -/
def conflicts (a b : AnnotationKind) : Bool :=
  a = b || (a.suppliesValue && b.suppliesValue)

theorem mem_all (k : AnnotationKind) : k ∈ all := by
  cases k <;> decide

theorem ofStoreKey?_storeKey (k : AnnotationKind) : ofStoreKey? k.storeKey = some k := by
  cases k <;> decide

theorem conflicts_self (a : AnnotationKind) : a.conflicts a = true := by
  simp [conflicts]

theorem conflicts_symm (a b : AnnotationKind) : a.conflicts b = b.conflicts a := by
  cases a <;> cases b <;> rfl

end AnnotationKind

end ApiEvolution
