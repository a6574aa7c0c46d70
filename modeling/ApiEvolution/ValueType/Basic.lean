import ApiEvolution.Decimal.Layout
import ApiEvolution.SortedSet
import ApiEvolution.Text.Quoted

/-!
# Types of parameters, attributes and results

A `ValueType` is a name, an enumeration of texts, a numeric boundary, or a union of these. The texts
of an enumeration and the members of a union are sets, kept sorted by the order of
`ValueType.compare`.

Main definitions:

* `Limit` is one side of a boundary: unbounded, or a number that belongs to the range or not.
* `ValueType.compare` is the order of types: by variant, and then by what the variant holds.
* `ValueType.union?` joins types into one, without unions inside unions and without repetition.
* `ValueType.display` is the text of a type.
-/

namespace ApiEvolution

/-- How a limit bounds a range. -/
inductive LimitCode where
  | inclusive
  | exclusive
  | unbounded
deriving DecidableEq, Repr

/-- The number by which documents give the code. -/
def LimitCode.toNat : LimitCode → Nat
  | .inclusive => 0
  | .exclusive => 1
  | .unbounded => 2

/-- The code that a number stands for. -/
def LimitCode.ofNat? : Nat → Option LimitCode
  | 0 => some .inclusive
  | 1 => some .exclusive
  | 2 => some .unbounded
  | _ => none

/-- Reading a code back. -/
theorem LimitCode.ofNat?_toNat (c : LimitCode) : LimitCode.ofNat? c.toNat = some c := by
  cases c <;> rfl

/-- The numbers over which a boundary ranges. -/
inductive NumberBase where
  | int
  | float
deriving DecidableEq, Repr

/-- The name of a base. -/
def NumberBase.name : NumberBase → String
  | .int => "int"
  | .float => "float"

/-- The position of a base among the two. -/
def NumberBase.rank : NumberBase → Nat
  | .int => 0
  | .float => 1

/-- One side of a numeric range. -/
inductive Limit where
  | unbounded
  | inclusive (value : Float)
  | exclusive (value : Float)
deriving DecidableEq

namespace Limit

/-- The number of a limit; an unbounded side has the number 0 in its place. -/
def value : Limit → Float
  | .unbounded => 0
  | .inclusive v => v
  | .exclusive v => v

/-- How the limit bounds the range. -/
def code : Limit → LimitCode
  | .unbounded => .unbounded
  | .inclusive _ => .inclusive
  | .exclusive _ => .exclusive

/-- The limit with a code and a number, which an unbounded side ignores. -/
def ofCode : LimitCode → Float → Limit
  | .inclusive, v => .inclusive v
  | .exclusive, v => .exclusive v
  | .unbounded, _ => .unbounded

/-- Whether the limit itself belongs to the range. -/
def isInclusive : Limit → Bool
  | .inclusive _ => true
  | _ => false

/-- Whether there is no limit. -/
def isUnbounded : Limit → Bool
  | .unbounded => true
  | _ => false

/-- Limits in order of their codes, and by number within a code. -/
def compare (a b : Limit) : Ordering :=
  (Ord.compare a.code.toNat b.code.toNat).then (Decimal.compareFloat a.value b.value)

theorem ofCode_code (a : Limit) : ofCode a.code a.value = a := by
  cases a <;> rfl

end Limit

/-- A range of numbers. -/
structure Boundary where
  base : NumberBase
  lower : Limit
  upper : Limit
deriving DecidableEq

namespace Boundary

/-- Boundaries by base, then by lower and by upper limit. -/
def compare (a b : Boundary) : Ordering :=
  (Ord.compare a.base.rank b.base.rank).then
    ((Limit.compare a.lower b.lower).then (Limit.compare a.upper b.upper))

/-- The lower limit as it opens an interval. -/
def openingText : Limit → String
  | .unbounded => "(-inf"
  | .inclusive v => "[" ++ Decimal.prose v
  | .exclusive v => "(" ++ Decimal.prose v

/-- The upper limit as it closes an interval. -/
def closingText : Limit → String
  | .unbounded => "inf)"
  | .inclusive v => Decimal.prose v ++ "]"
  | .exclusive v => Decimal.prose v ++ ")"

/-- The text of a boundary. -/
def display (b : Boundary) : String :=
  b.base.name ++ " in " ++ openingText b.lower ++ ", " ++ closingText b.upper

end Boundary

/-- A structured type. -/
inductive ValueType where
  | named (name : String)
  | enumeration (values : List String)
  | boundary (range : Boundary)
  | union (members : List ValueType)
deriving Inhabited

/-- The variant of a type, without what it holds. -/
inductive TypeFamily where
  | named
  | enumeration
  | boundary
  | union
deriving DecidableEq, Repr

namespace TypeFamily

/-- The families in the order of their types. -/
def all : List TypeFamily :=
  [.named, .enumeration, .boundary, .union]

/-- The name of a family. -/
def name : TypeFamily → String
  | .named => "Named"
  | .enumeration => "Enum"
  | .boundary => "Boundary"
  | .union => "Union"

/-- The position of a family among all. -/
def rank : TypeFamily → Nat
  | .named => 0
  | .enumeration => 1
  | .boundary => 2
  | .union => 3

end TypeFamily

namespace ValueType

/-- The variant of a type. -/
def family : ValueType → TypeFamily
  | .named _ => .named
  | .enumeration _ => .enumeration
  | .boundary _ => .boundary
  | .union _ => .union

/-- Lists of texts, the first difference deciding and a shorter list coming before its extensions.
-/
def compareTexts : List String → List String → Ordering
  | [], [] => .eq
  | [], _ :: _ => .lt
  | _ :: _, [] => .gt
  | a :: as, b :: bs => (Ord.compare a b).then (compareTexts as bs)

mutual

/-- The order of types: by family, and within a family by what the type holds. -/
def compare : ValueType → ValueType → Ordering
  | .named a, .named b => Ord.compare a b
  | .enumeration a, .enumeration b => compareTexts a b
  | .boundary a, .boundary b => Boundary.compare a b
  | .union a, .union b => compareMembers a b
  | a, b => Ord.compare a.family.rank b.family.rank

/-- Lists of types, the first difference deciding. -/
def compareMembers : List ValueType → List ValueType → Ordering
  | [], [] => .eq
  | [], _ :: _ => .lt
  | _ :: _, [] => .gt
  | a :: as, b :: bs => (compare a b).then (compareMembers as bs)

end

/-- The set of the types in a list. -/
def setOf (types : List ValueType) : List ValueType :=
  SortedSet.ofList compare types

/-- The members of a type seen as a set: a union has its own, any other type is its only member. -/
def members : ValueType → List ValueType
  | .union ms => ms
  | t => [t]

/-- The union of types: their members as one set, which stands for itself if it has a single
element. -/
def union? (types : List ValueType) : Option ValueType :=
  match setOf (types.flatMap members) with
  | [] => none
  | [t] => some t
  | ts => some (.union ts)

/-- Whether a type or a member of it is of a family. -/
def containsFamily (t : ValueType) (f : TypeFamily) : Bool :=
  t.members.any fun m => m.family = f

/-- The first boundary among the members. -/
def boundary? (t : ValueType) : Option Boundary :=
  t.members.findSome? fun
    | .boundary b => some b
    | _ => none

/-- The first enumeration among the members. -/
def enumeration? (t : ValueType) : Option (List String) :=
  t.members.findSome? fun
    | .enumeration vs => some vs
    | _ => none

/-- An enumeration as it is written, the values quoted and between braces. -/
def displayValues (values : List String) : String :=
  "\x7b" ++ ", ".intercalate (values.map Text.quoted) ++ "\x7d"

mutual

/-- The text of a type. -/
def display : ValueType → String
  | .named name => name
  | .enumeration values => displayValues values
  | .boundary b => b.display
  | .union ms => " or ".intercalate (displayMembers ms)

/-- The texts of types. -/
def displayMembers : List ValueType → List String
  | [] => []
  | t :: rest => display t :: displayMembers rest

end

end ValueType

end ApiEvolution
