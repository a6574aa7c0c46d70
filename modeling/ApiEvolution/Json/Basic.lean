import ApiEvolution.Decimal.Layout

/-!
# JSON values

Documents are read into `Json`, in which objects keep all their members in the order of the text, a
repeated key included. A value that is well formed but has no meaning (a number beyond the greatest
double, a text with an unpaired surrogate, an object with such a key) is `unusable`; it does no harm
where nobody asks for it.

Main definitions:

* `Json.canonical` is the value with every object's members sorted by key, the last of equal keys
  kept.
* `Json.isUsable` and `Json.depth` bound what a reader of arbitrary values accepts.
* `Json.compact` and `Json.pretty` are the two printed forms.
-/

namespace ApiEvolution

/-- A JSON value. Integers are those of 64 bits, with or without a sign; all other numbers are
doubles. -/
inductive Json where
  | null
  | bool (value : Bool)
  | integer (value : Int)
  | real (value : Float)
  | text (value : String)
  | array (items : List Json)
  | object (members : List (String × Json))
  | unusable
deriving Inhabited

namespace Json

/-- A double as a value; one that is not finite has no number in JSON and becomes null. -/
def ofFloat (x : Float) : Json :=
  if x.isFinite then .real x else .null

/-- Texts as an array. -/
def ofTexts (texts : List String) : Json :=
  .array (texts.map .text)

/-- The first member with a given key. -/
def lookup (key : String) (members : List (String × Json)) : Option Json :=
  (members.find? fun m => m.1 = key).map (·.2)

/-- Replace the value of a key that is there, or else put the pair at the end. -/
def put {α : Type} (key : String) (value : α) : List (String × α) → List (String × α)
  | [] => [(key, value)]
  | m :: rest => if m.1 = key then (key, value) :: rest else m :: put key value rest

/-- Pairs without repeated keys: each key keeps its first place and its last value. -/
def latest {α : Type} (pairs : List (String × α)) : List (String × α) :=
  pairs.foldl (fun done m => put m.1 m.2 done) []

/-- Put a member at its place among members sorted by key; an equal key is replaced. -/
def insertSorted (key : String) (value : Json) : List (String × Json) → List (String × Json)
  | [] => [(key, value)]
  | m :: rest =>
    if key < m.1 then (key, value) :: m :: rest
    else if key = m.1 then (key, value) :: rest
    else m :: insertSorted key value rest

/-- Members sorted by key; of equal keys the last counts. -/
def sortMembers (members : List (String × Json)) : List (String × Json) :=
  members.foldl (fun done m => insertSorted m.1 m.2 done) []

/-- The object with the given members, sorted by key. -/
def sortedObject (members : List (String × Json)) : Json :=
  .object (sortMembers members)

mutual

/-- The value with the members of every object sorted by key. -/
def canonical : Json → Json
  | .array items => .array (canonicalItems items)
  | .object members => .object (sortMembers (canonicalMembers members))
  | v => v

/-- `canonical` on each item. -/
def canonicalItems : List Json → List Json
  | [] => []
  | v :: rest => canonical v :: canonicalItems rest

/-- `canonical` on the value of each member. -/
def canonicalMembers : List (String × Json) → List (String × Json)
  | [] => []
  | (k, v) :: rest => (k, canonical v) :: canonicalMembers rest

end

mutual

/-- Whether nothing inside the value is unusable. -/
def isUsable : Json → Bool
  | .array items => areUsable items
  | .object members => membersAreUsable members
  | .unusable => false
  | _ => true

/-- Whether no item is unusable. -/
def areUsable : List Json → Bool
  | [] => true
  | v :: rest => isUsable v && areUsable rest

/-- Whether no member's value is unusable. -/
def membersAreUsable : List (String × Json) → Bool
  | [] => true
  | (_, v) :: rest => isUsable v && membersAreUsable rest

end

mutual

/-- The number of arrays and objects around the innermost value. -/
def depth : Json → Nat
  | .array items => itemsDepth items + 1
  | .object members => membersDepth members + 1
  | _ => 0

/-- The greatest depth of the items. -/
def itemsDepth : List Json → Nat
  | [] => 0
  | v :: rest => max (depth v) (itemsDepth rest)

/-- The greatest depth of the members' values. -/
def membersDepth : List (String × Json) → Nat
  | [] => 0
  | (_, v) :: rest => max (depth v) (membersDepth rest)

end

/-- Whether a value may be read as a whole, given the number of arrays and objects around it:
nothing in it is unusable and nothing is nested deeper than 127 levels. -/
def isReadable (around : Nat) (v : Json) : Bool :=
  isUsable v && around + depth v ≤ 127

end Json

end ApiEvolution
