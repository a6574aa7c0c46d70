import ApiEvolution.Error
import ApiEvolution.Snapshot.Basic

/-!
# Mappings

A `Mapping` says that some elements of an old snapshot correspond to some of a new one, all of one
kind. How many there are on each side is its multiplicity.

A `MappingSet` holds the mappings of one comparison. No identity is on the same side of two of them:
`push` refuses a mapping that would break this.

* `MappingSet.removed` and `added` are the elements that no mapping accounts for.
* `MappingSet.validate` checks a set against the snapshots that it is used with.
-/

namespace ApiEvolution

/-- How many elements a mapping has on its two sides. -/
inductive Multiplicity where
  | oneToOne
  | oneToMany
  | manyToOne
  | manyToMany
deriving DecidableEq, Repr

namespace Multiplicity

/-- All multiplicities. -/
def all : List Multiplicity :=
  [.oneToOne, .oneToMany, .manyToOne, .manyToMany]

/-- The short form of a multiplicity. -/
def symbol : Multiplicity → String
  | .oneToOne => "1:1"
  | .oneToMany => "1:n"
  | .manyToOne => "n:1"
  | .manyToMany => "n:m"

/-- The name of a multiplicity in documents. -/
def name : Multiplicity → String
  | .oneToOne => "one_to_one"
  | .oneToMany => "one_to_many"
  | .manyToOne => "many_to_one"
  | .manyToMany => "many_to_many"

/-- The names with the multiplicities that they name. -/
def byName : List (String × Multiplicity) :=
  all.map fun m => (m.name, m)

end Multiplicity

/-- The identities on the two sides of a mapping. -/
inductive Sides where
  | oneToOne (source target : String)
  | oneToMany (source : String) (targets : List String)
  | manyToOne (sources : List String) (target : String)
  | manyToMany (sources targets : List String)
deriving DecidableEq, Repr

namespace Sides

/-- The identities on the old side. -/
def sources : Sides → List String
  | .oneToOne s _ => [s]
  | .oneToMany s _ => [s]
  | .manyToOne ss _ => ss
  | .manyToMany ss _ => ss

/-- The identities on the new side. -/
def targets : Sides → List String
  | .oneToOne _ t => [t]
  | .oneToMany _ ts => ts
  | .manyToOne _ t => [t]
  | .manyToMany _ ts => ts

/-- The multiplicity of two sides. -/
def multiplicity : Sides → Multiplicity
  | .oneToOne _ _ => .oneToOne
  | .oneToMany _ _ => .oneToMany
  | .manyToOne _ _ => .manyToOne
  | .manyToMany _ _ => .manyToMany

/-- The sides with the given identities, unless one is empty. -/
def ofLists? : List String → List String → Option Sides
  | [], _ => none
  | _, [] => none
  | [s], [t] => some (.oneToOne s t)
  | [s], ts => some (.oneToMany s ts)
  | ss, [t] => some (.manyToOne ss t)
  | ss, ts => some (.manyToMany ss ts)

theorem sources_ofLists? {ss ts : List String} {sides : Sides} (h : ofLists? ss ts = some sides) :
    sides.sources = ss := by
  unfold ofLists? at h
  split at h <;> cases h <;> rfl

theorem targets_ofLists? {ss ts : List String} {sides : Sides} (h : ofLists? ss ts = some sides) :
    sides.targets = ts := by
  unfold ofLists? at h
  split at h <;> cases h <;> rfl

end Sides

/-- A correspondence between elements of one kind, with the similarity on which it rests. -/
structure Mapping where
  kind : ElementKind
  sides : Sides
  similarity : Float
deriving DecidableEq

namespace Mapping

/-- The identities on the old side. -/
def sources (m : Mapping) : List String :=
  m.sides.sources

/-- The identities on the new side. -/
def targets (m : Mapping) : List String :=
  m.sides.targets

/-- How many elements the mapping has on its sides. -/
def multiplicity (m : Mapping) : Multiplicity :=
  m.sides.multiplicity

/-- The mapping with the given identities on its sides, unless a side is empty. -/
def ofLists? (kind : ElementKind) (sources targets : List String) (similarity : Float) :
    Option Mapping :=
  (Sides.ofLists? sources targets).map fun sides => ⟨kind, sides, similarity⟩

/-- The text of a mapping. -/
def display (m : Mapping) : String :=
  m.multiplicity.symbol ++ " " ++ m.kind.name ++ " [" ++ ", ".intercalate m.sources ++ "] -> [" ++
    ", ".intercalate m.targets ++ "] (" ++ Decimal.fixedPlaces 3 m.similarity ++ ")"

end Mapping

/-- The mappings of a comparison, in the order in which they were pushed. -/
structure MappingSet where
  mappings : List Mapping
deriving DecidableEq

namespace MappingSet

/-- The set without mappings. -/
def empty : MappingSet := ⟨[]⟩

/-- The mapping that has an identity on its old side. -/
def forSource? (s : MappingSet) (id : String) : Option Mapping :=
  s.mappings.find? fun m => m.sources.contains id

/-- The mapping that has an identity on its new side. -/
def forTarget? (s : MappingSet) (id : String) : Option Mapping :=
  s.mappings.find? fun m => m.targets.contains id

/-- Whether two identities are on the two sides of one mapping. -/
def maps (s : MappingSet) (source target : String) : Bool :=
  s.mappings.any fun m => m.sources.contains source && m.targets.contains target

/-- What keeps a mapping out of the set: its first source that is mapped already, or else its first
such target. -/
def obstacle? (s : MappingSet) (m : Mapping) : Option Inconsistency :=
  ((m.sources.find? fun id => (s.forSource? id).isSome).map (.mappedTwice .source)).or
    ((m.targets.find? fun id => (s.forTarget? id).isSome).map (.mappedTwice .target))

/-- Put a mapping at the end, unless one of its identities is mapped already. -/
def push (s : MappingSet) (m : Mapping) : Except Inconsistency MappingSet :=
  match s.obstacle? m with
  | some cause => .error cause
  | none => .ok ⟨s.mappings ++ [m]⟩

/-- Push mappings one by one up to the first that is refused, and say why it is. -/
def extend (s : MappingSet) : List Mapping → MappingSet × Option Inconsistency
  | [] => (s, none)
  | m :: rest =>
    match s.push m with
    | .ok more => more.extend rest
    | .error cause => (s, some cause)

/-- The set of some mappings, if none is refused. -/
def ofList (mappings : List Mapping) : Outcome MappingSet :=
  match empty.extend mappings with
  | (s, none) => .ok s
  | (_, some cause) => .error (.inconsistent cause)

/-- The number of mappings. -/
def size (s : MappingSet) : Nat :=
  s.mappings.length

/-- The mappings of a kind. -/
def ofKind (s : MappingSet) (kind : ElementKind) : List Mapping :=
  s.mappings.filter fun m => m.kind = kind

/-- The number of mappings of a multiplicity. -/
def count (s : MappingSet) (multiplicity : Multiplicity) : Nat :=
  s.mappings.countP fun m => m.multiplicity = multiplicity

/-- The identities on the old sides, sorted. -/
def sourceIds (s : MappingSet) : List String :=
  SortedSet.ofTexts (s.mappings.flatMap Mapping.sources)

/-- The identities of an old snapshot that are on no old side, in the order of declaration. -/
def removed (s : MappingSet) (old : Snapshot) : List String :=
  (old.allElements.map Element.id).filter fun id => (s.forSource? id).isNone

/-- The identities of a new snapshot that are on no new side, in the order of declaration. -/
def added (s : MappingSet) (new : Snapshot) : List String :=
  (new.allElements.map Element.id).filter fun id => (s.forTarget? id).isNone

/-- What is wrong with an identity on a side of a mapping: it is not declared, or with another kind.
-/
def memberFault? (snapshot : Snapshot) (side : Side) (kind : ElementKind) (id : String) :
    Option Inconsistency :=
  match snapshot.element? id with
  | some e => if e.kind = kind then none else some (.wrongKind side id e.kind kind)
  | none => some (.notPart side id snapshot.distribution snapshot.version)

/-- The first fault on the old side of a mapping. -/
def sourceFault? (old : Snapshot) (m : Mapping) : Option Inconsistency :=
  m.sources.findSome? (memberFault? old .source m.kind)

/-- The first fault on the new side of a mapping. -/
def targetFault? (new : Snapshot) (m : Mapping) : Option Inconsistency :=
  m.targets.findSome? (memberFault? new .target m.kind)

/-- A failure for a fault, if there is one. -/
def refuse : Option Inconsistency → Outcome Unit
  | some cause => .error (.inconsistent cause)
  | none => .ok ()

/-- Check that every identity is declared with the kind of its mapping in the snapshot of its side.
-/
def validate (s : MappingSet) (old new : Snapshot) : Outcome Unit :=
  refuse (s.mappings.findSome? fun m => (sourceFault? old m).or (targetFault? new m))

/-- Check the new sides only. -/
def validateTargets (s : MappingSet) (new : Snapshot) : Outcome Unit :=
  refuse (s.mappings.findSome? (targetFault? new))

end MappingSet

end ApiEvolution
