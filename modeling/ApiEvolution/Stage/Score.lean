import ApiEvolution.Mapping.Matcher
import ApiEvolution.Similarity.Element
import ApiEvolution.Snapshot.Ancestry
import ApiEvolution.Snapshot.Fingerprint

/-!
# The scores of the stages

Two snapshots are compared in four stages. Each has a score of its own, and all but the first look
at the mapping of the stage before:

* `naive` is the blended similarity of two elements.
* `strict` rejects pairs whose containers do not agree with the mapping before.
* `inheritance` takes a member back that has moved up or down a class hierarchy, and moves the score
  of an overriding member towards that of the member which it overrides.
* `unchanged` gives the full score to elements with equal fingerprints.
-/

namespace ApiEvolution

/-- A stage of a comparison. -/
inductive Stage where
  | naive
  | strict
  | inheritance
  | unchanged
deriving DecidableEq, Repr

namespace Stage

/-- The stages in order. -/
def all : List Stage :=
  [.naive, .strict, .inheritance, .unchanged]

/-- The name of a stage. -/
def name : Stage → String
  | .naive => "naive"
  | .strict => "strict"
  | .inheritance => "inheritance"
  | .unchanged => "unchanged"

/-- The stage with a name. -/
def ofName? (name : String) : Option Stage :=
  all.find? fun s => s.name = name

end Stage

open Similarity

/-- What a stage compares: two snapshots, and the mapping of the stage before if there is one. -/
structure Comparison where
  old : Snapshot
  new : Snapshot
  previous : Option MappingSet

namespace Comparison

/-- The similarity of two elements, whatever their containers. -/
def naive (c : Comparison) : Scorer :=
  elementSimilarity {} c.old c.new

/-- Whether the containers of two elements agree with the mapping before: neither has one, or theirs
are mapped to each other. Without a mapping before all do. -/
def containersAgree (c : Comparison) (x y : Element) : Bool :=
  match c.previous with
  | none => true
  | some previous =>
    match c.old.parentOf? x.id, c.new.parentOf? y.id with
    | none, none => true
    | some p, some q => previous.maps p q
    | _, _ => false

/-- The similarity of elements whose containers agree. -/
def strict (c : Comparison) : Scorer := fun x y =>
  if c.containersAgree x y then c.naive x y else 0

/-- Whether a class is a descendant of another. -/
def isDescendant (s : Snapshot) (id descendant : String) : Bool :=
  (s.class? descendant).isSome && descendant ≠ id && (s.ancestors descendant).contains id

/-- Whether the new container is an ancestor or a descendant of a class to which the old one is
mapped. -/
def areRelated (c : Comparison) (x y : Element) : Bool :=
  match c.previous, c.old.parentOf? x.id, c.new.parentOf? y.id with
  | some previous, some p, some q =>
    match previous.forSource? p with
    | some m => m.targets.any fun t =>
      (c.new.class? t).isSome && ((c.new.ancestors t).contains q || isDescendant c.new t q)
    | none => false
  | _, _, _ => false

/-- Whether the containers of two elements agree, by themselves or through a class hierarchy. -/
def admits (c : Comparison) (x y : Element) : Bool :=
  c.containersAgree x y || c.areRelated x y

/-- Whether an identity belongs to an element with a name. -/
def isNamed (s : Snapshot) (id name : String) : Bool :=
  (s.element? id).any fun e => e.name = name

/-- The similarity of the mapping by which the old element is mapped to a member that the new one
overrides: a member of the same kind and name in an ancestor of the new element's class. -/
def overriddenSimilarity? (c : Comparison) (x y : Element) : Option Float :=
  if y.kind = .functionKind ∨ y.kind = .attributeKind then do
    let previous ← c.previous
    let parent ← c.new.parentOf? y.id
    let overridden := (c.new.ancestors parent).flatMap fun a => c.new.children a y.kind
    if overridden.any fun id => isNamed c.new id y.name && previous.maps x.id id then
      (previous.forSource? x.id).map Mapping.similarity
    else none
  else none

/-- The similarity of admitted elements, moved towards that of an overridden member. -/
def inheritance (c : Comparison) (boost : Float) : Scorer := fun x y =>
  let score := if c.containersAgree x y then c.strict x y
    else if c.areRelated x y then c.naive x y
    else 0
  let raised := match c.overriddenSimilarity? x y with
    | some inherited =>
      if score < inherited then score + clampUnit boost * (inherited - score) else score
    | none => score
  clampUnit raised

/-- Whether there is something to take a fingerprint of: an empty piece of code is no evidence. -/
def hasEvidence (x : Element) : Bool :=
  x.code.all fun code => !code.isEmpty

/-- The full score for admitted elements with equal fingerprints, the score of the stage before for
all others. -/
def unchanged (c : Comparison) (boost : Float) : Scorer := fun x y =>
  if x.kind ≠ y.kind then 0
  else if hasEvidence x && c.admits x y && x.fingerprint = y.fingerprint then 1
  else c.inheritance boost x y

/-- The score of a stage. -/
def score (c : Comparison) (boost : Float) : Stage → Scorer
  | .naive => c.naive
  | .strict => c.strict
  | .inheritance => c.inheritance boost
  | .unchanged => c.unchanged boost

end Comparison

end ApiEvolution
