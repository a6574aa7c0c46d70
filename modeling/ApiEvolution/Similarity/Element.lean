import ApiEvolution.Similarity.Blend
import ApiEvolution.Similarity.Distance
import ApiEvolution.Snapshot.Basic

/-!
# Similarity of elements

Two elements of one kind are compared by their names, types, documentation, structure and code, as
far as the kind has these; the signals are blended by weight. Elements of different kinds are not
similar at all.

* `typeSimilarity` compares types: unions as sets of members, enumerations as sets of values.
* `elementSimilarity` is the blended score of two elements.
-/

namespace ApiEvolution.Similarity

/-- Whether two types are equal. -/
def sameType (a b : ValueType) : Bool :=
  a.compare b = .eq

/-- How alike two types are. Names and boundaries that differ count half at most, types of different
families not at all. -/
def typeSimilarity : Option ValueType → Option ValueType → Float
  | none, none => 1
  | some a, some b =>
    if sameType a b then 1
    else
      match a, b with
      | .union _, _ => jaccard sameType a.members b.members
      | _, .union _ => jaccard sameType a.members b.members
      | .enumeration u, .enumeration v => jaccard (fun x y => x = y) u v
      | .named u, .named v => 0.5 * nameSimilarity u v
      | .boundary u, .boundary v => if u.base = v.base then 0.5 else 0.25
      | _, _ => 0
  | _, _ => 0

/-- The names of the elements with some identities; an identity that is not declared stands for
itself. -/
def childNames (s : Snapshot) (ids : List String) : List String :=
  ids.map fun id => ((s.element? id).map Element.name).getD id

/-- How alike two classes are. -/
def classSimilarity (w : Weights) (old : Snapshot) (a : ClassDecl) (new : Snapshot)
    (b : ClassDecl) : Float :=
  let superclasses := textOverlap a.superclasses b.superclasses
  let members := textOverlap (childNames old (a.methods ++ a.attributes))
    (childNames new (b.methods ++ b.attributes))
  ((((({} : Blend).add w.name (nameSimilarity a.name b.name)).add w.documentation
    (textSimilarity a.description b.description)).add w.structural
      (mean [superclasses, members])).add w.code (whether (a.code = b.code))).mean

/-- How alike two functions are. -/
def functionSimilarity (w : Weights) (old : Snapshot) (a : FunctionDecl) (new : Snapshot)
    (b : FunctionDecl) : Float :=
  let parameters := sequenceSimilarity (childNames old a.parameters) (childNames new b.parameters)
  let results := sequenceSimilarity (childNames old a.results) (childNames new b.results)
  let decorators := textOverlap a.decorators b.decorators
  ((((({} : Blend).add w.name (nameSimilarity a.name b.name)).add w.documentation
    (textSimilarity a.description b.description)).add w.structural
      (mean [parameters, results, decorators])).add w.code (whether (a.code = b.code))).mean

/-- How alike two parameters are. -/
def parameterSimilarity (w : Weights) (a b : ParameterDecl) : Float :=
  let binding := mean [whether (a.defaultValue = b.defaultValue),
    whether (a.assignedBy = b.assignedBy)]
  ((((({} : Blend).add w.name (nameSimilarity a.name b.name)).add w.type
    (typeSimilarity a.type b.type)).add w.documentation
      (textSimilarity a.doc.description b.doc.description)).add w.structural binding).mean

/-- How alike two attributes or two results are. -/
def memberSimilarity (w : Weights) (a b : MemberDecl) : Float :=
  (((({} : Blend).add w.name (nameSimilarity a.name b.name)).add w.type
    (typeSimilarity a.type b.type)).add w.documentation
      (textSimilarity a.doc.description b.doc.description)).mean

/-- How alike an element of an old snapshot and one of a new snapshot are. -/
def elementSimilarity (w : Weights) (old new : Snapshot) : Element → Element → Float
  | .ofClass a, .ofClass b => classSimilarity w old a new b
  | .ofFunction a, .ofFunction b => functionSimilarity w old a new b
  | .ofParameter a, .ofParameter b => parameterSimilarity w a b
  | .ofAttribute a, .ofAttribute b => memberSimilarity w a b
  | .ofResult a, .ofResult b => memberSimilarity w a b
  | _, _ => 0

end ApiEvolution.Similarity
