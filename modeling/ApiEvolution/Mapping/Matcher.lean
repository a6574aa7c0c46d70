import ApiEvolution.Mapping.Basic
import ApiEvolution.Mapping.Forest
import ApiEvolution.Similarity.Blend

/-!
# From scores to mappings

A `Scorer` gives a score to each pair of an old and a new element. The pairs whose score is positive
and reaches a threshold are kept. They are the edges of a graph between the old and the new
elements, and each connected component with an edge becomes one mapping.

* `matchElements` does this for some elements of one kind.
* `matchSnapshots` does it for two snapshots: classes and functions are compared with all others of
  their kind, parameters, attributes and results only within the containers of one mapping.
-/

namespace ApiEvolution

/-- A score for a pair of an old and a new element. -/
abbrev Scorer := Element → Element → Float

/-- A pair that was kept, by the positions of its elements among those compared. -/
structure Edge where
  source : Nat
  target : Nat
  score : Float

namespace Matcher

/-- Whether a score keeps a pair: zero never does. -/
def keeps (threshold score : Float) : Bool :=
  0 < score && threshold ≤ score

/-- Drop each element that has the identity of the one before. -/
def dropRepeated : List Element → List Element
  | [] => []
  | [e] => [e]
  | e :: f :: rest =>
    if e.id = f.id then dropRepeated (e :: rest) else e :: dropRepeated (f :: rest)
termination_by es => es.length

/-- Elements sorted by identity, the first of each identity only. -/
def arrange (elements : List Element) : List Element :=
  dropRepeated (elements.mergeSort fun a b => a.id ≤ b.id)

/-- The pairs that are kept, in the order of their sources. -/
def edges (score : Scorer) (threshold : Float) (sources targets : List Element) : List Edge :=
  sources.zipIdx.flatMap fun x => targets.zipIdx.filterMap fun y =>
    let s := score x.1 y.1
    if keeps threshold s then some ⟨x.2, y.2, s⟩ else none

/-- The forest that joins the ends of all edges; targets are numbered after the sources. -/
def components (sourceCount targetCount : Nat) (es : List Edge) : Forest :=
  es.foldl (fun f e => f.union e.source (sourceCount + e.target))
    (Forest.singletons (sourceCount + targetCount))

/-- The greater of two scores. -/
def greater (a b : Float) : Float :=
  if a < b then b else a

/-- The score of the first edge with a target. -/
def scoreOf (es : List Edge) (target : Nat) : Float :=
  ((es.find? fun e => e.target = target).map Edge.score).getD 0

/-- Whether one target of a single source comes before another: by greater score, and by position
where the scores are equal. -/
def comesBefore (es : List Edge) (a b : Nat) : Bool :=
  match Decimal.compareFloat (scoreOf es b) (scoreOf es a) with
  | .lt => true
  | .eq => a ≤ b
  | .gt => false

/-- The mapping of a component, given its edges. The targets of a single source come in the order of
their scores, the greatest first; all other sides in the order of identities. -/
def componentMapping? (kind : ElementKind) (sources targets : List Element) (es : List Edge) :
    Option Mapping :=
  let sourceSet := SortedSet.ofList compare (es.map Edge.source)
  let targetSet := SortedSet.ofList compare (es.map Edge.target)
  let ordered := if sourceSet.length = 1 ∧ 1 < targetSet.length then
    targetSet.mergeSort (comesBefore es) else targetSet
  let idsAt (elements : List Element) (positions : List Nat) : List String :=
    positions.filterMap fun i => elements[i]?.map Element.id
  Mapping.ofLists? kind (idsAt sources sourceSet) (idsAt targets ordered)
    ((es.map Edge.score).foldl greater 0)

/-- The first source of a mapping and its least target, by which mappings are sorted. -/
def sortKey (m : Mapping) : String × String :=
  (m.sources.headD "", (SortedSet.ofTexts m.targets).headD "")

/-- Whether a mapping comes before another or has the same key. -/
def precedes (a b : Mapping) : Bool :=
  let (s, t) := sortKey a
  let (u, v) := sortKey b
  if s = u then t ≤ v else s ≤ u

/-- Mappings by first source and least target. -/
def sortMappings (mappings : List Mapping) : List Mapping :=
  mappings.mergeSort precedes

/-- The mappings between arranged elements, one for each component with an edge. -/
def matchArranged (score : Scorer) (threshold : Float) (kind : ElementKind)
    (sources targets : List Element) : List Mapping :=
  let es := edges score threshold sources targets
  let forest := components sources.length targets.length es
  let roots := SortedSet.ofList compare (es.map fun e => forest.root e.source)
  sortMappings (roots.filterMap fun r =>
    componentMapping? kind sources targets (es.filter fun e => forest.root e.source = r))

/-- The mappings between some old and some new elements. -/
def matchElements (score : Scorer) (threshold : Float) (kind : ElementKind)
    (sources targets : List Element) : List Mapping :=
  matchArranged score threshold kind (arrange sources) (arrange targets)

/-- The elements of a kind that some containers list. -/
def listed (s : Snapshot) (kind : ElementKind) (containers : List String) : List Element :=
  (containers.flatMap fun c => s.children c kind).filterMap s.element?

/-- The mappings between elements that the containers of mappings list. -/
def matchChildren (score : Scorer) (threshold : Float) (old new : Snapshot)
    (containers : List Mapping) (kind : ElementKind) : List Mapping :=
  sortMappings (containers.flatMap fun m =>
    matchElements score threshold kind (listed old kind m.sources) (listed new kind m.targets))

/-- The mappings between two snapshots, before it is known that they agree with each other. -/
def candidates (score : Scorer) (threshold : Float) (old new : Snapshot) : List Mapping :=
  let among (kind : ElementKind) :=
    matchElements score threshold kind (old.elements kind) (new.elements kind)
  let classes := among .classKind
  let functions := among .functionKind
  let within := matchChildren score threshold old new
  classes ++ functions ++ within functions .parameterKind ++ within classes .attributeKind ++
    within functions .resultKind

/-- The mapping set between two snapshots. -/
def matchSnapshots (score : Scorer) (threshold : Float) (old new : Snapshot) :
    Outcome MappingSet :=
  MappingSet.ofList (candidates score threshold old new)

end Matcher

end ApiEvolution
