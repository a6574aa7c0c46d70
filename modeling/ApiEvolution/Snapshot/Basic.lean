import ApiEvolution.Snapshot.Element

/-!
# Snapshots

A `Snapshot` is one version of a library's API: a header and the declarations of each kind in the
order in which they were made. Two indices are kept beside them: which container lists an identity,
and which class has a qualified name. Of several entries the last one made counts, and replacing a
declaration leaves the entries of the replaced one in place.

* `element?` finds the declaration of an identity, `elements` lists those of a kind.
* `parentOf?` and `children` relate containers and what they list.
-/

namespace ApiEvolution

/-- Put an item at the place of the one with the same key, or else at the end. -/
def upsert {α : Type} (key : α → String) (item : α) : List α → List α
  | [] => [item]
  | a :: rest => if key a = key item then item :: rest else a :: upsert key item rest

/-- An index from texts to identities. -/
abbrev NameIndex := List (String × String)

/-- The identity that an index has for a text. -/
def NameIndex.get? (index : NameIndex) (name : String) : Option String :=
  (index.find? fun e => e.1 = name).map (·.2)

/-- Make an index give one identity for some texts. -/
def NameIndex.assign (index : NameIndex) (names : List String) (id : String) : NameIndex :=
  names.foldl (fun index n => upsert (·.1) (n, id) index) index

/-- One version of an API. -/
structure Snapshot where
  distribution : String := ""
  package : String := ""
  version : String := ""
  classes : List ClassDecl := []
  functions : List FunctionDecl := []
  parameters : List ParameterDecl := []
  attributes : List MemberDecl := []
  results : List MemberDecl := []
  /-- The container that lists an identity. -/
  parents : NameIndex := []
  /-- The class that has a qualified name. -/
  classNames : NameIndex := []

namespace Snapshot

/-- Declare a class. -/
def addClass (s : Snapshot) (c : ClassDecl) : Snapshot :=
  { s with
    parents := (s.parents.assign c.methods c.id).assign c.attributes c.id
    classNames := s.classNames.assign [c.qname] c.id
    classes := upsert ClassDecl.id c s.classes }

/-- Declare a function. -/
def addFunction (s : Snapshot) (f : FunctionDecl) : Snapshot :=
  { s with
    parents := (s.parents.assign f.parameters f.id).assign f.results f.id
    functions := upsert FunctionDecl.id f s.functions }

/-- Declare a parameter. -/
def addParameter (s : Snapshot) (p : ParameterDecl) : Snapshot :=
  { s with parameters := upsert ParameterDecl.id p s.parameters }

/-- Declare an attribute. -/
def addAttribute (s : Snapshot) (a : MemberDecl) : Snapshot :=
  { s with attributes := upsert MemberDecl.id a s.attributes }

/-- Declare a result. -/
def addResult (s : Snapshot) (r : MemberDecl) : Snapshot :=
  { s with results := upsert MemberDecl.id r s.results }

/-- Declare an element. -/
def add (s : Snapshot) : Element → Snapshot
  | .ofClass c => s.addClass c
  | .ofFunction f => s.addFunction f
  | .ofParameter p => s.addParameter p
  | .ofAttribute a => s.addAttribute a
  | .ofResult r => s.addResult r

/-- The class with an identity. -/
def class? (s : Snapshot) (id : String) : Option ClassDecl :=
  s.classes.find? fun c => c.id = id

/-- The function with an identity. -/
def function? (s : Snapshot) (id : String) : Option FunctionDecl :=
  s.functions.find? fun f => f.id = id

/-- The parameter with an identity. -/
def parameter? (s : Snapshot) (id : String) : Option ParameterDecl :=
  s.parameters.find? fun p => p.id = id

/-- The attribute with an identity. -/
def attribute? (s : Snapshot) (id : String) : Option MemberDecl :=
  s.attributes.find? fun a => a.id = id

/-- The result with an identity. -/
def result? (s : Snapshot) (id : String) : Option MemberDecl :=
  s.results.find? fun r => r.id = id

/-- The element with an identity, the kinds tried in their order. -/
def element? (s : Snapshot) (id : String) : Option Element :=
  ((s.class? id).map .ofClass).or
    (((s.function? id).map .ofFunction).or
      (((s.parameter? id).map .ofParameter).or
        (((s.attribute? id).map .ofAttribute).or ((s.result? id).map .ofResult))))

/-- The elements of a kind in the order of their declaration. -/
def elements (s : Snapshot) : ElementKind → List Element
  | .classKind => s.classes.map .ofClass
  | .functionKind => s.functions.map .ofFunction
  | .parameterKind => s.parameters.map .ofParameter
  | .attributeKind => s.attributes.map .ofAttribute
  | .resultKind => s.results.map .ofResult

/-- All elements, kind by kind. -/
def allElements (s : Snapshot) : List Element :=
  ElementKind.all.flatMap s.elements

/-- The number of elements. -/
def size (s : Snapshot) : Nat :=
  s.classes.length + s.functions.length + s.parameters.length + s.attributes.length +
    s.results.length

/-- The container that lists an identity. -/
def parentOf? (s : Snapshot) (id : String) : Option String :=
  s.parents.get? id

/-- The identities of a kind that a container lists. -/
def children (s : Snapshot) (container : String) : ElementKind → List String
  | .classKind => []
  | .functionKind => ((s.class? container).map ClassDecl.methods).getD []
  | .parameterKind => ((s.function? container).map FunctionDecl.parameters).getD []
  | .attributeKind => ((s.class? container).map ClassDecl.attributes).getD []
  | .resultKind => ((s.function? container).map FunctionDecl.results).getD []

/-- The class with a qualified name. -/
def classByName? (s : Snapshot) (qname : String) : Option ClassDecl :=
  (s.classNames.get? qname).bind s.class?

theorem length_allElements (s : Snapshot) : s.allElements.length = s.size := by
  simp [allElements, ElementKind.all, elements, size]
  omega

end Snapshot

end ApiEvolution
