import ApiEvolution.Annotation.Ledger
import ApiEvolution.Mapping.Basic
import ApiEvolution.Migration.TodoBoard

/-!
# Migration of annotations

`migrate` carries the annotations of an old snapshot over to a new one along the mappings between
them. An annotation on an element with a single successor goes to the successor. Where an element
was split, the annotation goes to the most similar part, and the other parts get a review note;
where several elements became several others, all of these get notes. An annotation whose element
has no successor, or whose successor has no type that could hold it, is dropped.
-/

namespace ApiEvolution

/-- The family of types that an annotation of a kind needs its element to have. -/
def AnnotationKind.requiredFamily? : AnnotationKind → Option TypeFamily
  | .boundary => some .boundary
  | .enumeration => some .enumeration
  | _ => none

/-- Whether an element can hold annotations of a kind. -/
def canHold (element : Option Element) (kind : AnnotationKind) : Bool :=
  match kind.requiredFamily? with
  | some family => (element.bind Element.type).any fun t => t.containsFamily family
  | none => true

/-- The comment on a renaming that may be out of date. -/
def renameComment (oldName current newName : String) : String :=
  "element was renamed from " ++ oldName ++ " to " ++ current ++
    "; check that the rename to " ++ newName ++ " still applies"

/-- An annotation that was carried over, to be reviewed if it is a renaming and the element now has
a name that is neither the old one nor the one that it was to get. -/
def reviewRename (a migrated : Annotation) (current : String) : Annotation :=
  match a.payload with
  | .rename newName =>
    let oldName := simpleName a.target
    if current ≠ newName ∧ current ≠ oldName then
      migrated.markUnsure (renameComment oldName current newName)
    else migrated
  | _ => migrated

/-- Carry an annotation over to an element of the new snapshot, if the element can hold it. -/
def carry? (new : Snapshot) (author : String) (a : Annotation) (target : String) :
    Option Annotation :=
  let element := new.element? target
  if canHold element a.kind then
    some (reviewRename a (a.migrated target author)
      ((element.map Element.name).getD (simpleName target)))
  else none

/-- What becomes of one annotation: where it goes, if anywhere, and the notes it leaves. -/
structure Fate where
  /-- The element to which the annotation goes, if it can hold it. -/
  heir : Option String
  /-- The elements that get a note. -/
  noted : List String
  /-- The elements that a note names. -/
  candidates : List String
deriving DecidableEq, Repr

/-- What becomes of the annotations on a source of a mapping. -/
def Mapping.fate (m : Mapping) : Fate :=
  match m.sides with
  | .oneToOne _ t => ⟨some t, [], [t]⟩
  | .manyToOne _ t => ⟨some t, [], [t]⟩
  | .oneToMany _ ts => ⟨ts.head?, ts.tail, ts⟩
  | .manyToMany _ ts => ⟨none, ts, ts⟩

/-- A migration under way: what was carried over, the notes, and how many annotations were dropped.
-/
structure Migration where
  confident : Ledger
  board : TodoBoard
  dropped : Nat

namespace Migration

/-- Nothing migrated yet. -/
def start : Migration := ⟨.empty, .empty, 0⟩

/-- One more annotation dropped. -/
def drop (m : Migration) : Migration :=
  { m with dropped := m.dropped + 1 }

/-- Carry an annotation over to an element, or drop it if the element cannot hold it. -/
def settle (m : Migration) (new : Snapshot) (author : String) (a : Annotation) (target : String) :
    Migration :=
  match carry? new author a target with
  | some carried => { m with confident := m.confident.add carried }
  | none => m.drop

/-- Leave a note about an annotation on some elements. -/
def note (m : Migration) (a : Annotation) (targets candidates : List String) : Migration :=
  { m with board := targets.foldl (fun b t => b.push t (todoText a candidates)) m.board }

/-- Migrate one annotation. -/
def step (set : MappingSet) (new : Snapshot) (author : String) (m : Migration) (a : Annotation) :
    Migration :=
  match set.forSource? a.target with
  | none => m.drop
  | some mapping =>
    let fate := mapping.fate
    let m := match fate.heir with
      | some target => m.settle new author a target
      | none => m
    m.note a fate.noted fate.candidates

end Migration

/-- The result of a migration: the annotations carried over, those to be reviewed, and the number of
those dropped. -/
structure MigrationResult where
  confident : Ledger
  unsure : Ledger
  dropped : Nat
deriving DecidableEq

/-- Migrate the annotations of a ledger in their order. The new sides of the mappings have to fit
the new snapshot. -/
def migrate (previous : Ledger) (set : MappingSet) (new : Snapshot) (author : String) :
    Outcome MigrationResult := do
  set.validateTargets new
  let m := previous.entries.foldl (Migration.step set new author) .start
  return ⟨m.confident, Ledger.ofList (m.board.toAnnotations author), m.dropped⟩

end ApiEvolution
