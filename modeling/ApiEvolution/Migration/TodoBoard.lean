import ApiEvolution.Annotation.Basic

/-!
# Review notes

Where an annotation cannot be carried over without doubt, a note is left on each element that may
have inherited it. A `TodoBoard` collects the notes by target, in the order in which the targets got
their first note; a note that a target has already is not repeated.
-/

namespace ApiEvolution

/-- The note that is left about an annotation on one of some candidates. -/
def todoText (a : Annotation) (candidates : List String) : String :=
  "The annotation " ++ a.describe ++ " on " ++ a.target ++
    " could not be migrated automatically. The element now corresponds to " ++
    ", ".intercalate candidates ++ "; check whether it applies here."

/-- Notes by target. -/
structure TodoBoard where
  notes : List (String × List String)

namespace TodoBoard

/-- The board without notes. -/
def empty : TodoBoard := ⟨[]⟩

/-- Put a note among those of a target. -/
def pushNote (target text : String) : List (String × List String) → List (String × List String)
  | [] => [(target, [text])]
  | n :: rest =>
    if n.1 = target then (if text ∈ n.2 then n else (n.1, n.2 ++ [text])) :: rest
    else n :: pushNote target text rest

/-- Leave a note on a target. -/
def push (b : TodoBoard) (target text : String) : TodoBoard :=
  ⟨pushNote target text b.notes⟩

/-- The number of targets with notes. -/
def size (b : TodoBoard) : Nat :=
  b.notes.length

/-- Whether there are no notes. -/
def isEmpty (b : TodoBoard) : Bool :=
  b.notes.isEmpty

/-- One annotation for each target, with its notes on lines of their own. -/
def toAnnotations (b : TodoBoard) (author : String) : List Annotation :=
  b.notes.map fun n =>
    let todo : Annotation := .ofPayload n.1 author (.todo ("\n".intercalate n.2))
    todo.markUnsure "ambiguous mapping"

end TodoBoard

end ApiEvolution
