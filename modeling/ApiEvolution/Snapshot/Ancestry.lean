import ApiEvolution.Snapshot.Basic

/-!
# Ancestors and descendants of classes

A class names its superclasses; those that the snapshot has a class for are its direct ancestors.
The ancestors of a class are all classes other than itself that are reached in one or more such
steps, also where the steps lead in a circle. Its descendants are the classes that have it as an
ancestor.

`explore` walks a graph from the nodes on a stack and collects what it meets.
-/

namespace ApiEvolution.Snapshot

/-- The direct ancestors of a class, by identity. -/
def superclassIds (s : Snapshot) (id : String) : List String :=
  match s.class? id with
  | some c => c.superclasses.filterMap fun q => (s.classByName? q).map ClassDecl.id
  | none => []

/-- Put identities that are new, and not the start, on a stack and among those seen. -/
def discover (start : String) (seen stack : List String) : List String → List String × List String
  | [] => (seen, stack)
  | x :: rest =>
    if x = start ∨ x ∈ seen then discover start seen stack rest
    else discover start (x :: seen) (x :: stack) rest

/-- Take nodes from a stack, each with its successors to be discovered, until the stack is empty.
The fuel bounds the number of nodes taken; no node is put on the stack twice. -/
def explore (next : String → List String) (start : String) :
    Nat → List String → List String → List String
  | 0, seen, _ => seen
  | _ + 1, seen, [] => seen
  | fuel + 1, seen, x :: stack =>
    let found := discover start seen stack (next x)
    explore next start fuel found.1 found.2

/-- The ancestors of a class, sorted. -/
def ancestors (s : Snapshot) (id : String) : List String :=
  SortedSet.ofTexts (explore s.superclassIds id (s.classes.length + 1) [] [id])

/-- The descendants of a class, sorted. -/
def descendants (s : Snapshot) (id : String) : List String :=
  SortedSet.ofTexts ((s.classes.map ClassDecl.id).filter fun d =>
    d ≠ id && (s.ancestors d).contains id)

end ApiEvolution.Snapshot
