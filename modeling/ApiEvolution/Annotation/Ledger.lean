import ApiEvolution.Annotation.Basic

/-!
# Ledgers of annotations

A `Ledger` keeps annotations in the order in which they were added. A new annotation evicts those
that it conflicts with, so the latest always wins: no two annotations of a ledger conflict.

* `mem_add`: the annotations after an addition are the new one and those that do not conflict with
  it.
* `entries_pairwise`: in a ledger built by additions no two annotations conflict.
-/

namespace ApiEvolution

/-- Annotations in the order of their addition. -/
structure Ledger where
  entries : List Annotation
deriving DecidableEq

namespace Ledger

/-- The ledger without annotations. -/
def empty : Ledger := ⟨[]⟩

/-- The annotations that an annotation would evict. -/
def evictedBy (l : Ledger) (a : Annotation) : List Annotation :=
  l.entries.filter a.conflicts

/-- Add an annotation and evict those that it conflicts with. -/
def add (l : Ledger) (a : Annotation) : Ledger :=
  ⟨l.entries.filter (fun b => !a.conflicts b) ++ [a]⟩

/-- Add annotations one by one. -/
def extend (l : Ledger) (annotations : List Annotation) : Ledger :=
  annotations.foldl add l

/-- The ledger of a sequence of annotations. -/
def ofList (annotations : List Annotation) : Ledger :=
  empty.extend annotations

/-- The number of annotations. -/
def size (l : Ledger) : Nat :=
  l.entries.length

/-- Whether there are no annotations. -/
def isEmpty (l : Ledger) : Bool :=
  l.entries.isEmpty

/-- The annotations of a kind. -/
def ofKind (l : Ledger) (kind : AnnotationKind) : List Annotation :=
  l.entries.filter fun a => a.kind = kind

/-- The annotations on a target. -/
def forTarget (l : Ledger) (target : String) : List Annotation :=
  l.entries.filter fun a => a.target = target

/-- The annotation of a kind on a target. -/
def get? (l : Ledger) (kind : AnnotationKind) (target : String) : Option Annotation :=
  l.entries.find? fun a => a.kind = kind && a.target = target

/-- How many annotations there are of each kind that occurs, in the order of the kinds. -/
def counts (l : Ledger) : List (AnnotationKind × Nat) :=
  (AnnotationKind.all.map fun k => (k, (l.ofKind k).length)).filter fun c => c.2 ≠ 0

theorem mem_add {l : Ledger} {a b : Annotation} :
    b ∈ (l.add a).entries ↔ b = a ∨ b ∈ l.entries ∧ a.conflicts b = false := by
  simp [add, or_comm]

theorem pairwise_add {l : Ledger} (h : l.entries.Pairwise fun a b => b.conflicts a = false)
    (a : Annotation) : (l.add a).entries.Pairwise fun a b => b.conflicts a = false := by
  rw [add, List.pairwise_append]
  refine ⟨h.filter _, List.pairwise_singleton _ _, ?_⟩
  intro b hb c hc
  simp only [List.mem_singleton] at hc
  simp only [List.mem_filter, Bool.not_eq_true'] at hb
  rw [hc]
  exact hb.2

theorem pairwise_extend {l : Ledger} (h : l.entries.Pairwise fun a b => b.conflicts a = false)
    (annotations : List Annotation) :
    (l.extend annotations).entries.Pairwise fun a b => b.conflicts a = false := by
  induction annotations generalizing l with
  | nil => exact h
  | cons a rest ih => exact ih (pairwise_add h a)

theorem entries_pairwise (annotations : List Annotation) :
    (ofList annotations).entries.Pairwise fun a b => b.conflicts a = false :=
  pairwise_extend List.Pairwise.nil annotations

end Ledger

end ApiEvolution
