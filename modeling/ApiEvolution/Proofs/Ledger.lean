import Mathlib.Data.List.Pairwise
import Mathlib.Tactic.Common
import ApiEvolution.Annotation.Ledger

/-!
# Ledgers are latest-wins logs

A ledger made of a sequence has those annotations of the sequence that no later one conflicts with,
in their order (`entries_ofList`). An annotation that is missing was evicted by another one
(`mem_survivors_or_exists`), and without conflicts nothing is missing (`survivors_eq_self`).
-/

namespace ApiEvolution

namespace Annotation

theorem conflicts_iff {a b : Annotation} :
    a.conflicts b = true ↔ a.target = b.target ∧ a.kind.conflicts b.kind = true := by
  simp [conflicts]

theorem conflicts_refl (a : Annotation) : a.conflicts a = true :=
  conflicts_iff.2 ⟨rfl, a.kind.conflicts_self⟩

theorem conflicts_comm (a b : Annotation) : a.conflicts b = b.conflicts a := by
  rw [conflicts, conflicts, AnnotationKind.conflicts_symm]
  simp [eq_comm]

end Annotation

namespace Ledger

variable {a : Annotation} {annotations : List Annotation}

/-- The annotations of a sequence with which no later one conflicts. -/
def survivors : List Annotation → List Annotation
  | [] => []
  | a :: rest => if rest.any (·.conflicts a) then survivors rest else a :: survivors rest

/-- Of the annotations before a sequence those stay with which nothing in it conflicts; after them
come the survivors of the sequence. -/
theorem entries_extend (l : Ledger) (annotations : List Annotation) :
    (l.extend annotations).entries =
      (l.entries.filter fun b => !annotations.any (·.conflicts b)) ++ survivors annotations := by
  induction annotations generalizing l with
  | nil =>
    have hall : l.entries.filter (fun _ => true) = l.entries :=
      List.filter_eq_self.2 fun _ _ => rfl
    simp [extend, survivors, hall]
  | cons a rest ih =>
    have hstep : l.extend (a :: rest) = (l.add a).extend rest := rfl
    rw [hstep, ih, add, List.filter_append, List.filter_filter, survivors, List.append_assoc]
    congr 1
    · refine List.filter_congr fun b _ => ?_
      rw [List.any_cons, Bool.not_or, Bool.and_comm]
    · cases hany : rest.any (·.conflicts a) <;> simp [hany]

/-- The ledger of a sequence has the survivors of the sequence. -/
theorem entries_ofList (annotations : List Annotation) :
    (ofList annotations).entries = survivors annotations := by
  rw [ofList, entries_extend]
  rfl

theorem survivors_sublist (annotations : List Annotation) :
    (survivors annotations).Sublist annotations := by
  induction annotations with
  | nil => exact List.Sublist.refl []
  | cons a rest ih =>
    rw [survivors]
    split
    · exact ih.cons a
    · exact ih.cons_cons a

/-- Where nothing conflicts, all survive. -/
theorem survivors_eq_self (h : annotations.Pairwise fun a b => b.conflicts a = false) :
    survivors annotations = annotations := by
  induction annotations with
  | nil => rfl
  | cons a rest ih =>
    obtain ⟨ha, hrest⟩ := List.pairwise_cons.1 h
    have hany : rest.any (·.conflicts a) = false := by simpa using ha
    rw [survivors, hany, ih hrest]
    rfl

/-- What does not survive conflicts with another annotation of the sequence. -/
theorem mem_survivors_or_exists (h : a ∈ annotations) :
    a ∈ survivors annotations ∨ ∃ b ∈ annotations, b ≠ a ∧ b.conflicts a = true := by
  induction annotations with
  | nil => cases h
  | cons x rest ih =>
    by_cases hrest : a ∈ rest
    · rcases ih hrest with hsurvives | ⟨b, hb, hne, hconflict⟩
      · left
        rw [survivors]
        split
        · exact hsurvives
        · exact List.mem_cons_of_mem _ hsurvives
      · exact .inr ⟨b, List.mem_cons_of_mem _ hb, hne, hconflict⟩
    · -- `a` occurs only here, so whatever conflicts with it later is another annotation
      have hax : a = x := by simpa [hrest] using h
      subst hax
      cases hany : rest.any (·.conflicts a) with
      | false =>
        left
        rw [survivors, hany]
        exact List.mem_cons_self ..
      | true =>
        obtain ⟨b, hb, hconflict⟩ := List.any_eq_true.1 hany
        exact .inr ⟨b, List.mem_cons_of_mem _ hb, fun heq => hrest (heq ▸ hb), hconflict⟩

section Pairwise

variable {b : Annotation} (h : annotations.Pairwise fun a b => b.conflicts a = false)
include h

/-- In a sequence without conflicts no annotation conflicts with a different one. -/
theorem conflicts_eq_false_of_pairwise (ha : a ∈ annotations) (hb : b ∈ annotations)
    (hne : a ≠ b) : a.conflicts b = false := by
  have hsymm : Std.Symm fun a b : Annotation => b.conflicts a = false :=
    ⟨fun x y hxy => (x.conflicts_comm y).trans hxy⟩
  rw [a.conflicts_comm]
  exact h.forall ha hb hne

/-- A sequence without conflicts has no annotation twice. -/
theorem nodup_of_pairwise : annotations.Nodup := by
  refine h.imp ?_
  rintro a _ hfree rfl
  rw [a.conflicts_refl] at hfree
  cases hfree

end Pairwise

/-- Different annotations of a ledger do not conflict. -/
theorem conflicts_eq_false_of_mem {b : Annotation} (ha : a ∈ (ofList annotations).entries)
    (hb : b ∈ (ofList annotations).entries) (hne : a ≠ b) : a.conflicts b = false :=
  conflicts_eq_false_of_pairwise (entries_pairwise annotations) ha hb hne

/-- No annotation is in a ledger twice. -/
theorem nodup_entries (annotations : List Annotation) : (ofList annotations).entries.Nodup :=
  nodup_of_pairwise (entries_pairwise annotations)

end Ledger

end ApiEvolution
