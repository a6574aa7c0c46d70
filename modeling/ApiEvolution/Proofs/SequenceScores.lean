import Mathlib
import ApiEvolution.Proofs.DoubleArithmetic
import ApiEvolution.Proofs.EditDistance

/-!
# Scores of sequences

The edit distance is a metric, and at most the length of the longer sequence. So what is left of one
without its proportion to that length is from 0 to 1 (`editDistance_metric`). This goes for the
score that is computed with doubles (`sequenceSimilarity_unit`) as well as for the exact number
(`one_sub_editDistance_mem_Icc`).
-/

namespace ApiEvolution.Similarity

variable {α : Type} [DecidableEq α]

theorem one_sub_editDistance_mem_Icc (xs ys : List α) :
    1 - (editDistance xs ys : ℚ) / (max xs.length ys.length : ℕ) ∈ Set.Icc (0 : ℚ) 1 := by
  have hle : (editDistance xs ys : ℚ) / (max xs.length ys.length : ℕ) ≤ 1 :=
    div_le_one_of_le₀ (by exact_mod_cast editDistance_le_max xs ys) (Nat.cast_nonneg _)
  have hnonneg : 0 ≤ (editDistance xs ys : ℚ) / (max xs.length ys.length : ℕ) :=
    div_nonneg (Nat.cast_nonneg _) (Nat.cast_nonneg _)
  exact ⟨by linarith, by linarith⟩

/-- The score of two sequences is from 0 to 1 if their lengths fit a machine word. -/
theorem sequenceSimilarity_unit {xs ys : List α} (h : max xs.length ys.length < 2 ^ 64) :
    0 ≤ sequenceSimilarity xs ys ∧ sequenceSimilarity xs ys ≤ 1 := by
  rw [sequenceSimilarity]
  split
  · decide
  · next hlongest =>
    exact Doubles.one_sub_proportion (editDistance_le_max xs ys) (Nat.pos_of_ne_zero hlongest) h

/-- The edit distance of two sequences is the least number of edits between them. It is zero for
equal sequences only, symmetric, never longer than by way of another sequence, and at most the
length of the longer one, so that the score it is made into is from 0 to 1. -/
theorem editDistance_metric (xs ys : List α) :
    IsLeast {n | EditsTo n xs ys} (editDistance xs ys) ∧
      (editDistance xs ys = 0 ↔ xs = ys) ∧
      editDistance xs ys = editDistance ys xs ∧
      (∀ zs, editDistance xs zs ≤ editDistance xs ys + editDistance ys zs) ∧
      editDistance xs ys ≤ max xs.length ys.length ∧
      1 - (editDistance xs ys : ℚ) / (max xs.length ys.length : ℕ) ∈ Set.Icc (0 : ℚ) 1 ∧
      (max xs.length ys.length < 2 ^ 64 →
        0 ≤ sequenceSimilarity xs ys ∧ sequenceSimilarity xs ys ≤ 1) :=
  ⟨isLeast_editDistance xs ys, editDistance_eq_zero_iff xs ys, editDistance_comm xs ys,
    editDistance_triangle xs ys, editDistance_le_max xs ys, one_sub_editDistance_mem_Icc xs ys,
    sequenceSimilarity_unit⟩

/-- Two edits lead from one of these texts to the other. -/
theorem editDistance_metric_words :
    editDistance ["fit", "the", "model"] ["fit", "a", "model", "quickly"] = 2 ∧
      0 ≤ sequenceSimilarity ["fit", "the", "model"] ["fit", "a", "model", "quickly"] ∧
      sequenceSimilarity ["fit", "the", "model"] ["fit", "a", "model", "quickly"] ≤ 1 :=
  ⟨by decide, (editDistance_metric _ _).2.2.2.2.2.2 (by decide)⟩

end ApiEvolution.Similarity
