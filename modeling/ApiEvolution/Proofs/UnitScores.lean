import ApiEvolution.Proofs.Candidates
import ApiEvolution.Stage.Pipeline

/-!
# Scores do not exceed the full one

Every score that a stage computes is moved into the unit interval at last, so that none is above 1
(`Comparison.not_one_lt_score`), and neither is the similarity of a mapping
(`Matcher.not_one_lt_similarity`). A score of 1 reaches every threshold that is a number
(`Similarity.keeps_one`).

The statements say that 1 is not less than a score: a score that is not a number would be neither
less than 1 nor greater.
-/

namespace ApiEvolution

namespace Similarity

/-! ## Comparing doubles -/

section Order

open Float.Model UnpackedFloat

/-- Two numbers compare the other way round when they are exchanged. -/
theorem exists_compare {a b : UnpackedFloat} (ha : a.isNaN = false) (hb : b.isNaN = false) :
    ∃ o : Ordering, a.compare b = some o ∧ b.compare a = some o.swap := by
  have hfinite : ∀ (e e' : Int) (m m' : Nat), (compare e' e).then (compare m' m) =
      ((compare e e').then (compare m m')).swap := by
    intro e e' m m'
    rw [Ordering.swap_then, ← Std.OrientedOrd.eq_swap, ← Std.OrientedOrd.eq_swap]
  cases a with
  | notANumber => cases ha
  | infinity s =>
    cases b with
    | notANumber => cases hb
    | infinity s' => cases s <;> cases s' <;> exact ⟨_, rfl, rfl⟩
    | zero _ => cases s <;> exact ⟨_, rfl, rfl⟩
    | finite s' _ _ _ => cases s <;> cases s' <;> exact ⟨_, rfl, rfl⟩
  | zero s =>
    cases b with
    | notANumber => cases hb
    | infinity s' => cases s' <;> exact ⟨_, rfl, rfl⟩
    | zero _ => exact ⟨_, rfl, rfl⟩
    | finite s' _ _ _ => cases s' <;> exact ⟨_, rfl, rfl⟩
  | finite s m e _ =>
    cases b with
    | notANumber => cases hb
    | infinity s' => cases s <;> cases s' <;> exact ⟨_, rfl, rfl⟩
    | zero _ => cases s <;> exact ⟨_, rfl, rfl⟩
    | finite s' m' e' _ =>
      cases s <;> cases s'
      case negative.negative =>
        exact ⟨_, rfl, congrArg (fun o : Ordering => some o.swap) (hfinite e e' m m')⟩
      case positive.positive => exact ⟨_, rfl, congrArg some (hfinite e e' m m')⟩
      all_goals exact ⟨_, rfl, rfl⟩

theorem lt_iff_compare {x y : Float} :
    x < y ↔ x.toModel.unpack.compare y.toModel.unpack = some .lt := by
  have hfloat : x < y ↔ Float.lt x y = true := Iff.rfl
  have hmodel : x.toModel < y.toModel ↔ x.toModel.unpack.lt y.toModel.unpack = true := Iff.rfl
  rw [hfloat, Float.lt, decide_eq_true_iff, hmodel, UnpackedFloat.lt, beq_iff_eq]

theorem le_iff_compare {x y : Float} :
    x ≤ y ↔ (x.toModel.unpack.compare y.toModel.unpack).any (·.isLE) = true := by
  have hfloat : x ≤ y ↔ Float.le x y = true := Iff.rfl
  rw [hfloat, Float.le, decide_eq_true_iff]
  exact Iff.rfl

/-- Of two numbers one is less than the other, or the other is at most that one. -/
theorem number_le_of_not_lt {x y : Float} (hx : x.isNaN = false) (hy : y.isNaN = false)
    (h : ¬ x < y) : y ≤ x := by
  obtain ⟨o, hxy, hyx⟩ := exists_compare hx hy
  rw [lt_iff_compare, hxy] at h
  rw [le_iff_compare, hyx]
  cases o with
  | lt => exact absurd rfl h
  | eq | gt => rfl

theorem not_lt_of_number_le {x y : Float} (hx : x.isNaN = false) (hy : y.isNaN = false)
    (h : x ≤ y) : ¬ y < x := by
  obtain ⟨o, hxy, hyx⟩ := exists_compare hx hy
  rw [le_iff_compare, hxy] at h
  rw [lt_iff_compare, hyx]
  cases o with
  | lt | eq => simp
  | gt => cases h

end Order

/-! ## The unit interval -/

theorem not_one_lt_clampUnit (x : Float) : ¬ 1 < clampUnit x := by
  rw [clampUnit]
  split
  · decide
  · split
    · decide
    · assumption

theorem clampUnit_le_one {x : Float} (h : x.isNaN = false) : clampUnit x ≤ 1 := by
  rw [clampUnit]
  split
  · decide
  · split
    · decide
    · next hnot => exact number_le_of_not_lt (by decide) h hnot

/-- The full score is kept, whatever number the threshold is made of. -/
theorem keeps_one {threshold : Float} (h : threshold.isNaN = false) :
    Matcher.keeps (clampUnit threshold) 1 = true :=
  Matcher.keeps_iff.2 ⟨by decide, clampUnit_le_one h⟩

/-! ## Scores -/

theorem not_one_lt_mean (b : Blend) : ¬ 1 < b.mean := by
  rw [Blend.mean]
  split
  · decide
  · exact not_one_lt_clampUnit _

theorem not_one_lt_elementSimilarity (w : Weights) (old new : Snapshot) (x y : Element) :
    ¬ 1 < elementSimilarity w old new x y := by
  unfold elementSimilarity
  split
  case h_6 => decide
  all_goals exact not_one_lt_mean _

end Similarity

open Similarity

namespace Comparison

variable {c : Comparison} {boost : Float} {x y : Element}

theorem not_one_lt_strict : ¬ 1 < c.strict x y := by
  rw [strict]
  split
  · exact not_one_lt_elementSimilarity _ _ _ _ _
  · decide

theorem not_one_lt_unchanged : ¬ 1 < c.unchanged boost x y := by
  rw [unchanged]
  split
  · decide
  · split
    · decide
    · exact not_one_lt_clampUnit _

/-- No score of a stage is above 1. -/
theorem not_one_lt_score (stage : Stage) : ¬ 1 < c.score boost stage x y := by
  cases stage with
  | naive => exact not_one_lt_elementSimilarity _ _ _ _ _
  | strict => exact not_one_lt_strict
  | inheritance => exact not_one_lt_clampUnit _
  | unchanged => exact not_one_lt_unchanged

end Comparison

/-! ## Similarities of mappings -/

namespace Matcher

theorem not_one_lt_foldl_greater {scores : List Float} {a : Float} (ha : ¬ 1 < a)
    (h : ∀ s ∈ scores, ¬ 1 < s) : ¬ 1 < scores.foldl greater a := by
  induction scores generalizing a with
  | nil => exact ha
  | cons s rest ih =>
    obtain ⟨hs, hrest⟩ := List.forall_mem_cons.1 h
    refine ih ?_ hrest
    rw [greater]
    split
    · exact hs
    · exact ha

/-- A mapping rests on scores of pairs, so that its similarity is not above 1 if none of them is. -/
theorem not_one_lt_similarity {score : Scorer} {threshold : Float} {old new : Snapshot}
    (hscore : ∀ x y, ¬ 1 < score x y) {m : Mapping}
    (hm : m ∈ candidates score threshold old new) : ¬ 1 < m.similarity := by
  obtain ⟨kind, hkind⟩ := mem_candidates.1 hm
  obtain ⟨sources, targets, -, hmatch⟩ := mem_candidatesOf.1 hkind
  obtain ⟨root, -, hroot⟩ := mem_matchArranged.1 hmatch
  obtain ⟨_, -, rfl⟩ := Option.map_eq_some_iff.1 hroot
  refine not_one_lt_foldl_greater (by decide) ?_
  intro s hs
  obtain ⟨e, he, rfl⟩ := List.mem_map.1 hs
  obtain ⟨x, y, -, -, -, hxy⟩ := mem_edges.1 (List.mem_of_mem_filter he)
  rw [hxy]
  exact hscore x y

end Matcher

end ApiEvolution
