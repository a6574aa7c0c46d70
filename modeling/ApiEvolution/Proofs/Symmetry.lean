import ApiEvolution.Proofs.EditDistance
import ApiEvolution.Proofs.TypeOrder
import ApiEvolution.Similarity.Element

/-!
# Scores do not depend on the direction

The score of two elements is the same when the snapshots change places (`elementSimilarity_comm`).

* The edit distance of two sequences is the same either way (`editDistance_comm`).
* Sets without repetition have as many elements in common with each other either way
  (`length_intersection_comm`), and so does what is made of such sets: texts, the values of an
  enumeration, the members of a union.
-/

namespace ApiEvolution.Similarity

/-! ## Sequences and texts -/

theorem sequenceSimilarity_comm {α : Type} [DecidableEq α] (xs ys : List α) :
    sequenceSimilarity xs ys = sequenceSimilarity ys xs := by
  rw [sequenceSimilarity, sequenceSimilarity, editDistance_comm, Nat.max_comm]

theorem nameSimilarity_comm (a b : String) : nameSimilarity a b = nameSimilarity b a := by
  simp only [nameSimilarity, eq_comm (a := a), sequenceSimilarity_comm a.toList]

theorem textSimilarity_comm (a b : String) : textSimilarity a b = textSimilarity b a := by
  simp only [textSimilarity, eq_comm (a := a), sequenceSimilarity_comm (Text.words a.toList)]

/-! ## Overlap of sets -/

section Overlap

variable {α : Type} {same : α → α → Bool} {xs ys : List α}

theorem mem_intersection (hsame : ∀ x y, same x y = true ↔ x = y) {x : α} :
    x ∈ intersection same xs ys ↔ x ∈ xs ∧ x ∈ ys := by
  simp [intersection, hsame]

/-- Two sets have as many elements in common either way. -/
theorem length_intersection_comm (hsame : ∀ x y, same x y = true ↔ x = y) (hxs : xs.Nodup)
    (hys : ys.Nodup) : (intersection same xs ys).length = (intersection same ys xs).length := by
  refine List.Perm.length_eq ((List.perm_ext_iff_of_nodup (hxs.filter _) (hys.filter _)).2 ?_)
  intro x
  exact (mem_intersection hsame).trans (and_comm.trans (mem_intersection hsame).symm)

theorem jaccard_comm (hsame : ∀ x y, same x y = true ↔ x = y) (hxs : xs.Nodup) (hys : ys.Nodup) :
    jaccard same xs ys = jaccard same ys xs := by
  rw [jaccard, jaccard, length_intersection_comm hsame hxs hys, Nat.add_comm]

end Overlap

theorem textOverlap_comm (a b : List String) : textOverlap a b = textOverlap b a :=
  jaccard_comm (fun _ _ => decide_eq_true_iff) (SortedSet.nodup_ofList a) (SortedSet.nodup_ofList b)

/-! ## Types -/

theorem sameType_iff {a b : ValueType} : sameType a b = true ↔ a = b :=
  decide_eq_true_iff.trans ValueType.compare_eq_iff

theorem sameType_comm (a b : ValueType) : sameType a b = sameType b a := by
  rw [Bool.eq_iff_iff, sameType_iff, sameType_iff, eq_comm]

/-- Types of sets are as alike as they are the other way round. -/
theorem typeSimilarity_comm {s t : Option ValueType} (hs : ∀ a ∈ s, a.HasSets)
    (ht : ∀ b ∈ t, b.HasSets) : typeSimilarity s t = typeSimilarity t s := by
  cases s with
  | none => cases t <;> rfl
  | some a =>
    cases t with
    | none => rfl
    | some b =>
      have ha : a.HasSets := hs a rfl
      have hb : b.HasSets := ht b rfl
      have hmembers : jaccard sameType a.members b.members = jaccard sameType b.members a.members :=
        jaccard_comm (fun _ _ => sameType_iff) (ValueType.nodup_members ha)
          (ValueType.nodup_members hb)
      unfold typeSimilarity
      dsimp only
      rw [sameType_comm b a]
      refine if_congr Iff.rfl rfl ?_
      cases a <;> cases b
      case named.named u v => exact congrArg (0.5 * ·) (nameSimilarity_comm u v)
      case enumeration.enumeration us vs =>
        exact jaccard_comm (fun _ _ => decide_eq_true_iff) ha hb
      case boundary.boundary u v => simp only [eq_comm]
      -- all others either involve a union or have no similarity
      all_goals first | exact hmembers | rfl

/-! ## Elements -/

variable {old new : Snapshot}

theorem classSimilarity_comm (w : Weights) (a b : ClassDecl) :
    classSimilarity w old a new b = classSimilarity w new b old a := by
  simp only [classSimilarity, nameSimilarity_comm a.name, textSimilarity_comm a.description,
    textOverlap_comm a.superclasses, textOverlap_comm (childNames old _), eq_comm (a := a.code)]

theorem functionSimilarity_comm (w : Weights) (a b : FunctionDecl) :
    functionSimilarity w old a new b = functionSimilarity w new b old a := by
  simp only [functionSimilarity, nameSimilarity_comm a.name, textSimilarity_comm a.description,
    sequenceSimilarity_comm (childNames old _), textOverlap_comm a.decorators,
    eq_comm (a := a.code)]

theorem parameterSimilarity_comm (w : Weights) (a b : ParameterDecl) :
    parameterSimilarity w a b = parameterSimilarity w b a := by
  have htype : typeSimilarity a.type b.type = typeSimilarity b.type a.type :=
    typeSimilarity_comm (fun _ ht => TypeText.hasSets_of_resolve (a.type_eq.symm.trans ht))
      (fun _ ht => TypeText.hasSets_of_resolve (b.type_eq.symm.trans ht))
  simp only [parameterSimilarity, htype, nameSimilarity_comm a.name,
    textSimilarity_comm a.doc.description, eq_comm (a := a.defaultValue),
    eq_comm (a := a.assignedBy)]

theorem memberSimilarity_comm (w : Weights) (a b : MemberDecl) :
    memberSimilarity w a b = memberSimilarity w b a := by
  have htype : typeSimilarity a.type b.type = typeSimilarity b.type a.type :=
    typeSimilarity_comm (fun _ ht => TypeText.hasSets_of_resolve (a.type_eq.symm.trans ht))
      (fun _ ht => TypeText.hasSets_of_resolve (b.type_eq.symm.trans ht))
  simp only [memberSimilarity, htype, nameSimilarity_comm a.name,
    textSimilarity_comm a.doc.description]

/-- The score of two elements is the same when the snapshots change places. -/
theorem elementSimilarity_comm (w : Weights) (x y : Element) :
    elementSimilarity w old new x y = elementSimilarity w new old y x := by
  cases x <;> cases y <;> simp only [elementSimilarity]
  case ofClass.ofClass a b => exact classSimilarity_comm w a b
  case ofFunction.ofFunction a b => exact functionSimilarity_comm w a b
  case ofParameter.ofParameter a b => exact parameterSimilarity_comm w a b
  case ofAttribute.ofAttribute a b => exact memberSimilarity_comm w a b
  case ofResult.ofResult a b => exact memberSimilarity_comm w a b

end ApiEvolution.Similarity
