import Mathlib.Data.List.Perm.Subperm
import ApiEvolution.Proofs.EditDistance
import ApiEvolution.Proofs.TypeOrder
import ApiEvolution.Similarity.Element

/-!
# Everything is fully similar to itself

An element that is compared with itself gets the score 1, whatever it consists of
(`elementSimilarity_self`): names and texts are equal, the edit distance of a sequence to itself is
0 (`editDistance_self`), a set has itself in common with itself (`jaccard_self`), a type equals
itself (`sameType_self`), and the mean of full signals is full.

Distances and overlaps are divided by counts. Of the arithmetic of doubles it is assumed that this
gives 1 or 0 exactly where it has to (`ExactCount`), for the counts that an element gives rise to.
-/

namespace ApiEvolution

namespace Similarity

/-! ## Counts -/

/-- In the arithmetic of doubles a count divided by itself is 1, and nothing divided by it leaves 1
as it is. -/
def ExactCount (n : Nat) : Prop :=
  Float.ofNat n / Float.ofNat n = 1 ∧ 1 - Float.ofNat 0 / Float.ofNat n = 1

instance (n : Nat) : Decidable (ExactCount n) :=
  inferInstanceAs (Decidable (_ ∧ _))

/-- Counts up to a bound are exact, except that nothing is divided by zero. -/
def ExactUpTo (bound : Nat) : Prop :=
  ∀ n, 0 < n → n ≤ bound → ExactCount n

theorem ExactUpTo.mono {bound bound' : Nat} (h : ExactUpTo bound') (hle : bound ≤ bound') :
    ExactUpTo bound :=
  fun n hpos hn => h n hpos (Nat.le_trans hn hle)

theorem sequenceSimilarity_self {α : Type} [DecidableEq α] {xs : List α}
    (h : ExactUpTo xs.length) : sequenceSimilarity xs xs = 1 := by
  rw [sequenceSimilarity, editDistance_self, Nat.max_self]
  split
  · rfl
  · next hne => exact (h _ (Nat.pos_of_ne_zero hne) (Nat.le_refl _)).2

theorem intersection_self {α : Type} {same : α → α → Bool} (hsame : ∀ x, same x x = true)
    (xs : List α) : intersection same xs xs = xs := by
  refine List.filter_eq_self.2 ?_
  intro x hx
  exact List.any_eq_true.2 ⟨x, hx, hsame x⟩

theorem jaccard_self {α : Type} {same : α → α → Bool} (hsame : ∀ x, same x x = true)
    {xs : List α} (h : ExactUpTo xs.length) : jaccard same xs xs = 1 := by
  rw [jaccard, intersection_self hsame, Nat.add_sub_cancel]
  split
  · rfl
  · next hne => exact (h _ (Nat.pos_of_ne_zero hne) (Nat.le_refl _)).1

/-! ## Texts and types -/

theorem nameSimilarity_self (a : String) : nameSimilarity a a = 1 :=
  if_pos rfl

theorem textSimilarity_self (a : String) : textSimilarity a a = 1 :=
  if_pos rfl

theorem length_ofTexts_le (texts : List String) :
    (SortedSet.ofTexts texts).length ≤ texts.length :=
  (List.subperm_of_subset (SortedSet.nodup_ofList texts) fun _ hx =>
    SortedSet.mem_ofList_iff.1 hx).length_le

theorem textOverlap_self {texts : List String} (h : ExactUpTo texts.length) :
    textOverlap texts texts = 1 :=
  jaccard_self (fun _ => by simp) (h.mono (length_ofTexts_le texts))

theorem sameType_self (t : ValueType) : sameType t t = true :=
  decide_eq_true (ValueType.compare_eq_iff.2 rfl)

theorem typeSimilarity_self (t : Option ValueType) : typeSimilarity t t = 1 := by
  cases t with
  | none => rfl
  | some t => simp [typeSimilarity, sameType_self]

end Similarity

/-! ## Elements -/

/-- The most things of which an element has a list or a set to compare. -/
def Element.breadth : Element → Nat
  | .ofClass c => max c.superclasses.length (c.methods.length + c.attributes.length)
  | .ofFunction f => max f.decorators.length (max f.parameters.length f.results.length)
  | _ => 0

namespace Similarity

variable {s : Snapshot}

theorem length_childNames (s : Snapshot) (ids : List String) :
    (childNames s ids).length = ids.length :=
  List.length_map _

theorem classSimilarity_self {c : ClassDecl} (h : ExactUpTo (Element.ofClass c).breadth) :
    classSimilarity {} s c s c = 1 := by
  have hsuperclasses : textOverlap c.superclasses c.superclasses = 1 :=
    textOverlap_self (h.mono (Nat.le_max_left _ _))
  have hmembers : textOverlap (childNames s (c.methods ++ c.attributes))
      (childNames s (c.methods ++ c.attributes)) = 1 := by
    refine textOverlap_self (h.mono ?_)
    rw [length_childNames, List.length_append]
    exact Nat.le_max_right _ _
  rw [classSimilarity, hsuperclasses, hmembers, nameSimilarity_self, textSimilarity_self]
  simp only [decide_true]
  decide +kernel

theorem functionSimilarity_self {f : FunctionDecl} (h : ExactUpTo (Element.ofFunction f).breadth) :
    functionSimilarity {} s f s f = 1 := by
  have hchildren : ∀ ids : List String, ids.length ≤ (Element.ofFunction f).breadth →
      sequenceSimilarity (childNames s ids) (childNames s ids) = 1 := by
    intro ids hids
    refine sequenceSimilarity_self (h.mono ?_)
    rw [length_childNames]
    exact hids
  have hbreadth : (Element.ofFunction f).breadth =
    max f.decorators.length (max f.parameters.length f.results.length) := rfl
  have hdecorators : textOverlap f.decorators f.decorators = 1 :=
    textOverlap_self (h.mono (Nat.le_max_left _ _))
  rw [functionSimilarity, hchildren _ (by omega), hchildren _ (by omega), hdecorators,
    nameSimilarity_self, textSimilarity_self]
  simp only [decide_true]
  decide +kernel

theorem parameterSimilarity_self (p : ParameterDecl) : parameterSimilarity {} p p = 1 := by
  rw [parameterSimilarity, nameSimilarity_self, typeSimilarity_self, textSimilarity_self]
  simp only [decide_true]
  decide +kernel

theorem memberSimilarity_self (m : MemberDecl) : memberSimilarity {} m m = 1 := by
  rw [memberSimilarity, nameSimilarity_self, typeSimilarity_self, textSimilarity_self]
  decide +kernel

/-- An element that is compared with itself gets the full score. -/
theorem elementSimilarity_self {e : Element} (h : ExactUpTo e.breadth) :
    elementSimilarity {} s s e e = 1 := by
  cases e with
  | ofClass c => exact classSimilarity_self h
  | ofFunction f => exact functionSimilarity_self h
  | ofParameter p => exact parameterSimilarity_self p
  | ofAttribute a => exact memberSimilarity_self a
  | ofResult r => exact memberSimilarity_self r

end Similarity

end ApiEvolution
