import Mathlib.Logic.Relation
import Mathlib.Tactic.Common
import ApiEvolution.Mapping.Forest

/-!
# The classes of a forest

Two numbers are in one class of a forest if they have the same root. This file shows that the
operations do with the classes what they are meant to do.

* `find` leaves every root as it is (`root_find`), though it changes links on the way.
* `union` gives the numbers of two classes the smaller of the two roots and leaves all other roots
  as they are (`root_union`).
* So a run of unions yields the classes of the equivalence relation that the united pairs generate
  (`Represents.foldl_union`), and the root is the least number of its class (`root_le_of_same`).
-/

namespace ApiEvolution.Forest

variable {f : Forest}

/-- How many numbers the forest divides into classes. -/
def size (f : Forest) : Nat :=
  f.links.size

/-! ## Links and roots -/

theorem root_of_link_eq {i : Nat} (h : f.link i = i) : f.root i = i := by
  rw [root, if_neg (by omega)]

theorem root_link (f : Forest) (i : Nat) : f.root (f.link i) = f.root i := by
  by_cases h : f.link i < i
  · conv_rhs => rw [root, if_pos h]
  · have hi : f.link i = i := Nat.le_antisymm (f.link_le i) (Nat.not_lt.1 h)
    rw [hi]

theorem link_root (f : Forest) (i : Nat) : f.link (f.root i) = f.root i := by
  induction i using Nat.strongRecOn with
  | ind i ih =>
    by_cases h : f.link i < i
    · rw [← root_link]
      exact ih _ h
    · have hi : f.link i = i := Nat.le_antisymm (f.link_le i) (Nat.not_lt.1 h)
      rw [root_of_link_eq hi, hi]

theorem root_root (f : Forest) (i : Nat) : f.root (f.root i) = f.root i :=
  root_of_link_eq (f.link_root i)

theorem root_lt_size {i : Nat} (h : i < f.size) : f.root i < f.size :=
  Nat.lt_of_le_of_lt (f.root_le i) h

/-- Forests with the same links have the same roots. -/
theorem root_congr {g : Forest} (h : ∀ i, g.link i = f.link i) (i : Nat) : g.root i = f.root i := by
  induction i using Nat.strongRecOn with
  | ind i ih =>
    by_cases hlt : f.link i < i
    · rw [← root_link, h, ih _ hlt, root_link]
    · have hself : f.link i = i := Nat.le_antisymm (f.link_le i) (Nat.not_lt.1 hlt)
      rw [root_of_link_eq hself, root_of_link_eq ((h i).trans hself)]

/-- The root is the least number of its class. -/
theorem root_le_of_same {i j : Nat} (h : f.root i = f.root j) : f.root i ≤ j :=
  h ▸ f.root_le j

/-! ## Relinking -/

@[simp] theorem size_singletons (n : Nat) : (singletons n).size = n := by
  simp [singletons, size]

theorem root_singletons (n i : Nat) : (singletons n).root i = i := by
  refine root_of_link_eq ?_
  by_cases h : i < n <;> simp [link, singletons, Array.getD, h]

@[simp] theorem size_relink (f : Forest) {i t : Nat} (h : t ≤ i) :
    (f.relink i t h).size = f.size := by
  simp [relink, size]

theorem link_relink {i t : Nat} (h : t ≤ i) (hi : i < f.size) (j : Nat) :
    (f.relink i t h).link j = if j = i then t else f.link j := by
  have hi' : i < f.links.size := hi
  simp only [link, relink, Array.getD_eq_getD_getElem?, Array.getElem?_setIfInBounds, hi', if_true]
  by_cases hj : j = i
  · subst hj
    simp
  · rw [if_neg hj, if_neg (Ne.symm hj)]

theorem link_relink_of_size_le {i t : Nat} (h : t ≤ i) (hi : f.size ≤ i) (j : Nat) :
    (f.relink i t h).link j = f.link j := by
  have hi' : ¬ i < f.links.size := Nat.not_lt.2 hi
  simp [link, relink, Array.setIfInBounds, hi']

/-- Relinking a number to the root that it has anyway changes no root. -/
theorem root_relink_root (f : Forest) (i j : Nat) :
    (f.relink i (f.root i) (f.root_le i)).root j = f.root j := by
  set g := f.relink i (f.root i) (f.root_le i) with hg
  by_cases hi : i < f.size
  · have hlink : ∀ k, g.link k = if k = i then f.root i else f.link k := fun k =>
      link_relink (f.root_le i) hi k
    have hroot : g.root (f.root i) = f.root i := by
      refine root_of_link_eq ?_
      rw [hlink]
      split
      · rfl
      · exact f.link_root i
    -- a chain of links in `g` is one in `f` up to `i`, from where it jumps to the root
    induction j using Nat.strongRecOn with
    | ind j ih =>
      by_cases hji : j = i
      · rw [hji, ← root_link, hlink, if_pos rfl, hroot]
      · have hj : g.link j = f.link j := by rw [hlink, if_neg hji]
        by_cases hlt : f.link j < j
        · rw [← root_link, hj, ih _ hlt, root_link]
        · have hself : f.link j = j := Nat.le_antisymm (f.link_le j) (Nat.not_lt.1 hlt)
          rw [root_of_link_eq hself, root_of_link_eq (hj.trans hself)]
  · exact root_congr (link_relink_of_size_le _ (Nat.not_lt.1 hi)) j

/-- Linking a root to a smaller one gives that one to its whole class. -/
theorem root_relink {r t : Nat} (h : t ≤ r) (hr : r < f.size) (hrr : f.root r = r)
    (ht : f.root t = t) (j : Nat) :
    (f.relink r t h).root j = if f.root j = r then t else f.root j := by
  have hlink := link_relink (f := f) h hr
  have hlinkr : f.link r = r := by rw [← hrr, f.link_root]
  have hlinkt : f.link t = t := by rw [← ht, f.link_root]
  have hroott : (f.relink r t h).root t = t := by
    refine root_of_link_eq ?_
    rw [hlink]
    split
    · rfl
    · exact hlinkt
  induction j using Nat.strongRecOn with
  | ind j ih =>
    by_cases hjr : j = r
    · rw [hjr, hrr, if_pos rfl, ← root_link, hlink, if_pos rfl, hroott]
    · have hj : (f.relink r t h).link j = f.link j := by rw [hlink, if_neg hjr]
      by_cases hlt : f.link j < j
      · rw [← root_link, hj, ih _ hlt, root_link]
      · have hself : f.link j = j := Nat.le_antisymm (f.link_le j) (Nat.not_lt.1 hlt)
        rw [root_of_link_eq hself, if_neg hjr, root_of_link_eq (hj.trans hself)]

/-! ## Finding and joining -/

theorem size_compress (f : Forest) (t i : Nat) : (f.compress t i).size = f.size := by
  fun_induction compress f t i with
  | case1 f i h => rfl
  | case2 f i _ h ih => rw [ih, size_relink]
  | case3 f i _ _ => rfl

theorem root_compress (f : Forest) {t i : Nat} (ht : t = f.root i) (j : Nat) :
    (f.compress t i).root j = f.root j := by
  fun_induction compress f t i with
  | case1 f i h => rfl
  | case2 f i _ h ih =>
    subst ht
    rw [ih ?_, root_relink_root]
    rw [root_relink_root, root_link]
  | case3 f i _ _ => rfl

@[simp] theorem size_find (f : Forest) (i : Nat) : (f.find i).2.size = f.size :=
  size_compress f _ i

/-- Finding a root changes none. -/
@[simp] theorem root_find (f : Forest) (i j : Nat) : (f.find i).2.root j = f.root j :=
  root_compress f rfl j

@[simp] theorem size_union (f : Forest) (a b : Nat) : (f.union a b).size = f.size := by
  simp only [union]
  split
  · simp
  · split <;> simp

/-- A union gives the smaller of the two roots to both classes. -/
theorem root_union {a b : Nat} (ha : a < f.size) (hb : b < f.size) (j : Nat) :
    (f.union a b).root j =
      if f.root j = max (f.root a) (f.root b) then min (f.root a) (f.root b) else f.root j := by
  set g := ((f.find a).2.find b).2 with hg
  have hroot : ∀ k, g.root k = f.root k := fun k => by rw [hg, root_find, root_find]
  have hsize : g.size = f.size := by rw [hg, size_find, size_find]
  have hra : f.root a < g.size := hsize ▸ root_lt_size ha
  have hrb : f.root b < g.size := hsize ▸ root_lt_size hb
  have hfa : (f.find a).1 = f.root a := rfl
  have hfb : ((f.find a).2.find b).1 = f.root b := root_find f a b
  simp only [union, hfa, hfb, ← hg]
  split
  · next h =>
    rw [root_relink _ hrb (by rw [hroot, root_root]) (by rw [hroot, root_root]), hroot,
      Nat.max_eq_right (Nat.le_of_lt h), Nat.min_eq_left (Nat.le_of_lt h)]
  · split
    · next h =>
      rw [root_relink _ hra (by rw [hroot, root_root]) (by rw [hroot, root_root]), hroot,
        Nat.max_eq_left (Nat.le_of_lt h), Nat.min_eq_right (Nat.le_of_lt h)]
    · next h h' =>
      have heq : f.root a = f.root b := by omega
      rw [hroot, heq, Nat.max_self, Nat.min_self]
      split
      · assumption
      · rfl

/-- After a union two numbers are in one class if they were before or if the union joined their
classes. -/
theorem same_union {a b : Nat} (ha : a < f.size) (hb : b < f.size) {i j : Nat} :
    (f.union a b).root i = (f.union a b).root j ↔
      f.root i = f.root j ∨ (f.root i = f.root a ∧ f.root b = f.root j) ∨
        (f.root i = f.root b ∧ f.root a = f.root j) := by
  rw [root_union ha hb, root_union ha hb]
  split <;> split <;> omega

/-! ## Runs of unions -/

/-- The forest divides the numbers below `n` into the classes of the equivalence relation that `r`
generates. -/
structure Represents (f : Forest) (n : Nat) (r : Nat → Nat → Prop) : Prop where
  size_eq : f.size = n
  root_eq_iff : ∀ i j, f.root i = f.root j ↔ Relation.EqvGen r i j

theorem represents_singletons (n : Nat) : Represents (singletons n) n fun _ _ => False where
  size_eq := size_singletons n
  root_eq_iff i j := by
    rw [root_singletons, root_singletons]
    constructor
    · rintro rfl
      exact .refl i
    · intro h
      induction h with
      | rel _ _ h => exact h.elim
      | refl _ => rfl
      | symm _ _ _ ih => exact ih.symm
      | trans _ _ _ _ _ ih₁ ih₂ => exact ih₁.trans ih₂

/-- One union adds one pair to the relation. -/
theorem Represents.union {n : Nat} {r : Nat → Nat → Prop} (h : Represents f n r) {a b : Nat}
    (ha : a < n) (hb : b < n) :
    Represents (f.union a b) n fun x y => r x y ∨ (x = a ∧ y = b) where
  size_eq := (size_union f a b).trans h.size_eq
  root_eq_iff i j := by
    rw [same_union (h.size_eq ▸ ha) (h.size_eq ▸ hb)]
    constructor
    · have hold : ∀ {x y}, f.root x = f.root y →
          Relation.EqvGen (fun x y => r x y ∨ (x = a ∧ y = b)) x y := fun hxy =>
        ((h.root_eq_iff _ _).1 hxy).mono fun _ _ => Or.inl
      have hab : Relation.EqvGen (fun x y => r x y ∨ (x = a ∧ y = b)) a b :=
        .rel a b (Or.inr ⟨rfl, rfl⟩)
      rintro (hij | ⟨hia, hbj⟩ | ⟨hib, haj⟩)
      · exact hold hij
      · exact .trans _ _ _ (hold hia) (.trans _ _ _ hab (hold hbj))
      · exact .trans _ _ _ (hold hib) (.trans _ _ _ (.symm _ _ hab) (hold haj))
    · intro hij
      rw [← same_union (h.size_eq ▸ ha) (h.size_eq ▸ hb)]
      induction hij with
      | rel x y hxy =>
        rw [same_union (h.size_eq ▸ ha) (h.size_eq ▸ hb)]
        rcases hxy with hxy | ⟨rfl, rfl⟩
        · exact Or.inl ((h.root_eq_iff _ _).2 (.rel _ _ hxy))
        · exact Or.inr (Or.inl ⟨rfl, rfl⟩)
      | refl _ => rfl
      | symm _ _ _ ih => exact ih.symm
      | trans _ _ _ _ _ ih₁ ih₂ => exact ih₁.trans ih₂

/-- A run of unions adds all its pairs. -/
theorem Represents.foldl_union {n : Nat} {r : Nat → Nat → Prop} (h : Represents f n r)
    {pairs : List (Nat × Nat)} (hp : ∀ p ∈ pairs, p.1 < n ∧ p.2 < n) :
    Represents (pairs.foldl (fun f p => f.union p.1 p.2) f) n fun x y =>
      r x y ∨ (x, y) ∈ pairs := by
  induction pairs generalizing f r with
  | nil => simpa using h
  | cons p rest ih =>
    have hp' := hp p (List.mem_cons_self ..)
    have hrun := ih (h.union hp'.1 hp'.2) fun q hq => hp q (List.mem_cons_of_mem _ hq)
    simpa [or_assoc, Prod.ext_iff] using hrun

end ApiEvolution.Forest
