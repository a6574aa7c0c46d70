/-!
# Disjoint sets

A `Forest` divides the numbers below its size into classes. Every number has a link to a number of
its class that is not greater; a number that links to itself is the root of its class. So following
links leads down to the root, which is the least number of the class.

* `find` gives the root and lets the numbers on the way link to it directly; `root` only looks.
* `union` joins two classes by linking the greater root to the smaller one.
-/

namespace ApiEvolution

/-- Numbers linked to numbers of their class, never upwards. -/
structure Forest where
  links : Array Nat
  links_le : ∀ i, links.getD i i ≤ i

namespace Forest

/-- The link of a number; beyond the forest every number links to itself. -/
def link (f : Forest) (i : Nat) : Nat :=
  f.links.getD i i

theorem link_le (f : Forest) (i : Nat) : f.link i ≤ i :=
  f.links_le i

/-- The forest in which each number below a size is a class of its own. -/
def singletons (size : Nat) : Forest where
  links := Array.range size
  links_le i := by
    by_cases h : i < size <;> simp [Array.getD, h]

/-- Make a number link to one that is not greater. -/
def relink (f : Forest) (i target : Nat) (h : target ≤ i) : Forest where
  links := f.links.setIfInBounds i target
  links_le j := by
    have hj := f.links_le j
    simp only [Array.getD_eq_getD_getElem?] at hj ⊢
    rw [Array.getElem?_setIfInBounds]
    split
    · next hij =>
      subst hij
      split
      · simpa using h
      · simp
    · exact hj

/-- The root of a number. -/
def root (f : Forest) (i : Nat) : Nat :=
  if f.link i < i then f.root (f.link i) else i
termination_by i

/-- Let the numbers on the way from `i` to its root link to the root. -/
def compress (f : Forest) (target i : Nat) : Forest :=
  if f.link i = target then f
  else if h : target ≤ i ∧ f.link i < i then
    (f.relink i target h.1).compress target (f.link i)
  else f
termination_by i
decreasing_by exact h.2

/-- The root of a number, and the forest in which the numbers on the way link to it. -/
def find (f : Forest) (i : Nat) : Nat × Forest :=
  (f.root i, f.compress (f.root i) i)

/-- Join the classes of two numbers. -/
def union (f : Forest) (a b : Nat) : Forest :=
  let (ra, f) := f.find a
  let (rb, f) := f.find b
  if h : ra < rb then f.relink rb ra (Nat.le_of_lt h)
  else if h : rb < ra then f.relink ra rb (Nat.le_of_lt h)
  else f

theorem root_le (f : Forest) (i : Nat) : f.root i ≤ i := by
  induction i using Nat.strongRecOn with
  | ind i ih =>
    rw [root]
    split
    · next h => exact Nat.le_trans (ih _ h) (f.link_le i)
    · exact Nat.le_refl i

end Forest

end ApiEvolution
