import Mathlib.Data.PFun
import Mathlib.Order.Bounds.Defs
import ApiEvolution.Proofs.Forest

/-!
# The loops over links end

A forest carries the proof that no link leads upwards, and its loops test for it. Here the same work
is done on a plain array of links, with loops that look only for the root: `climb` walks to it and
`shorten` lets the numbers on the way link to it. Such a loop could run in circles or leave the
array, so it has a partial value, which is defined if it does neither.

In an array that calls have made of singletons both loops end (`Links.run_divides`). The array is
that of a forest on which the same calls are made (`Links.run_eq`), so no link leads upwards and the
walk gets lower with every link (`Links.climb_links`, `Links.shorten_links`); and the classes of that
forest are what the united pairs connect (`Forest.represents_run`).
-/

namespace ApiEvolution

/-- A call on the classes of the numbers below `n`. -/
inductive ForestCall (n : Nat) where
  | find (a : Fin n)
  | union (a b : Fin n)

/-- The pairs that some calls unite. -/
def ForestCall.united {n : Nat} (calls : List (ForestCall n)) : List (Nat × Nat) :=
  calls.filterMap fun
    | .find _ => none
    | .union a b => some (a, b)

/-- Whether the pairs that some calls unite connect two numbers. -/
def ForestCall.Connected {n : Nat} (calls : List (ForestCall n)) : Nat → Nat → Prop :=
  Relation.EqvGen fun a b => (a, b) ∈ united calls

/-! ## Arrays of links -/

namespace Links

/-- Each number below a size links to itself. -/
def singletons (size : Nat) : Array Nat :=
  Array.range size

/-- Follow the links from a number until one links to itself. -/
def climb (links : Array Nat) : Nat →. Nat :=
  PFun.fix fun i => Part.ofOption (links[i]?.map fun next => if next = i then .inl i else .inr next)

/-- Follow the links from a number until one links to `root`, and let all numbers before it link
there. -/
def shorten (root : Nat) : Array Nat × Nat →. Array Nat :=
  PFun.fix fun (links, i) => Part.ofOption (links[i]?.map fun next =>
    if next = root then .inl links else .inr (links.setIfInBounds i root, next))

/-- The root of a number, and the links with a shorter way to it. -/
def find (links : Array Nat) (i : Nat) : Part (Nat × Array Nat) := do
  let root ← climb links i
  let after ← shorten root (links, i)
  pure (root, after)

/-- Let the greater of the roots of two numbers link to the smaller one. -/
def union (links : Array Nat) (a b : Nat) : Part (Array Nat) := do
  let (ra, links) ← find links a
  let (rb, links) ← find links b
  if ra = rb then pure links
  else if max ra rb < links.size then pure (links.setIfInBounds (max ra rb) (min ra rb))
  else Part.none

/-- The links after a call. -/
def perform {n : Nat} (links : Array Nat) : ForestCall n → Part (Array Nat)
  | .find a => (find links a).map Prod.snd
  | .union a b => union links a b

/-- The links after some calls on numbers that link to themselves. -/
def run (n : Nat) (calls : List (ForestCall n)) : Part (Array Nat) :=
  calls.foldlM perform (singletons n)

/-- Two numbers share a class if they have one root. -/
def Same (links : Array Nat) (a b : Nat) : Prop :=
  ∃ root, climb links a = Part.some root ∧ climb links b = Part.some root

/-! ## The links of a forest -/

variable {f : Forest} {i : Nat}

theorem getElem?_links (hi : i < f.size) : f.links[i]? = some (f.link i) := by
  have hi' : i < f.links.size := hi
  simp [Forest.link, Array.getD, hi']

/-- In a forest the walk ends at the root. -/
theorem climb_links (hi : i < f.size) : climb f.links i = Part.some (f.root i) := by
  induction i using Nat.strongRecOn with
  | ind i ih =>
    have hlink := getElem?_links hi
    by_cases hself : f.link i = i
    · rw [Forest.root_of_link_eq hself]
      exact Part.eq_some_iff.2 (PFun.fix_stop (by simp [hlink, hself]))
    · have hlt : f.link i < i := Nat.lt_of_le_of_ne (f.link_le i) hself
      have hnext : climb f.links i = climb f.links (f.link i) :=
        PFun.fix_fwd_eq (by simp [hlink, hself])
      rw [hnext, ih _ hlt (Nat.lt_trans hlt hi), Forest.root_link]

/-- In a forest the second walk ends, too. What it relinks on the way does not change the root. -/
theorem shorten_links {root : Nat} (hi : i < f.size) (hroot : root = f.root i) :
    shorten root (f.links, i) = Part.some (f.compress root i).links := by
  fun_induction Forest.compress f root i with
  | case1 f i hstop =>
    exact Part.eq_some_iff.2 (PFun.fix_stop (by simp [getElem?_links hi, hstop]))
  | case2 f i hne hlt ih =>
    have hsame : root = (f.relink i root hlt.1).root (f.link i) := by
      subst hroot
      rw [Forest.root_relink_root, Forest.root_link]
    have hbound : f.link i < (f.relink i root hlt.1).size := by
      rw [Forest.size_relink]
      exact Nat.lt_trans hlt.2 hi
    have hnext : shorten root (f.links, i) =
        shorten root ((f.relink i root hlt.1).links, f.link i) :=
      PFun.fix_fwd_eq (by simp [getElem?_links hi, hne, Forest.relink])
    rw [hnext, ih hbound hsame]
  | case3 f i hne hstuck =>
    -- only a root links to itself, and it would have ended the walk
    subst hroot
    refine absurd ⟨f.root_le i, Nat.lt_of_le_of_ne (f.link_le i) fun hself => hne ?_⟩ hstuck
    rw [hself, Forest.root_of_link_eq hself]

theorem find_links (hi : i < f.size) :
    find f.links i = Part.some ((f.find i).1, (f.find i).2.links) := by
  rw [find, climb_links hi, Part.bind_eq_bind, Part.bind_some, shorten_links hi rfl,
    Part.bind_eq_bind, Part.bind_some]
  rfl

theorem union_links {a b : Nat} (ha : a < f.size) (hb : b < f.size) :
    union f.links a b = Part.some (f.union a b).links := by
  have hb' : b < (f.find a).2.size := (f.size_find a).symm ▸ hb
  have hroota : (f.find a).1 < ((f.find a).2.find b).2.size := by
    rw [Forest.size_find, Forest.size_find]
    exact Forest.root_lt_size ha
  have hrootb : ((f.find a).2.find b).1 < ((f.find a).2.find b).2.size := by
    rw [Forest.size_find]
    exact Forest.root_lt_size hb'
  simp only [union, find_links ha, find_links hb', Part.bind_eq_bind, Part.bind_some, Forest.union]
  generalize ((f.find a).2.find b).2 = g at *
  generalize ((f.find a).2.find b).1 = rb at *
  generalize (f.find a).1 = ra at *
  have hmax : max ra rb < g.links.size := Nat.max_lt.2 ⟨hroota, hrootb⟩
  rw [if_pos hmax]
  rcases Nat.lt_trichotomy ra rb with hlt | rfl | hlt
  · rw [if_neg (Nat.ne_of_lt hlt), dif_pos hlt, Nat.max_eq_right (Nat.le_of_lt hlt),
      Nat.min_eq_left (Nat.le_of_lt hlt)]
    rfl
  · simp
  · rw [if_neg (Nat.ne_of_gt hlt), dif_neg (Nat.lt_asymm hlt), dif_pos hlt,
      Nat.max_eq_left (Nat.le_of_lt hlt), Nat.min_eq_right (Nat.le_of_lt hlt)]
    rfl

/-- In a forest two numbers share a class if they have one root. -/
theorem same_links {a b : Nat} (ha : a < f.size) (hb : b < f.size) :
    Same f.links a b ↔ f.root a = f.root b := by
  simp [Same, climb_links ha, climb_links hb, eq_comm]

end Links

/-! ## Runs -/

namespace Forest

variable {f : Forest} {n : Nat}

/-- The forest after a call. -/
def perform (f : Forest) : ForestCall n → Forest
  | .find a => (f.find a).2
  | .union a b => f.union a b

/-- The forest after some calls on singletons. -/
def run (n : Nat) (calls : List (ForestCall n)) : Forest :=
  calls.foldl perform (singletons n)

theorem size_perform (f : Forest) (call : ForestCall n) : (f.perform call).size = f.size := by
  cases call with
  | find a => exact size_find f a
  | union a b => exact size_union f a b

/-- Finding a root neither adds numbers nor changes a class. -/
theorem Represents.find {r : Nat → Nat → Prop} (h : Represents f n r) (a : Nat) :
    Represents (f.find a).2 n r where
  size_eq := (size_find f a).trans h.size_eq
  root_eq_iff i j := by rw [root_find, root_find, h.root_eq_iff]

/-- A call keeps the classes that are there and joins those of the pair that it unites. -/
theorem Represents.perform {pairs : List (Nat × Nat)}
    (h : Represents f n fun x y => (x, y) ∈ pairs) (call : ForestCall n) :
    Represents (f.perform call) n fun x y => (x, y) ∈ pairs ++ ForestCall.united [call] := by
  cases call with
  | find a => simpa [ForestCall.united, Forest.perform] using h.find a
  | union a b =>
    have hunion := h.union a.isLt b.isLt
    simpa [ForestCall.united, Forest.perform, eq_comm] using hunion

theorem Represents.foldl_perform {pairs : List (Nat × Nat)}
    (h : Represents f n fun x y => (x, y) ∈ pairs) (calls : List (ForestCall n)) :
    Represents (calls.foldl Forest.perform f) n fun x y =>
      (x, y) ∈ pairs ++ ForestCall.united calls := by
  induction calls generalizing f pairs with
  | nil => simpa [ForestCall.united] using h
  | cons call rest ih =>
    have hrest := ih (h.perform call)
    rwa [List.append_assoc, ForestCall.united, ForestCall.united, ← List.filterMap_append] at hrest

/-- The classes after some calls are those that the united pairs generate. -/
theorem represents_run (calls : List (ForestCall n)) :
    Represents (run n calls) n fun x y => (x, y) ∈ ForestCall.united calls := by
  have hnone : Represents (singletons n) n fun x y => (x, y) ∈ ([] : List (Nat × Nat)) := by
    simpa using represents_singletons n
  exact hnone.foldl_perform calls

end Forest

namespace Links

variable {f : Forest} {n : Nat}

theorem perform_links (hsize : f.size = n) (call : ForestCall n) :
    perform f.links call = Part.some (f.perform call).links := by
  subst hsize
  cases call with
  | find a => simp [perform, find_links a.isLt, Forest.perform]
  | union a b => exact union_links a.isLt b.isLt

theorem foldlM_perform_links (hsize : f.size = n) (calls : List (ForestCall n)) :
    calls.foldlM perform f.links = Part.some (calls.foldl Forest.perform f).links := by
  induction calls generalizing f with
  | nil => rfl
  | cons call rest ih =>
    rw [List.foldlM_cons, perform_links hsize, Part.bind_eq_bind, Part.bind_some]
    exact ih ((f.size_perform call).trans hsize)

/-- All calls end, and the links are those of the forest after the same calls. -/
theorem run_eq (calls : List (ForestCall n)) :
    run n calls = Part.some (Forest.run n calls).links :=
  foldlM_perform_links (Forest.size_singletons n) calls

/-- What an array of links tells about the numbers below `n` of which some are connected. -/
structure Divides (links : Array Nat) (n : Nat) (connected : Nat → Nat → Prop) : Prop where
  size_eq : links.size = n
  /-- No link leads upwards or out of the array. -/
  link_le : ∀ i next, links[i]? = some next → next ≤ i ∧ next < n
  /-- Finding the root of a number ends. The root is the least number that is connected with it, and
  the classes are left as they are. -/
  find_least : ∀ a : Fin n, ∃ root after, find links a = Part.some (root, after) ∧
    IsLeast {b | connected a b} root ∧ ∀ b c : Fin n, Same after b c ↔ Same links b c
  /-- Numbers that are found one after the other have the same root if they are connected. -/
  find_eq_iff : ∀ (a b : Fin n) root after root' after', find links a = Part.some (root, after) →
    find after b = Part.some (root', after') → (root = root' ↔ connected a b)

theorem divides {r : Nat → Nat → Prop} (h : f.Represents n r) :
    Divides f.links n (Relation.EqvGen r) := by
  obtain ⟨rfl, hroot⟩ := h
  refine ⟨rfl, fun i next hnext => ?_, fun a => ?_, fun a b root after root' after' ha hb => ?_⟩
  · have hi : i < f.size := (Array.getElem?_eq_some_iff.1 hnext).1
    rw [getElem?_links hi, Option.some_inj] at hnext
    subst hnext
    exact ⟨f.link_le i, Nat.lt_of_le_of_lt (f.link_le i) hi⟩
  · refine ⟨_, _, find_links a.isLt, ⟨?_, fun b hb => ?_⟩, fun b c => ?_⟩
    · exact (hroot _ _).1 (f.root_root a).symm
    · exact Forest.root_le_of_same ((hroot _ _).2 hb)
    · have hsize := f.size_find a
      rw [same_links b.isLt c.isLt, same_links (hsize.symm ▸ b.isLt) (hsize.symm ▸ c.isLt),
        Forest.root_find, Forest.root_find]
  · rw [find_links a.isLt, Part.some_inj] at ha
    cases ha
    rw [find_links ((f.size_find a).symm ▸ b.isLt), Part.some_inj] at hb
    cases hb
    have hrootb : ((f.find a).2.find b).1 = f.root b := Forest.root_find f a b
    rw [hrootb]
    exact hroot a b

/-- Any calls on the numbers below `n` end. They leave the links of the forest on which the same
calls are made, where finding a root ends with what the forest finds. These links tell what the
united pairs connect. -/
theorem run_divides (n : Nat) (calls : List (ForestCall n)) :
    ∃ links, run n calls = Part.some links ∧ links = (Forest.run n calls).links ∧
      (∀ a : Fin n, find links a =
        Part.some (((Forest.run n calls).find a).1, ((Forest.run n calls).find a).2.links)) ∧
      Divides links n (ForestCall.Connected calls) := by
  have hclasses := Forest.represents_run calls
  exact ⟨_, run_eq calls, rfl, fun a => find_links (hclasses.size_eq.symm ▸ a.isLt),
    divides hclasses⟩

end Links

end ApiEvolution
