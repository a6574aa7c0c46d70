import Mathlib.Data.Rat.Defs
import Mathlib.Order.Bounds.Defs
import Mathlib.Tactic.Common
import ApiEvolution.Similarity.Distance

/-!
# Edit distances

The edit distance of two sequences is the least number of single insertions, deletions and
replacements that turn one into the other (`isLeast_editDistance`).

* The rows that are computed are those of the usual recurrence on prefixes
  (`editDistance_eq_distance`), in which the two sequences play the same part (`distance_comm`).
* As many edits as the recurrence says are enough (`editsTo_distance`): it says for the last items
  whether they are replaced or one of them is inserted or deleted.
* No fewer are (`Edit.distance_le`): a single edit changes the distance to any third sequence by at
  most one.
-/

namespace ApiEvolution.Similarity

variable {α : Type}

/-! ## The recurrence -/

section Recurrence

variable [DecidableEq α]

/-- The edit distance by the last items: they are replaced, or one of them is left out. The
sequences are given with their last items first. -/
def distance : List α → List α → Nat
  | [], ys => ys.length
  | x :: xs, [] => (x :: xs).length
  | x :: xs, y :: ys =>
    min (distance xs ys + if x = y then 0 else 1)
      (min (distance (x :: xs) ys + 1) (distance xs (y :: ys) + 1))
termination_by xs ys => xs.length + ys.length

@[simp] theorem distance_nil_left (ys : List α) : distance [] ys = ys.length := by
  rw [distance]

@[simp] theorem distance_nil_right (xs : List α) : distance xs [] = xs.length := by
  cases xs <;> rw [distance]

theorem distance_comm (xs ys : List α) : distance xs ys = distance ys xs := by
  fun_induction distance xs ys with
  | case1 ys => rw [distance_nil_right]
  | case2 x xs => rw [distance_nil_left]
  | case3 x xs y ys ih ihLeft ihAbove =>
    have hsame : (if x = y then 0 else 1) = if y = x then 0 else 1 := by
      simp only [eq_comm]
    rw [distance, ih, ihLeft, ihAbove, hsame, Nat.min_comm (distance ys (x :: xs) + 1)]

/-- The distances from a sequence to the prefixes of another, from one prefix on. The sequence and
this prefix are given with their last items first. -/
def distances (xs seen : List α) : List α → List Nat
  | [] => [distance xs seen]
  | y :: ys => distance xs seen :: distances xs (y :: seen) ys

theorem distances_eq_cons (xs seen ys : List α) :
    distances xs seen ys = distance xs seen :: (distances xs seen ys).tail := by
  cases ys <;> rfl

/-- From no items the distances are the lengths. -/
theorem distances_nil (seen ys : List α) :
    distances [] seen ys = List.range' seen.length (ys.length + 1) := by
  induction ys generalizing seen with
  | nil => simp [distances]
  | cons y ys ih => rw [distances, ih, distance_nil_left, List.length_cons, ← List.range'_succ]; rfl

theorem nextRowFrom_distances (x : α) (xs seen ys : List α) :
    nextRowFrom x ys (distances xs seen ys) (distance (x :: xs) seen) =
      (distances (x :: xs) seen ys).tail := by
  induction ys generalizing seen with
  | nil => simp [distances, nextRowFrom]
  | cons y ys ih =>
    have hentry : distance (x :: xs) (y :: seen) =
        min (distance xs seen + if x = y then 0 else 1)
          (min (distance (x :: xs) seen + 1) (distance xs (y :: seen) + 1)) := by
      rw [distance]
    rw [distances, distances_eq_cons xs (y :: seen) ys, nextRowFrom, ← hentry,
      ← distances_eq_cons, ih]
    exact (distances_eq_cons ..).symm

/-- A row is that of the recurrence, and so is the next one. -/
theorem nextRow_distances (x : α) (xs ys : List α) :
    nextRow x ys (distances xs [] ys) = distances (x :: xs) [] ys := by
  have hfirst : (distances xs [] ys).headD 0 + 1 = distance (x :: xs) [] := by
    rw [distances_eq_cons]
    simp
  rw [nextRow, hfirst, nextRowFrom_distances, ← distances_eq_cons]

theorem foldl_nextRow (rest xs ys : List α) :
    rest.foldl (fun row x => nextRow x ys row) (distances xs [] ys) =
      distances (rest.reverse ++ xs) [] ys := by
  induction rest generalizing xs with
  | nil => rfl
  | cons x rest ih => rw [List.foldl_cons, nextRow_distances, ih]; simp

theorem getLastD_distances (xs seen ys : List α) (d : Nat) :
    (distances xs seen ys).getLastD d = distance xs (ys.reverse ++ seen) := by
  induction ys generalizing seen d with
  | nil => rfl
  | cons y ys ih => rw [distances, List.getLastD_cons, ih]; simp

/-- The last entry of the last row is the distance of the whole sequences. -/
theorem editDistance_eq_distance (xs ys : List α) :
    editDistance xs ys = distance xs.reverse ys.reverse := by
  have hfirst : List.range (ys.length + 1) = distances [] [] ys := by
    rw [distances_nil, List.range_eq_range']
    rfl
  rw [editDistance, distanceRow, hfirst, foldl_nextRow, getLastD_distances, List.append_nil,
    List.append_nil]

end Recurrence

/-! ## Edits -/

/-- A single item is inserted, deleted or replaced. -/
inductive Edit : List α → List α → Prop
  | insert (before after : List α) (x : α) : Edit (before ++ after) (before ++ x :: after)
  | delete (before after : List α) (x : α) : Edit (before ++ x :: after) (before ++ after)
  | replace (before after : List α) (x y : α) : Edit (before ++ x :: after) (before ++ y :: after)

/-- A sequence is turned into another by a number of edits. -/
inductive EditsTo : Nat → List α → List α → Prop
  | none (xs : List α) : EditsTo 0 xs xs
  | edit {n : Nat} {xs ys zs : List α} (hedit : Edit xs ys) (hrest : EditsTo n ys zs) :
      EditsTo (n + 1) xs zs

variable {m n : Nat} {x y : α} {xs ys zs : List α}

theorem Edit.cons (h : Edit xs ys) (x : α) : Edit (x :: xs) (x :: ys) := by
  cases h with
  | insert before after y => exact .insert (x :: before) after y
  | delete before after y => exact .delete (x :: before) after y
  | replace before after y z => exact .replace (x :: before) after y z

theorem Edit.reverse (h : Edit xs ys) : Edit xs.reverse ys.reverse := by
  cases h with
  | insert before after x => simpa using Edit.insert after.reverse before.reverse x
  | delete before after x => simpa using Edit.delete after.reverse before.reverse x
  | replace before after x y => simpa using Edit.replace after.reverse before.reverse x y

namespace EditsTo

theorem cons (h : EditsTo n xs ys) (x : α) : EditsTo n (x :: xs) (x :: ys) := by
  induction h with
  | none xs => exact .none (x :: xs)
  | edit hedit _ ih => exact .edit (hedit.cons x) ih

theorem reverse (h : EditsTo n xs ys) : EditsTo n xs.reverse ys.reverse := by
  induction h with
  | none xs => exact .none xs.reverse
  | edit hedit _ ih => exact .edit hedit.reverse ih

theorem trans (h : EditsTo m xs ys) (h' : EditsTo n ys zs) : EditsTo (m + n) xs zs := by
  induction h with
  | none => rwa [Nat.zero_add]
  | edit hedit _ ih =>
    rw [Nat.add_right_comm]
    exact .edit hedit (ih h')

theorem zero_iff : EditsTo 0 xs ys ↔ xs = ys := by
  constructor
  · rintro ⟨⟩
    rfl
  · rintro rfl
    exact .none xs

/-! The first items of two sequences are inserted, deleted or replaced before the rest is edited. -/

theorem inserted (h : EditsTo n xs ys) (y : α) : EditsTo (n + 1) xs (y :: ys) :=
  .edit (.insert [] xs y) (h.cons y)

theorem deleted (h : EditsTo n xs ys) (x : α) : EditsTo (n + 1) (x :: xs) ys :=
  .edit (.delete [] xs x) h

theorem replaced (h : EditsTo n xs ys) (x y : α) : EditsTo (n + 1) (x :: xs) (y :: ys) :=
  .edit (.replace [] xs x y) (h.cons y)

end EditsTo

/-! ## The least number of edits -/

section Least

variable [DecidableEq α]

/-- As many edits as the recurrence says are enough. -/
theorem editsTo_distance (xs ys : List α) : EditsTo (distance xs ys) xs ys := by
  fun_induction distance xs ys with
  | case1 ys =>
    induction ys with
    | nil => exact .none []
    | cons y ys ih => exact ih.inserted y
  | case2 x xs =>
    induction x :: xs with
    | nil => exact .none []
    | cons x xs ih => exact ih.deleted x
  | case3 x xs y ys ih ihInsert ihDelete =>
    have hkeep : EditsTo (distance xs ys + if x = y then 0 else 1) (x :: xs) (y :: ys) := by
      split
      · next heq => exact heq ▸ ih.cons x
      · exact ih.replaced x y
    let P := fun n => EditsTo n (x :: xs) (y :: ys)
    exact min_rec' P hkeep (min_rec' P (ihInsert.inserted y) (ihDelete.deleted x))

theorem distance_cons_cons (x y : α) (xs ys : List α) : distance (x :: xs) (y :: ys) =
    min (distance xs ys + if x = y then 0 else 1)
      (min (distance (x :: xs) ys + 1) (distance xs (y :: ys) + 1)) := by
  rw [distance]

theorem distance_self (xs : List α) : distance xs xs = 0 := by
  induction xs with
  | nil => simp
  | cons x xs ih => simp [distance_cons_cons, ih]

theorem distance_le_max (xs ys : List α) : distance xs ys ≤ max xs.length ys.length := by
  fun_induction distance xs ys with
  | case1 ys => exact Nat.le_max_right _ _
  | case2 x xs => exact Nat.le_max_left _ _
  | case3 x xs y ys ih =>
    have hkeep : (if x = y then 0 else 1) ≤ 1 := by split <;> omega
    simp only [List.length_cons]
    omega

/-! An item before one of two sequences changes their distance by at most one. -/

theorem distance_cons_le (x : α) (xs zs : List α) : distance (x :: xs) zs ≤ distance xs zs + 1 := by
  cases zs with
  | nil => simp
  | cons z zs =>
    rw [distance_cons_cons]
    omega

theorem distance_le_cons (x : α) (xs zs : List α) : distance xs zs ≤ distance (x :: xs) zs + 1 := by
  induction zs with
  | nil =>
    simp
    omega
  | cons z zs ih =>
    have hstep : distance xs (z :: zs) ≤ distance xs zs + 1 := by
      rw [distance_comm, distance_comm xs]
      exact distance_cons_le z zs xs
    rw [distance_cons_cons]
    omega

theorem distance_replace_le (x y : α) (xs zs : List α) :
    distance (x :: xs) zs ≤ distance (y :: xs) zs + 1 := by
  induction zs with
  | nil => simp
  | cons z zs ih =>
    rw [distance_cons_cons, distance_cons_cons]
    have hx : (if x = z then 0 else 1) ≤ 1 := by split <;> omega
    omega

/-- If two sequences are at most one edit further apart from any third one, they still are with the
same items before them. -/
theorem distance_append_le (h : ∀ zs, distance xs zs ≤ distance ys zs + 1) (before zs : List α) :
    distance (before ++ xs) zs ≤ distance (before ++ ys) zs + 1 := by
  induction before generalizing zs with
  | nil => exact h zs
  | cons x before ih =>
    rw [List.cons_append, List.cons_append]
    induction zs with
    | nil => simpa using ih []
    | cons z zs ihTail =>
      rw [distance_cons_cons, distance_cons_cons]
      have hkeep := ih zs
      have hskip := ih (z :: zs)
      omega

/-- A single edit changes the distance to any third sequence by at most one. -/
theorem Edit.distance_le (h : Edit xs ys) (zs : List α) :
    distance xs zs ≤ distance ys zs + 1 := by
  cases h with
  | insert before after x => exact distance_append_le (distance_le_cons x after) before zs
  | delete before after x => exact distance_append_le (distance_cons_le x after) before zs
  | replace before after x y => exact distance_append_le (distance_replace_le x y after) before zs

/-- No fewer edits than the recurrence says are enough. -/
theorem EditsTo.distance_le (h : EditsTo n xs ys) : distance xs ys ≤ n := by
  induction h with
  | none xs => exact (distance_self xs).le
  | @edit n xs ys zs hedit _ ih => exact (hedit.distance_le zs).trans (Nat.succ_le_succ ih)

/-- The edit distance is the least number of edits. -/
theorem isLeast_editDistance (xs ys : List α) :
    IsLeast {n | EditsTo n xs ys} (editDistance xs ys) := by
  rw [editDistance_eq_distance]
  constructor
  · show EditsTo _ xs ys
    simpa using (editsTo_distance xs.reverse ys.reverse).reverse
  · intro n hn
    exact (EditsTo.reverse hn).distance_le

theorem editDistance_self (xs : List α) : editDistance xs xs = 0 := by
  rw [editDistance_eq_distance, distance_self]

theorem editDistance_comm (xs ys : List α) : editDistance xs ys = editDistance ys xs := by
  rw [editDistance_eq_distance, distance_comm, ← editDistance_eq_distance]

theorem editDistance_eq_zero_iff (xs ys : List α) : editDistance xs ys = 0 ↔ xs = ys := by
  constructor
  · intro h
    exact EditsTo.zero_iff.1 (h ▸ (isLeast_editDistance xs ys).1)
  · rintro rfl
    exact editDistance_self xs

/-- What is edited into a third sequence can be edited into another on the way. -/
theorem editDistance_triangle (xs ys zs : List α) :
    editDistance xs zs ≤ editDistance xs ys + editDistance ys zs :=
  have hfirst := (isLeast_editDistance xs ys).1
  have hsecond := (isLeast_editDistance ys zs).1
  (isLeast_editDistance xs zs).2 (hfirst.trans hsecond)

theorem editDistance_le_max (xs ys : List α) :
    editDistance xs ys ≤ max xs.length ys.length := by
  rw [editDistance_eq_distance]
  simpa using distance_le_max xs.reverse ys.reverse

end Least

end ApiEvolution.Similarity
