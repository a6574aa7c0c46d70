import Mathlib.Tactic.Common
import ApiEvolution.SortedSet

/-!
# Sorted sets are sorted

For a lawful comparison, a set built by insertions is strictly ascending (`sorted_ofList`), so that
it lists no element twice (`nodup_ofList`). Sets are told by their elements (`Sorted.ext`), so that
neither the order in which the elements come nor their repetition counts (`ofList_congr`).
-/

namespace ApiEvolution.SortedSet

variable {α : Type} {cmp : α → α → Ordering} [Std.TransCmp cmp] [Std.LawfulEqCmp cmp]

/-- Strictly ascending lists, which are the sets. -/
def Sorted (cmp : α → α → Ordering) (set : List α) : Prop :=
  set.Pairwise fun a b => cmp a b = .lt

omit [Std.TransCmp cmp] in
theorem mem_insert_iff {x a : α} {set : List α} : x ∈ insert cmp a set ↔ x = a ∨ x ∈ set :=
  mem_insert fun _ _ => Std.LawfulEqCmp.eq_of_compare

omit [Std.TransCmp cmp] in
@[simp] theorem mem_ofList_iff {x : α} {xs : List α} : x ∈ ofList cmp xs ↔ x ∈ xs :=
  mem_ofList fun _ _ => Std.LawfulEqCmp.eq_of_compare

theorem sorted_insert {a : α} {set : List α} (h : Sorted cmp set) :
    Sorted cmp (insert cmp a set) := by
  induction set with
  | nil => exact List.pairwise_singleton _ a
  | cons b rest ih =>
    obtain ⟨hb, hrest⟩ := List.pairwise_cons.1 h
    unfold insert
    split
    · next hab =>
      refine List.pairwise_cons.2 ⟨?_, h⟩
      intro x hx
      rcases List.mem_cons.1 hx with rfl | hx
      · exact hab
      · exact Std.TransCmp.lt_trans hab (hb x hx)
    · exact h
    · next hab =>
      refine List.pairwise_cons.2 ⟨?_, ih hrest⟩
      intro x hx
      rcases mem_insert_iff.1 hx with rfl | hx
      · exact Std.OrientedCmp.gt_iff_lt.1 hab
      · exact hb x hx

theorem sorted_foldl_insert (xs : List α) {set : List α} (h : Sorted cmp set) :
    Sorted cmp (xs.foldl (fun set a => insert cmp a set) set) := by
  induction xs generalizing set with
  | nil => exact h
  | cons a rest ih => exact ih (sorted_insert h)

/-- A set built from a list is strictly ascending. -/
theorem sorted_ofList (xs : List α) : Sorted cmp (ofList cmp xs) :=
  sorted_foldl_insert xs List.Pairwise.nil

omit [Std.TransCmp cmp] in
theorem Sorted.nodup {set : List α} (h : Sorted cmp set) : set.Nodup := by
  refine h.imp ?_
  rintro a _ hlt rfl
  have heq : cmp a a = .eq := Std.ReflCmp.compare_self
  rw [heq] at hlt
  cases hlt

theorem nodup_ofList (xs : List α) : (ofList cmp xs).Nodup :=
  (sorted_ofList xs).nodup

/-- Sets with the same elements are the same list. -/
theorem Sorted.ext {set set' : List α} (h : Sorted cmp set) (h' : Sorted cmp set')
    (hmem : ∀ x, x ∈ set ↔ x ∈ set') : set = set' := by
  have hsame : set.Perm set' := (List.perm_ext_iff_of_nodup h.nodup h'.nodup).2 hmem
  refine hsame.eq_of_pairwise (fun a b _ _ hab hba => ?_) h h'
  rw [Std.OrientedCmp.gt_iff_lt.2 hab] at hba
  cases hba

/-- Lists of the same elements give the same set. -/
theorem ofList_congr {xs ys : List α} (h : ∀ x, x ∈ xs ↔ x ∈ ys) :
    ofList cmp xs = ofList cmp ys := by
  refine (sorted_ofList xs).ext (sorted_ofList ys) ?_
  intro x
  rw [mem_ofList_iff, mem_ofList_iff, h]

/-- A set is the set of its own elements. -/
theorem Sorted.ofList_eq {set : List α} (h : Sorted cmp set) : ofList cmp set = set :=
  (sorted_ofList set).ext h fun _ => mem_ofList_iff

/-- A set is built from its elements in whatever order they come. -/
theorem Sorted.ofList_eq_of_perm {xs set : List α} (h : Sorted cmp set) (hperm : xs.Perm set) :
    ofList cmp xs = set := by
  rw [ofList_congr fun _ => hperm.mem_iff, h.ofList_eq]

end ApiEvolution.SortedSet
