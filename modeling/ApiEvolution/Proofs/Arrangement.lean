import Mathlib.Data.List.Nodup
import Mathlib.Data.String.Basic
import Mathlib.Tactic.Common
import ApiEvolution.Mapping.Matcher

/-!
# Arranged elements

Before elements are compared they are arranged: sorted by identity, with the first of each identity
kept. The sort is stable, so looking an identity up gives the same element before and after
(`first?_arrange`), and an arranged list has each identity once (`nodup_arrange`). Where identities
are different, the order in which elements are given does not matter (`arrange_eq_of_perm`).
-/

namespace ApiEvolution.Matcher

/-- The first element with an identity. -/
def first? (elements : List Element) (id : String) : Option Element :=
  elements.find? fun e => e.id = id

theorem mem_of_first? {elements : List Element} {id : String} {e : Element}
    (h : first? elements id = some e) : e ∈ elements :=
  List.mem_of_find?_eq_some h

theorem id_of_first? {elements : List Element} {id : String} {e : Element}
    (h : first? elements id = some e) : e.id = id := by
  simpa using List.find?_some h

/-! ## Sorting -/

/-- Sorting by identity leaves the elements of one identity in their order. -/
theorem filter_mergeSort (elements : List Element) (id : String) :
    (elements.mergeSort fun a b => a.id ≤ b.id).filter (fun e => e.id = id) =
      elements.filter fun e => e.id = id := by
  set same := elements.filter fun e => e.id = id with hsame
  have hmem : ∀ e ∈ same, e.id = id := fun e he => by
    simpa using (List.mem_filter.1 he).2
  have hpair : same.Pairwise fun a b => decide (a.id ≤ b.id) = true :=
    List.pairwise_of_forall_mem_list fun a ha b hb => by
      rw [hmem a ha, hmem b hb]
      simp
  have hsub : same.Sublist (elements.mergeSort fun a b => a.id ≤ b.id) := by
    refine List.sublist_mergeSort ?_ ?_ hpair List.filter_sublist
    · intro a b c hab hbc
      simp only [decide_eq_true_eq] at hab hbc ⊢
      exact le_trans hab hbc
    · intro a b
      simp [le_total]
  have hperm := (List.mergeSort_perm elements fun a b => a.id ≤ b.id).filter fun e => e.id = id
  have hkept : same.Sublist ((elements.mergeSort fun a b => a.id ≤ b.id).filter
      fun e => e.id = id) := by
    have h := hsub.filter fun e => decide (e.id = id)
    rwa [List.filter_eq_self.2 fun e he => by simpa using hmem e he] at h
  exact (hkept.eq_of_length hperm.length_eq.symm).symm

theorem first?_mergeSort (elements : List Element) (id : String) :
    first? (elements.mergeSort fun a b => a.id ≤ b.id) id = first? elements id := by
  rw [first?, first?, ← List.head?_filter, ← List.head?_filter, filter_mergeSort]

/-! ## Dropping repeated identities -/

theorem first?_dropRepeated (elements : List Element) (id : String) :
    first? (dropRepeated elements) id = first? elements id := by
  fun_induction dropRepeated elements with
  | case1 => rfl
  | case2 e => rfl
  | case3 e f rest hef ih =>
    rw [ih]
    by_cases he : e.id = id
    · simp [first?, he]
    · simp [first?, he, ← hef]
  | case4 e f rest hef ih =>
    simp only [first?, List.find?_cons] at ih ⊢
    rw [ih]

theorem mem_of_mem_dropRepeated {elements : List Element} {x : Element}
    (h : x ∈ dropRepeated elements) : x ∈ elements := by
  fun_induction dropRepeated elements with
  | case1 => exact h
  | case2 e => exact h
  | case3 e f rest _ ih =>
    rcases List.mem_cons.1 (ih h) with rfl | hx
    · exact List.mem_cons_self ..
    · exact List.mem_cons_of_mem _ (List.mem_cons_of_mem _ hx)
  | case4 e f rest _ ih =>
    rcases List.mem_cons.1 h with rfl | hx
    · exact List.mem_cons_self ..
    · exact List.mem_cons_of_mem _ (ih hx)

theorem sorted_dropRepeated {elements : List Element}
    (h : elements.Pairwise fun a b => a.id ≤ b.id) :
    (dropRepeated elements).Pairwise fun a b => a.id < b.id := by
  fun_induction dropRepeated elements with
  | case1 => exact List.Pairwise.nil
  | case2 e => exact List.pairwise_singleton _ e
  | case3 e f rest _ ih =>
    obtain ⟨he, hf⟩ := List.pairwise_cons.1 h
    refine ih (List.pairwise_cons.2 ⟨?_, (List.pairwise_cons.1 hf).2⟩)
    exact fun x hx => he x (List.mem_cons_of_mem _ hx)
  | case4 e f rest hef ih =>
    obtain ⟨he, hf⟩ := List.pairwise_cons.1 h
    refine List.pairwise_cons.2 ⟨?_, ih hf⟩
    -- `e` is below `f`, and everything that is left comes from `f` on
    have hlt : e.id < f.id := lt_of_le_of_ne (he f (List.mem_cons_self ..)) hef
    intro x hx
    rcases List.mem_cons.1 (mem_of_mem_dropRepeated hx) with rfl | hx
    · exact hlt
    · exact lt_of_lt_of_le hlt ((List.pairwise_cons.1 hf).1 x hx)

/-! ## Arranging -/

/-- Arranging keeps the first element of each identity. -/
theorem first?_arrange (elements : List Element) (id : String) :
    first? (arrange elements) id = first? elements id := by
  rw [arrange, first?_dropRepeated, first?_mergeSort]

theorem sorted_mergeSort (elements : List Element) :
    (elements.mergeSort fun a b => a.id ≤ b.id).Pairwise fun a b => a.id ≤ b.id := by
  refine (List.pairwise_mergeSort ?_ ?_ elements).imp fun hab => by simpa using hab
  · intro a b c hab hbc
    simp only [decide_eq_true_eq] at hab hbc ⊢
    exact le_trans hab hbc
  · intro a b
    simp [le_total]

theorem sorted_arrange (elements : List Element) :
    (arrange elements).Pairwise fun a b => a.id < b.id :=
  sorted_dropRepeated (sorted_mergeSort elements)

theorem mem_of_mem_arrange {elements : List Element} {x : Element} (h : x ∈ arrange elements) :
    x ∈ elements :=
  (List.mergeSort_perm _ _).mem_iff.1 (mem_of_mem_dropRepeated h)

/-- Elements of different identities are arranged alike, whatever order they are given in. -/
theorem arrange_eq_of_perm {elements elements' : List Element} (h : elements.Perm elements')
    (hnodup : (elements.map Element.id).Nodup) : arrange elements = arrange elements' := by
  have hsame : elements.mergeSort (fun a b => a.id ≤ b.id) =
      elements'.mergeSort fun a b => a.id ≤ b.id := by
    refine List.Perm.eq_of_pairwise ?_ (sorted_mergeSort _) (sorted_mergeSort _) ?_
    · intro a b ha hb hab hba
      have ha' : a ∈ elements := (List.mergeSort_perm _ _).mem_iff.1 ha
      have hb' : b ∈ elements := h.mem_iff.2 ((List.mergeSort_perm _ _).mem_iff.1 hb)
      exact List.inj_on_of_nodup_map hnodup ha' hb' (le_antisymm hab hba)
    · exact (List.mergeSort_perm _ _).trans (h.trans (List.mergeSort_perm _ _).symm)
  rw [arrange, arrange, hsame]

theorem nodup_of_sorted {elements : List Element} (h : elements.Pairwise fun a b => a.id < b.id) :
    (elements.map Element.id).Nodup := by
  rw [List.Nodup, List.pairwise_map]
  exact h.imp fun hlt => ne_of_lt hlt

/-- Arranged elements have different identities. -/
theorem nodup_arrange (elements : List Element) : ((arrange elements).map Element.id).Nodup :=
  nodup_of_sorted (sorted_arrange elements)

/-- An element is found under its identity if identities are different. -/
theorem first?_eq_some_iff {elements : List Element} (h : (elements.map Element.id).Nodup)
    {x : Element} {id : String} : first? elements id = some x ↔ x ∈ elements ∧ x.id = id := by
  constructor
  · intro hx
    exact ⟨mem_of_first? hx, id_of_first? hx⟩
  · rintro ⟨hx, rfl⟩
    obtain ⟨y, hy⟩ : ∃ y, first? elements x.id = some y := by
      rw [← Option.isSome_iff_exists, first?, List.find?_isSome]
      exact ⟨x, hx, by simp⟩
    rw [hy, List.inj_on_of_nodup_map h (mem_of_first? hy) hx (id_of_first? hy)]

theorem first?_of_getElem? {elements : List Element} (h : (elements.map Element.id).Nodup) {i : Nat}
    {x : Element} (hx : elements[i]? = some x) : first? elements x.id = some x :=
  (first?_eq_some_iff h).2 ⟨List.mem_of_getElem? hx, rfl⟩

end ApiEvolution.Matcher
