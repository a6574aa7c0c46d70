import Mathlib.Data.List.Nodup
import Mathlib.Tactic.Common
import ApiEvolution.Snapshot.Document

/-!
# Looking declarations up

An identity is looked up among all elements, kind by kind (`element?_eq_find?`). In a snapshot
without repeated identities every element is found under its own (`element?_id`).

`Coherent` is what a document has to satisfy: identities are distinct, and all that a container
lists is declared with the kind under which it is listed.
-/

namespace ApiEvolution

/-- Of groups of things, one a kind, each is what all things have of its kind. -/
theorem ElementKind.filter_flatMap_all {α : Type} {kindOf : α → ElementKind}
    {groups : ElementKind → List α} (h : ∀ k, ∀ a ∈ groups k, kindOf a = k) (kind : ElementKind) :
    (all.flatMap groups).filter (fun a => kindOf a = kind) = groups kind := by
  have hgroup : ∀ k, (groups k).filter (fun a => kindOf a = kind) =
      if k = kind then groups kind else [] := by
    intro k
    split
    · next hk =>
      subst hk
      exact List.filter_eq_self.2 fun a ha => decide_eq_true (h k a ha)
    · next hk =>
      refine List.filter_eq_nil_iff.2 fun a ha => ?_
      simpa [h k a ha] using hk
  rw [List.filter_flatMap]
  simp only [hgroup]
  cases kind <;> simp [all]

namespace Snapshot

variable {s : Snapshot} {e : Element} {kind kind' : ElementKind} {id container : String}

/-! ## Elements -/

theorem kind_of_mem_elements (h : e ∈ s.elements kind) : e.kind = kind := by
  cases kind <;>
    · obtain ⟨_, -, rfl⟩ := List.mem_map.1 h
      rfl

theorem mem_allElements_iff : e ∈ s.allElements ↔ e ∈ s.elements e.kind := by
  rw [allElements, List.mem_flatMap]
  constructor
  · rintro ⟨k, -, he⟩
    rw [kind_of_mem_elements he]
    exact he
  · exact fun he => ⟨e.kind, e.kind.mem_all, he⟩

/-- The elements of a kind are those of all elements that have it. -/
theorem filter_allElements (kind : ElementKind) :
    s.allElements.filter (fun e => e.kind = kind) = s.elements kind := by
  cases kind <;>
    simp [allElements, ElementKind.all, elements, List.filter_map, Function.comp_def, Element.kind]

theorem nodup_ids_elements (h : (s.allElements.map Element.id).Nodup) (kind : ElementKind) :
    ((s.elements kind).map Element.id).Nodup := by
  rw [← filter_allElements]
  exact (List.filter_sublist.map Element.id).nodup h

theorem element?_eq_find? (s : Snapshot) (id : String) :
    s.element? id = s.allElements.find? fun e => e.id = id := by
  simp only [allElements, ElementKind.all, List.flatMap_cons, List.flatMap_nil, List.append_nil,
    List.find?_append, elements, List.find?_map]
  rfl

theorem mem_of_element? (h : s.element? id = some e) : e ∈ s.allElements ∧ e.id = id := by
  rw [element?_eq_find?] at h
  exact ⟨List.mem_of_find?_eq_some h, by simpa using List.find?_some h⟩

/-- If identities are distinct, an element is what is found under its identity. -/
theorem element?_id (h : (s.allElements.map Element.id).Nodup) (he : e ∈ s.allElements) :
    s.element? e.id = some e := by
  cases hf : s.element? e.id with
  | none =>
    rw [element?_eq_find?, List.find?_eq_none] at hf
    exact absurd (decide_eq_true rfl) (hf e he)
  | some e' =>
    obtain ⟨he', hid⟩ := mem_of_element? hf
    rw [List.inj_on_of_nodup_map h he' he hid]

/-! ## Declared identities -/

theorem declares_iff :
    s.declares kind id = true ↔ ∃ e, s.element? id = some e ∧ e.kind = kind := by
  simp [declares, Option.any_eq_true]

theorem mem_ids_of_declares (h : s.declares kind id = true) :
    id ∈ s.allElements.map Element.id := by
  obtain ⟨e, he, -⟩ := declares_iff.1 h
  obtain ⟨hmem, hid⟩ := mem_of_element? he
  exact List.mem_map.2 ⟨e, hmem, hid⟩

/-- An identity is declared with one kind only. -/
theorem kind_eq_of_declares (h : s.declares kind id = true) (h' : s.declares kind' id = true) :
    kind = kind' := by
  obtain ⟨e, he, rfl⟩ := declares_iff.1 h
  obtain ⟨e', he', rfl⟩ := declares_iff.1 h'
  rw [he] at he'
  rw [Option.some_inj.1 he']

theorem declares_of_mem_elements (h : (s.allElements.map Element.id).Nodup)
    (he : e ∈ s.elements kind) : s.declares kind e.id = true := by
  have hkind : e.kind = kind := kind_of_mem_elements he
  have hmem : e ∈ s.allElements := mem_allElements_iff.2 (hkind.symm ▸ he)
  exact declares_iff.2 ⟨e, element?_id h hmem, hkind⟩

/-! ## What containers list -/

/-- What lists something is a container of the right kind. -/
theorem exists_container (h : id ∈ s.children container kind) :
    ∃ e ∈ s.elements .classKind ++ s.elements .functionKind,
      e.id = container ∧ kind ∈ listedKinds e.kind := by
  have hclass : ∀ c, s.class? container = some c →
      .ofClass c ∈ s.elements .classKind ∧ c.id = container := fun c hc =>
    ⟨List.mem_map_of_mem (List.mem_of_find?_eq_some hc), by simpa using List.find?_some hc⟩
  have hfunction : ∀ f, s.function? container = some f →
      .ofFunction f ∈ s.elements .functionKind ∧ f.id = container := fun f hf =>
    ⟨List.mem_map_of_mem (List.mem_of_find?_eq_some hf), by simpa using List.find?_some hf⟩
  cases kind with
  | classKind => simp [children] at h
  | functionKind | attributeKind =>
    cases hc : s.class? container with
    | none => simp [children, hc] at h
    | some c =>
      obtain ⟨hmem, hid⟩ := hclass c hc
      exact ⟨.ofClass c, List.mem_append_left _ hmem, hid, by simp [Element.kind, listedKinds]⟩
  | parameterKind | resultKind =>
    cases hf : s.function? container with
    | none => simp [children, hf] at h
    | some f =>
      obtain ⟨hmem, hid⟩ := hfunction f hf
      exact ⟨.ofFunction f, List.mem_append_right _ hmem, hid, by simp [Element.kind, listedKinds]⟩

theorem listings_eq (s : Snapshot) :
    s.listings = (s.elements .classKind ++ s.elements .functionKind).flatMap fun e =>
      (listedKinds e.kind).flatMap fun k => (s.children e.id k).map fun child =>
        (e.id, k, child) := by
  simp only [listings, elements, List.flatMap_append, List.flatMap_map]
  rfl

theorem mem_listings : (container, kind, id) ∈ s.listings ↔ id ∈ s.children container kind := by
  rw [listings_eq]
  simp only [List.mem_flatMap, List.mem_map, Prod.mk.injEq]
  constructor
  · rintro ⟨e, -, k, -, child, hchild, rfl, rfl, rfl⟩
    exact hchild
  · intro h
    obtain ⟨e, he, rfl, hkind⟩ := exists_container h
    exact ⟨e, he, kind, hkind, id, h, rfl, rfl, rfl⟩

/-- Identities are distinct, and what is listed is declared. -/
structure Coherent (s : Snapshot) : Prop where
  distinct : (s.allElements.map Element.id).Nodup
  declared : ∀ container kind id, id ∈ s.children container kind → s.declares kind id = true

end Snapshot

end ApiEvolution
