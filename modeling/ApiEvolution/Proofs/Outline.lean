import Mathlib.Data.List.Nodup
import Mathlib.Data.List.Perm.Basic
import ApiEvolution.Proofs.Declarations
import ApiEvolution.Proofs.Outcome

/-!
# What a snapshot holds of its document

A document is accepted only if its identities are distinct (`ofOutline?_eq_ok_iff`). Then no
declaration replaces another, so that the snapshot has the elements of each kind as the document
lists them (`elements_ofOutline`) and is coherent (`coherent_of_read`).
-/

namespace ApiEvolution

/-! ## Declaring elements -/

theorem upsert_of_forall_ne {α : Type} {key : α → String} {item : α} {xs : List α}
    (h : ∀ a ∈ xs, key a ≠ key item) : upsert key item xs = xs ++ [item] := by
  induction xs with
  | nil => rfl
  | cons a rest ih =>
    rw [upsert, if_neg (h a (List.mem_cons_self ..)),
      ih fun b hb => h b (List.mem_cons_of_mem _ hb), List.cons_append]

namespace Snapshot

/-- An element with a new identity comes after those of its kind; the other kinds stay as they
are. -/
theorem elements_add {s : Snapshot} {e : Element}
    (h : ∀ x ∈ s.elements e.kind, x.id ≠ e.id) (kind : ElementKind) :
    (s.add e).elements kind = s.elements kind ++ if e.kind = kind then [e] else [] := by
  cases e with
  | ofClass c =>
    have hnew : ∀ a ∈ s.classes, a.id ≠ c.id := fun a ha =>
      h (.ofClass a) (List.mem_map_of_mem ha)
    cases kind <;> simp [add, addClass, elements, Element.kind, upsert_of_forall_ne hnew]
  | ofFunction f =>
    have hnew : ∀ a ∈ s.functions, a.id ≠ f.id := fun a ha =>
      h (.ofFunction a) (List.mem_map_of_mem ha)
    cases kind <;> simp [add, addFunction, elements, Element.kind, upsert_of_forall_ne hnew]
  | ofParameter p =>
    have hnew : ∀ a ∈ s.parameters, a.id ≠ p.id := fun a ha =>
      h (.ofParameter a) (List.mem_map_of_mem ha)
    cases kind <;> simp [add, addParameter, elements, Element.kind, upsert_of_forall_ne hnew]
  | ofAttribute m =>
    have hnew : ∀ a ∈ s.attributes, a.id ≠ m.id := fun a ha =>
      h (.ofAttribute a) (List.mem_map_of_mem ha)
    cases kind <;> simp [add, addAttribute, elements, Element.kind, upsert_of_forall_ne hnew]
  | ofResult m =>
    have hnew : ∀ a ∈ s.results, a.id ≠ m.id := fun a ha =>
      h (.ofResult a) (List.mem_map_of_mem ha)
    cases kind <;> simp [add, addResult, elements, Element.kind, upsert_of_forall_ne hnew]

/-- Elements with new and distinct identities come in their order after those that are there. -/
theorem elements_foldl_add {es : List Element} {s : Snapshot} (hnodup : (es.map Element.id).Nodup)
    (hnew : ∀ kind, ∀ x ∈ s.elements kind, x.id ∉ es.map Element.id) (kind : ElementKind) :
    (es.foldl add s).elements kind = s.elements kind ++ es.filter fun e => e.kind = kind := by
  induction es generalizing s with
  | nil => simp
  | cons e rest ih =>
    obtain ⟨he, hrest⟩ := List.nodup_cons.1 hnodup
    have hadd := fun kind => elements_add (s := s) (e := e) (fun x hx heq =>
      hnew _ x hx (heq ▸ List.mem_cons_self ..)) kind
    have hstep : ∀ kind, ∀ x ∈ (s.add e).elements kind, x.id ∉ rest.map Element.id := by
      intro kind x hx
      rw [hadd, List.mem_append] at hx
      rcases hx with hx | hx
      · exact fun hmem => hnew kind x hx (List.mem_cons_of_mem _ hmem)
      · split at hx
        · rw [List.mem_singleton.1 hx]
          exact he
        · cases hx
    rw [List.foldl_cons, ih hrest hstep, hadd, List.append_assoc, List.filter_cons]
    by_cases hk : e.kind = kind <;> simp [hk]

theorem elements_ofOutline {o : Outline} (h : (o.elements.map Element.id).Nodup)
    (kind : ElementKind) :
    (ofOutline o).elements kind = o.elements.filter fun e => e.kind = kind := by
  rw [ofOutline, elements_foldl_add h]
  · cases kind <;> simp [elements]
  · intro kind x hx
    cases kind <;> simp [elements] at hx

/-- The elements of some kinds, taken kind by kind. -/
theorem flatMap_filter_kind_perm {kinds : List ElementKind} (h : kinds.Nodup) (es : List Element) :
    (kinds.flatMap fun k => es.filter fun e => e.kind = k).Perm
      (es.filter fun e => e.kind ∈ kinds) := by
  induction kinds with
  | nil => simp
  | cons k rest ih =>
    obtain ⟨hk, hrest⟩ := List.nodup_cons.1 h
    -- of the elements of all these kinds, those of the first kind and those of the others
    have hfirst : (es.filter fun e => e.kind ∈ k :: rest).filter (fun e => e.kind = k) =
        es.filter fun e => e.kind = k := by
      rw [List.filter_filter]
      exact List.filter_congr fun e _ => by simp +contextual
    have hothers : (es.filter fun e => e.kind ∈ k :: rest).filter (fun e => !decide (e.kind = k)) =
        es.filter fun e => e.kind ∈ rest := by
      rw [List.filter_filter]
      refine List.filter_congr fun e _ => ?_
      by_cases he : e.kind = k <;> simp [he, hk]
    rw [List.flatMap_cons]
    refine ((ih hrest).append_left _).trans ?_
    rw [← hfirst, ← hothers]
    exact List.filter_append_perm _ _

theorem allElements_ofOutline_perm {o : Outline} (h : (o.elements.map Element.id).Nodup) :
    (ofOutline o).allElements.Perm o.elements := by
  have hparts : (ofOutline o).allElements =
      ElementKind.all.flatMap fun k => o.elements.filter fun e => e.kind = k :=
    congrArg (ElementKind.all.flatMap ·) (funext (elements_ofOutline h))
  rw [hparts]
  refine (flatMap_filter_kind_perm (by decide) o.elements).trans ?_
  rw [List.filter_eq_self.2 fun e _ => decide_eq_true e.kind.mem_all]

/-! ## Accepting a document -/

theorem firstRepeated?_eq_none_iff {seen ids : List String} :
    firstRepeated? seen ids = none ↔ ids.Nodup ∧ ∀ id ∈ ids, id ∉ seen := by
  induction ids generalizing seen with
  | nil => simp [firstRepeated?]
  | cons id rest ih =>
    rw [firstRepeated?]
    split
    · next hid =>
      simp [hid]
    · next hid =>
      rw [ih, List.nodup_cons]
      constructor
      · rintro ⟨hnodup, hnew⟩
        refine ⟨⟨fun hmem => hnew id hmem (List.mem_cons_self ..), hnodup⟩, ?_⟩
        intro x hx
        rcases List.mem_cons.1 hx with rfl | hx
        · exact hid
        · exact fun hseen => hnew x hx (List.mem_cons_of_mem _ hseen)
      · rintro ⟨⟨hnot, hnodup⟩, hnew⟩
        refine ⟨hnodup, fun x hx hseen => ?_⟩
        rcases List.mem_cons.1 hseen with rfl | hseen
        · exact hnot hx
        · exact hnew x (List.mem_cons_of_mem _ hx) hseen

theorem find?_listings_eq_none_iff {s : Snapshot} :
    (s.listings.find? fun l => !s.declares l.2.1 l.2.2) = none ↔
      ∀ container kind id, id ∈ s.children container kind → s.declares kind id = true := by
  rw [List.find?_eq_none]
  constructor
  · intro h container kind id hid
    simpa using h (container, kind, id) (mem_listings.2 hid)
  · rintro h ⟨container, kind, id⟩ hl
    simpa using h container kind id (mem_listings.1 hl)

theorem coherent_iff {s : Snapshot} : s.Coherent ↔ (s.allElements.map Element.id).Nodup ∧
    (s.listings.find? fun l => !s.declares l.2.1 l.2.2) = none := by
  rw [find?_listings_eq_none_iff]
  exact ⟨fun h => ⟨h.distinct, h.declared⟩, fun h => ⟨h.1, h.2⟩⟩

instance (s : Snapshot) : Decidable s.Coherent :=
  decidable_of_iff (_ ∧ (s.listings.find? fun l => !s.declares l.2.1 l.2.2).isNone = true) <| by
    rw [coherent_iff, Option.isNone_iff_eq_none]

/-- An outline is accepted exactly if its identities are distinct and all that is listed is
declared. -/
theorem ofOutline?_eq_ok_iff {o : Outline} {s : Snapshot} :
    ofOutline? o = .ok s ↔ (o.elements.map Element.id).Nodup ∧
      (∀ container kind id, id ∈ (ofOutline o).children container kind →
        (ofOutline o).declares kind id = true) ∧ s = ofOutline o := by
  have hids : firstRepeated? [] (o.elements.map Element.id) = none ↔
      (o.elements.map Element.id).Nodup := by
    simp [firstRepeated?_eq_none_iff]
  rw [← hids, ← find?_listings_eq_none_iff, ofOutline?]
  cases firstRepeated? [] (o.elements.map Element.id) with
  | some id => simp
  | none =>
    cases hfind : (ofOutline o).listings.find? fun l => !(ofOutline o).declares l.2.1 l.2.2 with
    | some l => simp [hfind]
    | none => simp [hfind, eq_comm]

/-- A text is accepted exactly if it is JSON that describes an acceptable outline. -/
theorem read_eq_ok_iff {text : String} {s : Snapshot} :
    read text = .ok s ↔ ∃ v o, Json.read? text = some v ∧ Outline.ofJson v = .ok o ∧
      ofOutline? o = .ok s := by
  rw [read]
  cases Json.read? text with
  | none => simp
  | some v => simp [ofJson, bind_eq_ok_iff, Outcome.ofReading_eq_ok_iff]

/-- The snapshot of an accepted document is coherent. -/
theorem coherent_of_read {text : String} {s : Snapshot} (h : read text = .ok s) : s.Coherent := by
  obtain ⟨_, o, -, -, ho⟩ := read_eq_ok_iff.1 h
  obtain ⟨hnodup, hdeclared, rfl⟩ := ofOutline?_eq_ok_iff.1 ho
  refine ⟨?_, hdeclared⟩
  exact ((allElements_ofOutline_perm hnodup).map Element.id).nodup_iff.2 hnodup

end Snapshot

end ApiEvolution
