import ApiEvolution.Proofs.Indices
import ApiEvolution.Proofs.JsonText

/-!
# Which documents are accepted

A document of the right shape is an `Outline`. It is accepted exactly if no identity is declared
twice, whatever the kinds, and everything that an element lists is declared with the kind under
which it is listed (`Outline.Sound`). A document that is refused shows the fault for which it is
refused (`Outline.HasFault`).

* `Outline.ofJson_records`: the elements of an outline are the records that the document has under
  the keys of the kinds, kind by kind and in their order.
* `read_of_wellShaped`: what is accepted, what is answered otherwise, and what the snapshot of an
  accepted document holds.
-/

namespace ApiEvolution

open Json

/-! ## Fields of records -/

namespace Json

variable {α : Type} {read : Json → Reading α}

theorem asList_eq_ok_iff {v : Json} {xs : List α} :
    asList read v = .ok xs ↔
      ∃ items, v = .array items ∧ List.Forall₂ (fun item x => read item = .ok x) items xs := by
  cases v with
  | array items => simp [asList, mapM_eq_ok_iff]
  | _ => simp [asList]

theorem Record.getD_eq_ok_iff {r : Record} {name : String} {default a : α} :
    r.getD name read default = .ok a ↔
      (lookup name r.fields = none ∧ a = default) ∨
        ∃ v, lookup name r.fields = some v ∧ read v = .ok a := by
  rw [Record.getD, Record.get?]
  cases lookup name r.fields with
  | none => simp [bind, Except.bind, pure, Except.pure, eq_comm]
  | some v => cases hread : read v <;> simp [bind, Except.bind, pure, Except.pure, Except.map, hread]

end Json

/-! ## The records of a document -/

theorem Element.kind_of_ofJson {kind : ElementKind} {v : Json} {e : Element}
    (h : Element.ofJson kind v = .ok e) : e.kind = kind := by
  cases kind <;>
    · obtain ⟨_, -, he⟩ := bind_eq_ok_iff.1 h
      cases he
      rfl

theorem Element.kind_of_ofJsons {kind : ElementKind} {items : List Json} {es : List Element}
    (h : List.Forall₂ (fun item e => Element.ofJson kind item = .ok e) items es) :
    ∀ e ∈ es, e.kind = kind := by
  induction h with
  | nil => simp
  | cons hitem _ ih => exact List.forall_mem_cons.2 ⟨Element.kind_of_ofJson hitem, ih⟩

namespace Snapshot

namespace Outline

variable {o : Outline} {kind : ElementKind}

/-- The elements of a kind in the order of the document. -/
def ofKind (o : Outline) (kind : ElementKind) : List Element :=
  o.elements.filter fun e => e.kind = kind

theorem mem_ofKind {e : Element} : e ∈ o.ofKind kind ↔ e ∈ o.elements ∧ e.kind = kind := by
  simp [ofKind]

/-- The records that a document has under the key of a kind, which may be absent. -/
def recordsOf (v : Json) (kind : ElementKind) : Reading (List Element) :=
  asRecord "Snapshot" (["distribution", "package", "version"] ++
    ElementKind.all.map ElementKind.documentKey)
    (fun r => r.getD kind.documentKey (asList (Element.ofJson kind)) []) v

theorem kind_of_mem_getD {r : Record} {es : List Element}
    (h : r.getD kind.documentKey (asList (Element.ofJson kind)) [] = .ok es) :
    ∀ e ∈ es, e.kind = kind := by
  rcases Record.getD_eq_ok_iff.1 h with ⟨-, rfl⟩ | ⟨v, -, hv⟩
  · simp
  · obtain ⟨items, -, hitems⟩ := asList_eq_ok_iff.1 hv
    exact Element.kind_of_ofJsons hitems

theorem ofRecord_records {r : Record} (h : ofRecord r = .ok o) :
    o.elements = ElementKind.all.flatMap o.ofKind ∧
      ∀ kind, r.getD kind.documentKey (asList (Element.ofJson kind)) [] = .ok (o.ofKind kind) := by
  simp only [ofRecord, bind_eq_ok_iff] at h
  obtain ⟨distribution, -, package, -, version, -, lists, hlists, ho⟩ := h
  cases ho
  obtain ⟨groups, hgroups, rfl⟩ := mapM_eq_ok_iff_map.1 hlists
  have hread : ∀ kind, r.getD kind.documentKey (asList (Element.ofJson kind)) [] =
      .ok (groups kind) := fun kind => hgroups kind kind.mem_all
  rw [← List.flatMap_def]
  have hkind : ofKind ⟨distribution, package, version, ElementKind.all.flatMap groups⟩ = groups :=
    funext (ElementKind.filter_flatMap_all fun k => kind_of_mem_getD (hread k))
  rw [hkind]
  exact ⟨rfl, hread⟩

/-- The elements of an outline are the records of the document, kind by kind. -/
theorem ofJson_records {v : Json} (h : Outline.ofJson v = .ok o) :
    o.elements = ElementKind.all.flatMap o.ofKind ∧
      ∀ kind, recordsOf v kind = .ok (o.ofKind kind) := by
  cases v with
  | object members =>
    simp only [Outline.ofJson, recordsOf, asRecord] at h ⊢
    split at h
    · cases h
    · exact ofRecord_records h
  | array items =>
    simp only [Outline.ofJson, recordsOf, asRecord, bind_eq_ok_iff] at h ⊢
    obtain ⟨read, hread, h⟩ := h
    split at h
    · next hlength =>
      cases h
      obtain ⟨helements, hrecords⟩ := ofRecord_records hread
      refine ⟨helements, fun kind => ⟨_, hrecords kind, ?_⟩⟩
      rw [if_pos hlength]
      rfl
    · cases h
  | _ => simp [Outline.ofJson, asRecord] at h

/-! ## Sound outlines -/

/-- What a document has to satisfy beyond its shape: identities are distinct, whatever the kinds, and
what an element lists under a kind is declared with this kind. -/
structure Sound (o : Outline) : Prop where
  distinct : (o.elements.map Element.id).Nodup
  declared : ∀ e ∈ o.elements, ∀ kind, ∀ id ∈ e.children kind, ∃ d ∈ o.ofKind kind, d.id = id

/-- The faults that keep a document from being accepted: an identity that occurs more than once, and
something that is listed and not declared with the kind. -/
def HasFault (o : Outline) : DocumentFault → Prop
  | .repeatedIdentity id => 1 < (o.elements.map Element.id).count id
  | .undeclaredChild container kind child =>
    (∃ e ∈ o.elements, e.id = container ∧ child ∈ e.children kind) ∧
      ∀ d ∈ o.ofKind kind, d.id ≠ child
  | _ => False

/-- Only documents that are not sound have a fault. -/
theorem HasFault.not_sound {fault : DocumentFault} (h : o.HasFault fault) : ¬ o.Sound := by
  intro hsound
  cases fault with
  | repeatedIdentity id =>
    exact absurd h (Nat.not_lt.2 (List.nodup_iff_count_le_one.1 hsound.distinct id))
  | undeclaredChild container kind child =>
    obtain ⟨⟨e, he, -, hchild⟩, hnone⟩ := h
    obtain ⟨d, hd, hid⟩ := hsound.declared e he kind child hchild
    exact hnone d hd hid
  | _ => exact h

end Outline

variable {o : Outline}

/-! ## Faults that are found -/

theorem count_of_firstRepeated? {seen ids : List String} {id : String} (hseen : seen.Nodup)
    (h : firstRepeated? seen ids = some id) : 1 < (seen ++ ids).count id := by
  induction ids generalizing seen with
  | nil => cases h
  | cons x rest ih =>
    rw [firstRepeated?] at h
    split at h
    · next hx =>
      cases h
      have hcount : 0 < seen.count id := List.count_pos_iff.2 hx
      rw [List.count_append, List.count_cons_self]
      omega
    · next hx =>
      have hcount := ih (List.nodup_cons.2 ⟨hx, hseen⟩) h
      rw [List.perm_middle.count_eq id]
      exact hcount

theorem mem_allElements_ofOutline (h : (o.elements.map Element.id).Nodup) {e : Element} :
    e ∈ (ofOutline o).allElements ↔ e ∈ o.elements :=
  (allElements_ofOutline_perm h).mem_iff

theorem nodup_ids_ofOutline (h : (o.elements.map Element.id).Nodup) :
    ((ofOutline o).allElements.map Element.id).Nodup :=
  ((allElements_ofOutline_perm h).map Element.id).nodup_iff.2 h

/-- What a container of the snapshot lists is what an element of the outline lists. -/
theorem mem_children_ofOutline (h : (o.elements.map Element.id).Nodup) {container id : String}
    {kind : ElementKind} :
    id ∈ (ofOutline o).children container kind ↔
      ∃ e ∈ o.elements, e.id = container ∧ id ∈ e.children kind := by
  rw [mem_children_iff (nodup_ids_ofOutline h)]
  exact exists_congr fun e => and_congr_left' (mem_allElements_ofOutline h)

theorem element?_ofOutline (h : (o.elements.map Element.id).Nodup) {id : String} {e : Element} :
    (ofOutline o).element? id = some e ↔ e ∈ o.elements ∧ e.id = id := by
  rw [element?_eq_some_iff (nodup_ids_ofOutline h), mem_allElements_ofOutline h]

theorem declares_ofOutline (h : (o.elements.map Element.id).Nodup) {kind : ElementKind}
    {id : String} : (ofOutline o).declares kind id = true ↔ ∃ d ∈ o.ofKind kind, d.id = id := by
  rw [declares_iff]
  simp only [element?_ofOutline h, Outline.mem_ofKind]
  exact ⟨fun ⟨e, ⟨he, hid⟩, hkind⟩ => ⟨e, ⟨he, hkind⟩, hid⟩,
    fun ⟨e, ⟨he, hkind⟩, hid⟩ => ⟨e, ⟨he, hid⟩, hkind⟩⟩

theorem ofOutline?_eq_ok_iff_sound {s : Snapshot} :
    ofOutline? o = .ok s ↔ o.Sound ∧ s = ofOutline o := by
  rw [ofOutline?_eq_ok_iff, ← and_assoc]
  refine and_congr_left' ⟨?_, ?_⟩
  · rintro ⟨hnodup, hdeclared⟩
    refine ⟨hnodup, fun e he kind id hid => (declares_ofOutline hnodup).1 ?_⟩
    exact hdeclared e.id kind id ((mem_children_ofOutline hnodup).2 ⟨e, he, rfl, hid⟩)
  · rintro ⟨hnodup, hdeclared⟩
    refine ⟨hnodup, fun container kind id hid => (declares_ofOutline hnodup).2 ?_⟩
    obtain ⟨e, he, -, hchild⟩ := (mem_children_ofOutline hnodup).1 hid
    exact hdeclared e he kind id hchild

/-- An outline is accepted, or it is refused for a fault that it has. -/
theorem ofOutline?_eq (o : Outline) :
    (o.Sound ∧ ofOutline? o = .ok (ofOutline o)) ∨
      ∃ fault, o.HasFault fault ∧ ofOutline? o = .error (.invalidDocument fault) := by
  by_cases hsound : o.Sound
  · exact .inl ⟨hsound, ofOutline?_eq_ok_iff_sound.2 ⟨hsound, rfl⟩⟩
  refine .inr ?_
  cases hrepeated : firstRepeated? [] (o.elements.map Element.id) with
  | some id =>
    refine ⟨.repeatedIdentity id, count_of_firstRepeated? List.nodup_nil hrepeated, ?_⟩
    simp [ofOutline?, hrepeated]
  | none =>
    have hnodup : (o.elements.map Element.id).Nodup := (firstRepeated?_eq_none_iff.1 hrepeated).1
    cases hfind : (ofOutline o).listings.find? fun l => !(ofOutline o).declares l.2.1 l.2.2 with
    | none =>
      have hok : ofOutline? o = .ok (ofOutline o) := by simp [ofOutline?, hrepeated, hfind]
      exact absurd (ofOutline?_eq_ok_iff_sound.1 hok).1 hsound
    | some l =>
      obtain ⟨container, kind, child⟩ := l
      refine ⟨.undeclaredChild container kind child, ⟨?_, ?_⟩, ?_⟩
      · exact (mem_children_ofOutline hnodup).1 (mem_listings.1 (List.mem_of_find?_eq_some hfind))
      · have hnot := List.find?_some hfind
        intro d hd hid
        rw [(declares_ofOutline hnodup).2 ⟨d, hd, hid⟩] at hnot
        cases hnot
      · simp [ofOutline?, hrepeated, hfind]

/-! ## Reading a document -/

theorem read_of_outline {text : String} {v : Json} (hv : Json.read? text = some v)
    (ho : Outline.ofJson v = .ok o) : read text = ofOutline? o := by
  rw [read, hv]
  simp only [ofJson, ho]
  rfl

/-- A printed document is accepted if its value is, with the same snapshot. -/
theorem exists_read_pretty {v : Json} (hv : v.isFaithful = true) {P : Snapshot → Bool}
    (h : (ofJson v).toOption.any P = true) : ∃ s, read v.pretty = .ok s ∧ P s = true := by
  obtain ⟨s, hs, hP⟩ := exists_eq_ok_of_any h
  refine ⟨s, ?_, hP⟩
  rw [read, Json.read?_pretty hv]
  exact hs

/-- A document of the right shape is accepted exactly if its identities are distinct and all that is
listed is declared, and otherwise it is refused as invalid, for a fault that it has. An accepted
document's snapshot has, kind by kind, the records of the document in their order, and an identity
is looked up as the one record that declares it. -/
theorem read_of_wellShaped {text : String} {v : Json} (hv : Json.read? text = some v)
    (ho : Outline.ofJson v = .ok o) :
    ((∃ s, read text = .ok s) ↔ o.Sound) ∧
    (¬ o.Sound → ∃ fault, o.HasFault fault ∧ read text = .error (.invalidDocument fault)) ∧
    ∀ s, read text = .ok s →
      (∀ kind, Outline.recordsOf v kind = .ok (s.elements kind)) ∧
      ∀ id e, s.element? id = some e ↔ e ∈ s.elements e.kind ∧ e.id = id := by
  rw [read_of_outline hv ho]
  refine ⟨?_, ?_, ?_⟩
  · simp [ofOutline?_eq_ok_iff_sound]
  · intro hsound
    exact (ofOutline?_eq o).resolve_left fun h => hsound h.1
  · intro s hs
    obtain ⟨hsound, rfl⟩ := ofOutline?_eq_ok_iff_sound.1 hs
    have helements : ∀ kind, (ofOutline o).elements kind = o.ofKind kind :=
      elements_ofOutline hsound.distinct
    constructor
    · intro kind
      rw [helements, (Outline.ofJson_records ho).2]
    · intro id e
      rw [element?_ofOutline hsound.distinct, helements, Outline.mem_ofKind]
      simp

/-- An accepted document is a sound outline, and the snapshot has its elements in their order. -/
theorem exists_outline_of_read {text : String} {s : Snapshot} (h : read text = .ok s) :
    ∃ v o, Json.read? text = some v ∧ Outline.ofJson v = .ok o ∧ o.Sound ∧ s = ofOutline o ∧
      s.allElements = o.elements := by
  obtain ⟨v, o, hv, ho, hs⟩ := read_eq_ok_iff.1 h
  obtain ⟨hsound, rfl⟩ := ofOutline?_eq_ok_iff_sound.1 hs
  refine ⟨v, o, hv, ho, hsound, rfl, ?_⟩
  have helements : (ofOutline o).elements = o.ofKind :=
    funext (elements_ofOutline hsound.distinct)
  rw [allElements, helements, ← (Outline.ofJson_records ho).1]

/-- A document with elements of every kind: a class with a method and an attribute, and the
parameter and the result of the method. -/
def smallLibrary : Json :=
  .object [("distribution", .text "lib"), ("package", .text "lib"), ("version", .text "1.0"),
    ("classes", .array [.object [("id", .text "lib/A"), ("qname", .text "lib.A"),
      ("methods", .array [.text "lib/A/f"]), ("attributes", .array [.text "lib/A/x"])]]),
    ("functions", .array [.object [("id", .text "lib/A/f"), ("qname", .text "lib.A.f"),
      ("parameters", .array [.text "lib/A/f/p"]), ("results", .array [.text "lib/A/f/r"])]]),
    ("parameters", .array [.object [("id", .text "lib/A/f/p"), ("qname", .text "lib.A.f.p"),
      ("default_value", .text "1"), ("docstring", .object [("type", .text "float in [0.1, 5)")])]]),
    ("attributes", .array [.object [("id", .text "lib/A/x"), ("name", .text "x"),
      ("type_hint", .text "\x7b'a', 'b'\x7d or None"), ("type", .integer 7)]]),
    ("results", .array [.object [("id", .text "lib/A/f/r"), ("name", .text "r")]])]

theorem read_of_wellShaped_smallLibrary :
    Json.read? smallLibrary.pretty = some smallLibrary ∧
    ∃ o, Outline.ofJson smallLibrary = .ok o ∧ o.elements.length = 5 ∧
      ((∃ s, read smallLibrary.pretty = .ok s) ↔ o.Sound) ∧
      (¬ o.Sound → ∃ fault, o.HasFault fault ∧
        read smallLibrary.pretty = .error (.invalidDocument fault)) ∧
      ∀ s, read smallLibrary.pretty = .ok s →
        (∀ kind, Outline.recordsOf smallLibrary kind = .ok (s.elements kind)) ∧
        ∀ id e, s.element? id = some e ↔ e ∈ s.elements e.kind ∧ e.id = id := by
  have hv : Json.read? smallLibrary.pretty = some smallLibrary := read?_pretty (by decide)
  have hshape : (Outline.ofJson smallLibrary).toOption.any (fun o => o.elements.length = 5) =
      true := by
    decide +kernel
  obtain ⟨o, ho, hlength⟩ := exists_eq_ok_of_any hshape
  exact ⟨hv, o, ho, by simpa using hlength, read_of_wellShaped hv ho⟩

end Snapshot

end ApiEvolution
