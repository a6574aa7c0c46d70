import ApiEvolution.Proofs.Candidates
import ApiEvolution.Proofs.Outline

/-!
# The indices of a snapshot

Beside its declarations a snapshot keeps an index of the containers that list an identity and one of
the classes that have a qualified name. Both are filled declaration by declaration, the last entry
for a text counting.

* `parentOf?_ofOutline` and `classNames_ofOutline` say what the indices hold after a whole document.
* In the snapshot of an accepted document they agree with the declarations (`indexed_of_read`).
  Where an identity is listed by one container only, the index has this container
  (`parentOf?_of_mem_children`, `parentOf?_eq_some_iff`).
-/

namespace ApiEvolution

/-! ## One index -/

namespace NameIndex

variable {index : NameIndex} {names : List String} {name id : String}

theorem get?_upsert {entry : String} :
    get? (upsert (·.1) (entry, id) index) name =
      if name = entry then some id else index.get? name := by
  induction index with
  | nil =>
    by_cases h : entry = name <;> simp [upsert, get?, h, eq_comm]
  | cons e rest ih =>
    rw [upsert]
    by_cases he : e.1 = entry
    · rw [if_pos he]
      by_cases h : entry = name
      · simp [get?, h]
      · have hne : name ≠ entry := fun heq => h heq.symm
        simp [get?, he, h, hne]
    · rw [if_neg he]
      simp only [get?, List.find?_cons] at ih ⊢
      by_cases hname : e.1 = name
      · have hne : name ≠ entry := fun heq => he (hname.trans heq)
        simp [hname, hne]
      · simpa [hname] using ih

/-- The texts that are assigned have the new identity, all others what they had. -/
theorem get?_assign :
    (index.assign names id).get? name = if name ∈ names then some id else index.get? name := by
  induction names generalizing index with
  | nil => simp [assign]
  | cons n rest ih =>
    have hcons : index.assign (n :: rest) id =
        NameIndex.assign (upsert (·.1) (n, id) index) rest id := rfl
    rw [hcons, ih, get?_upsert]
    by_cases hrest : name ∈ rest <;> by_cases hn : name = n <;> simp [hrest, hn]

end NameIndex

/-! ## What an element puts into the indices -/

namespace Element

/-- The identities of a kind that an element lists. -/
def children : Element → ElementKind → List String
  | .ofClass c, .functionKind => c.methods
  | .ofClass c, .attributeKind => c.attributes
  | .ofFunction f, .parameterKind => f.parameters
  | .ofFunction f, .resultKind => f.results
  | _, _ => []

/-- All identities that an element lists. -/
def allChildren (e : Element) : List String :=
  ElementKind.all.flatMap e.children

/-- The qualified name of a class. -/
def className? : Element → Option String
  | .ofClass c => some c.qname
  | _ => none

theorem mem_allChildren {e : Element} {id : String} :
    id ∈ e.allChildren ↔ ∃ kind, id ∈ e.children kind := by
  rw [allChildren, List.mem_flatMap]
  exact ⟨fun ⟨kind, _, h⟩ => ⟨kind, h⟩, fun ⟨kind, h⟩ => ⟨kind, kind.mem_all, h⟩⟩

end Element

namespace Snapshot

variable {s : Snapshot} {e : Element} {es : List Element} {id : String}

/-- An element becomes the container of all that it lists. -/
theorem parentOf?_add :
    (s.add e).parentOf? id = if id ∈ e.allChildren then some e.id else s.parentOf? id := by
  cases e with
  | ofClass c =>
    have hall : id ∈ (Element.ofClass c).allChildren ↔ id ∈ c.methods ∨ id ∈ c.attributes := by
      simp [Element.allChildren, ElementKind.all, Element.children]
    simp only [parentOf?, add, addClass, NameIndex.get?_assign, Element.id, hall]
    by_cases hm : id ∈ c.methods <;> by_cases ha : id ∈ c.attributes <;> simp [hm, ha]
  | ofFunction f =>
    have hall : id ∈ (Element.ofFunction f).allChildren ↔ id ∈ f.parameters ∨ id ∈ f.results := by
      simp [Element.allChildren, ElementKind.all, Element.children]
    simp only [parentOf?, add, addFunction, NameIndex.get?_assign, Element.id, hall]
    by_cases hp : id ∈ f.parameters <;> by_cases hr : id ∈ f.results <;> simp [hp, hr]
  | ofParameter | ofAttribute | ofResult =>
    simp [Element.allChildren, ElementKind.all, Element.children, parentOf?, add, addParameter,
      addAttribute, addResult]

/-- A class takes its qualified name. -/
theorem classNames_add {qname : String} :
    (s.add e).classNames.get? qname =
      if e.className? = some qname then some e.id else s.classNames.get? qname := by
  cases e with
  | ofClass c =>
    simp [add, addClass, NameIndex.get?_assign, Element.className?, Element.id, eq_comm]
  | ofFunction | ofParameter | ofAttribute | ofResult =>
    simp [add, addFunction, addParameter, addAttribute, addResult, Element.className?]

/-! ## What the indices hold in the end -/

/-- Of several containers that list an identity the last one counts. -/
theorem parentOf?_foldl_add :
    (es.foldl add s).parentOf? id =
      ((es.reverse.find? fun e => id ∈ e.allChildren).map Element.id).or (s.parentOf? id) := by
  induction es using List.reverseRecOn with
  | nil => rfl
  | append_singleton es e ih =>
    rw [List.foldl_append, List.foldl_cons, List.foldl_nil, parentOf?_add, ih, List.reverse_append]
    by_cases h : id ∈ e.allChildren <;> simp [h]

theorem parentOf?_ofOutline {o : Outline} :
    (ofOutline o).parentOf? id =
      (o.elements.reverse.find? fun e => id ∈ e.allChildren).map Element.id := by
  rw [ofOutline, parentOf?_foldl_add]
  exact Option.or_none

/-- Of several classes of one qualified name the last one counts. -/
theorem classNames_foldl_add {qname : String} :
    (es.foldl add s).classNames.get? qname =
      ((es.reverse.find? fun e => e.className? = some qname).map Element.id).or
        (s.classNames.get? qname) := by
  induction es using List.reverseRecOn with
  | nil => rfl
  | append_singleton es e ih =>
    rw [List.foldl_append, List.foldl_cons, List.foldl_nil, classNames_add, ih, List.reverse_append]
    by_cases h : e.className? = some qname <;> simp [h]

theorem classNames_ofOutline {o : Outline} {qname : String} :
    (ofOutline o).classNames.get? qname =
      (o.elements.reverse.find? fun e => e.className? = some qname).map Element.id := by
  rw [ofOutline, classNames_foldl_add]
  exact Option.or_none

/-! ## Indices and declarations -/

/-- A class is looked up before all other elements. -/
theorem class?_eq_some_iff {c : ClassDecl} :
    s.class? id = some c ↔ s.element? id = some (.ofClass c) := by
  rw [element?]
  cases s.class? id with
  | some d => simp
  | none =>
    cases s.function? id <;> cases s.parameter? id <;> cases s.attribute? id <;>
      cases s.result? id <;> simp

theorem function?_eq_some_iff (hs : (s.allElements.map Element.id).Nodup) {f : FunctionDecl} :
    s.function? id = some f ↔ s.element? id = some (.ofFunction f) := by
  constructor
  · intro h
    have hid : f.id = id := by simpa using List.find?_some h
    have hmem : Element.ofFunction f ∈ s.elements .functionKind :=
      List.mem_map_of_mem (List.mem_of_find?_eq_some h)
    rw [← hid]
    exact element?_id hs (mem_allElements_iff.2 hmem)
  · intro h
    rw [element?] at h
    cases hc : s.class? id with
    | some c => simp [hc] at h
    | none =>
      cases hf : s.function? id with
      | some g => simpa [hc, hf] using h
      | none =>
        cases hp : s.parameter? id <;> cases ha : s.attribute? id <;> cases hr : s.result? id <;>
          simp [hc, hf, hp, ha, hr] at h

/-- A container lists what the declaration of its identity lists. -/
theorem children_eq (hs : (s.allElements.map Element.id).Nodup) (container : String)
    (kind : ElementKind) :
    s.children container kind = ((s.element? container).map (·.children kind)).getD [] := by
  have hclass : ∀ list : ClassDecl → List String,
      (∀ e, s.element? container = some e → ∀ c, e ≠ .ofClass c) →
        ((s.class? container).map list).getD [] = [] := by
    intro list h
    cases hc : s.class? container with
    | none => rfl
    | some c => exact absurd rfl (h _ (class?_eq_some_iff.1 hc) c)
  have hfunction : ∀ list : FunctionDecl → List String,
      (∀ e, s.element? container = some e → ∀ f, e ≠ .ofFunction f) →
        ((s.function? container).map list).getD [] = [] := by
    intro list h
    cases hf : s.function? container with
    | none => rfl
    | some f => exact absurd rfl (h _ ((function?_eq_some_iff hs).1 hf) f)
  cases he : s.element? container with
  | none =>
    simp only [he] at hclass hfunction
    cases kind <;> simp [children, hclass, hfunction]
  | some e =>
    simp only [he] at hclass hfunction
    cases e with
    | ofClass c =>
      have hc := class?_eq_some_iff.2 he
      cases kind <;> simp [children, hc, hfunction, Element.children]
    | ofFunction f =>
      have hf := (function?_eq_some_iff hs).2 he
      cases kind <;> simp [children, hf, hclass, Element.children]
    | ofParameter | ofAttribute | ofResult =>
      cases kind <;> simp [children, hclass, hfunction, Element.children]

/-- A coherent snapshot with indices that say no more and no less than its declarations. -/
structure Indexed (s : Snapshot) : Prop extends s.Coherent where
  listed_of_parent : ∀ id c, s.parentOf? id = some c → ∃ kind, id ∈ s.children c kind
  parent_of_listed : ∀ c kind id, id ∈ s.children c kind → ∃ c', s.parentOf? id = some c'
  named_of_index : ∀ qname id, s.classNames.get? qname = some id →
    ∃ c ∈ s.classes, c.id = id ∧ c.qname = qname
  index_of_named : ∀ c ∈ s.classes, ∃ id, s.classNames.get? c.qname = some id

theorem element?_eq_some_iff (hs : (s.allElements.map Element.id).Nodup) :
    s.element? id = some e ↔ e ∈ s.allElements ∧ e.id = id := by
  constructor
  · exact mem_of_element?
  · rintro ⟨he, rfl⟩
    exact element?_id hs he

/-- The children of a container are those of an element with its identity. -/
theorem mem_children_iff (hs : (s.allElements.map Element.id).Nodup) {container : String}
    {kind : ElementKind} :
    id ∈ s.children container kind ↔
      ∃ e ∈ s.allElements, e.id = container ∧ id ∈ e.children kind := by
  rw [children_eq hs]
  constructor
  · intro h
    cases he : s.element? container with
    | none => simp [he] at h
    | some e =>
      obtain ⟨hmem, hid⟩ := mem_of_element? he
      exact ⟨e, hmem, hid, by simpa [he] using h⟩
  · rintro ⟨e, hmem, rfl, h⟩
    simpa [element?_id hs hmem] using h

theorem indexed_ofOutline {o : Outline} (hs : (ofOutline o).Coherent)
    (h : (o.elements.map Element.id).Nodup) : (ofOutline o).Indexed := by
  have hperm := allElements_ofOutline_perm h
  have hmem : ∀ e, e ∈ (ofOutline o).allElements ↔ e ∈ o.elements.reverse := by
    intro e
    rw [List.mem_reverse, hperm.mem_iff]
  refine ⟨hs, ?_, ?_, ?_, ?_⟩
  · intro id c hparent
    rw [parentOf?_ofOutline] at hparent
    obtain ⟨e, he, rfl⟩ := Option.map_eq_some_iff.1 hparent
    obtain ⟨kind, hchild⟩ := Element.mem_allChildren.1 (by simpa using List.find?_some he)
    exact ⟨kind, (mem_children_iff hs.distinct).2
      ⟨e, (hmem e).2 (List.mem_of_find?_eq_some he), rfl, hchild⟩⟩
  · intro c kind id hchild
    obtain ⟨e, he, -, hchild⟩ := (mem_children_iff hs.distinct).1 hchild
    have hall : id ∈ e.allChildren := Element.mem_allChildren.2 ⟨kind, hchild⟩
    have hfound : (o.elements.reverse.find? fun e => id ∈ e.allChildren).isSome := by
      rw [List.find?_isSome]
      exact ⟨e, (hmem e).1 he, by simpa using hall⟩
    obtain ⟨e', he'⟩ := Option.isSome_iff_exists.1 hfound
    exact ⟨e'.id, by rw [parentOf?_ofOutline, he', Option.map_some]⟩
  · intro qname id hindex
    rw [classNames_ofOutline] at hindex
    obtain ⟨e, he, rfl⟩ := Option.map_eq_some_iff.1 hindex
    have hname : e.className? = some qname := by simpa using List.find?_some he
    have hall := (hmem e).2 (List.mem_of_find?_eq_some he)
    cases e with
    | ofClass c =>
      have hclass : Element.ofClass c ∈ (ofOutline o).elements .classKind :=
        mem_allElements_iff.1 hall
      obtain ⟨c', hc', heq⟩ := List.mem_map.1 hclass
      cases heq
      exact ⟨c, hc', rfl, by simpa [Element.className?] using hname⟩
    | ofFunction | ofParameter | ofAttribute | ofResult => simp [Element.className?] at hname
  · intro c hc
    have hclass : Element.ofClass c ∈ (ofOutline o).elements .classKind := List.mem_map_of_mem hc
    have hall : Element.ofClass c ∈ (ofOutline o).allElements := mem_allElements_iff.2 hclass
    have hfound : (o.elements.reverse.find? fun e => e.className? = some c.qname).isSome := by
      rw [List.find?_isSome]
      exact ⟨_, (hmem _).1 hall, by simp [Element.className?]⟩
    obtain ⟨e, he⟩ := Option.isSome_iff_exists.1 hfound
    exact ⟨e.id, by rw [classNames_ofOutline, he, Option.map_some]⟩

/-- The indices of an accepted document's snapshot agree with the declarations. -/
theorem indexed_of_read {text : String} (h : read text = .ok s) : s.Indexed := by
  have hs := coherent_of_read h
  obtain ⟨_, o, -, -, ho⟩ := read_eq_ok_iff.1 h
  obtain ⟨hnodup, -, rfl⟩ := ofOutline?_eq_ok_iff.1 ho
  exact indexed_ofOutline hs hnodup

/-! ## The container of an identity -/

variable {kind : ElementKind} {container : String}

/-- Nothing is listed by two containers. -/
def Exclusive (s : Snapshot) : Prop :=
  ∀ kind container container' id, id ∈ s.children container kind →
    id ∈ s.children container' kind → container = container'

theorem Exclusive.unshared (h : s.Exclusive) : s.Unshared :=
  fun kind container container' id _ => h kind container container' id

theorem exclusive_iff {s : Snapshot} :
    s.Exclusive ↔ ∀ l ∈ s.listings, ∀ l' ∈ s.listings, l.2 = l'.2 → l.1 = l'.1 := by
  constructor
  · rintro h ⟨c, kind, id⟩ hl ⟨c', _, _⟩ hl' ⟨⟩
    exact h kind c c' id (mem_listings.1 hl) (mem_listings.1 hl')
  · intro h kind c c' id hid hid'
    exact h (c, kind, id) (mem_listings.2 hid) (c', kind, id) (mem_listings.2 hid') rfl

instance (s : Snapshot) : Decidable s.Exclusive :=
  decidable_of_iff _ exclusive_iff.symm

/-- What is listed is declared with the kind under which it is listed, and with no other. -/
theorem kind_eq_of_mem_children (hs : s.Coherent) {kind' : ElementKind} {container' : String}
    (h : id ∈ s.children container kind) (h' : id ∈ s.children container' kind') : kind = kind' :=
  kind_eq_of_declares (hs.declared container kind id h) (hs.declared container' kind' id h')

/-- The only container that lists an identity is found as its container. -/
theorem parentOf?_of_mem_children (hs : s.Indexed)
    (hone : ∀ container', id ∈ s.children container' kind → container' = container)
    (h : id ∈ s.children container kind) : s.parentOf? id = some container := by
  obtain ⟨container', hparent⟩ := hs.parent_of_listed container kind id h
  obtain ⟨kind', h'⟩ := hs.listed_of_parent id container' hparent
  obtain rfl := kind_eq_of_mem_children hs.toCoherent h h'
  rw [hparent, hone container' h']

theorem parentOf?_eq_some_iff (hs : s.Indexed) (hx : s.Exclusive) :
    s.parentOf? id = some container ↔ ∃ kind, id ∈ s.children container kind := by
  constructor
  · exact hs.listed_of_parent id container
  · rintro ⟨kind, h⟩
    exact parentOf?_of_mem_children hs (fun c' h' => hx kind c' container id h' h) h

/-- What is found as the container of an element lists it with its kind. -/
theorem mem_children_of_parentOf? (hs : s.Indexed) (he : e ∈ s.elements kind)
    (h : s.parentOf? e.id = some container) : e.id ∈ s.children container kind := by
  obtain ⟨kind', hchild⟩ := hs.listed_of_parent e.id container h
  obtain rfl : kind' = kind := kind_eq_of_declares (hs.declared container kind' e.id hchild)
    (declares_of_mem_elements hs.distinct he)
  exact hchild

/-- A class has no container. -/
theorem parentOf?_class (hs : s.Indexed) (h : e ∈ s.elements .classKind) :
    s.parentOf? e.id = none := by
  cases hparent : s.parentOf? e.id with
  | none => rfl
  | some c => simpa [children] using mem_children_of_parentOf? hs h hparent

/-- What lists methods or attributes is a class. -/
theorem declares_class_of_mem_children (hs : s.Coherent)
    (hkind : kind = .functionKind ∨ kind = .attributeKind) (h : id ∈ s.children container kind) :
    s.declares .classKind container = true := by
  obtain ⟨e, he, rfl, hlisted⟩ := exists_container h
  rcases List.mem_append.1 he with he | he
  · exact declares_of_mem_elements hs.distinct he
  · rw [kind_of_mem_elements he] at hlisted
    rcases hkind with rfl | rfl <;> simp [listedKinds] at hlisted

end Snapshot

/-! ## A document without sharing -/

/-- A class. -/
def baseClass : ClassDecl :=
  { id := "A", qname := "A" }

/-- A subclass with an attribute. -/
def subclass : ClassDecl :=
  { id := "B", qname := "B", superclasses := ["A"], attributes := ["x"] }

/-- A document of the two classes. -/
def classWithSubclass : Json :=
  .object [("distribution", .text "l"), ("package", .text "l"), ("version", .text "1"),
    ("classes", .array [.object [("id", .text "A"), ("qname", .text "A")],
      .object [("id", .text "B"), ("qname", .text "B"), ("superclasses", .array [.text "A"]),
        ("attributes", .array [.text "x"])]]),
    ("attributes", .array [.object [("id", .text "x"), ("name", .text "x")]])]

theorem exists_read_classWithSubclass :
    ∃ s, Snapshot.read classWithSubclass.compact = .ok s ∧ s.Exclusive ∧
      s.classes = [baseClass, subclass] ∧ s.functions = [] := by
  have hread : (Snapshot.read classWithSubclass.compact).toOption.any (fun s => decide
      (s.Exclusive ∧ s.classes = [baseClass, subclass] ∧ s.functions = [])) = true := by
    decide +kernel
  obtain ⟨s, hs, h⟩ := exists_eq_ok_of_any hread
  exact ⟨s, hs, of_decide_eq_true h⟩

end ApiEvolution
