import ApiEvolution.Proofs.EffectiveValues
import ApiEvolution.Proofs.Ledger
import ApiEvolution.Proofs.ParentIndex
import ApiEvolution.Proofs.WellFormedTypes
import ApiEvolution.Usage.Generation

/-!
# Proposals

What is proposed for a snapshot is proposed element by element, in the order of declaration
(`proposals_eq_ok_iff`), and each annotation is told by its element (`mem_proposals_iff`).

* `constantValue?_eq_some_iff`: when a parameter has a value that all calls agree on.
* `proposals_eq_error_iff`: proposing fails exactly if the values of a parameter are too many to be
  added up (`ValuesOverflow`).
* `pairwise_proposals`: the annotations that are proposed for an element have kinds that do not
  exclude each other, and other elements have other identities. So proposals do not conflict.
-/

namespace ApiEvolution

/-! ## Members of a family -/

namespace ValueType

variable {t : ValueType}

theorem isSome_boundary?_iff : t.boundary?.isSome ↔ ∃ b, .boundary b ∈ t.members := by
  rw [boundary?, List.findSome?_isSome_iff]
  constructor
  · rintro ⟨m, hm, hsome⟩
    cases m with
    | boundary b => exact ⟨b, hm⟩
    | named | enumeration | union => cases hsome
  · rintro ⟨b, hb⟩
    exact ⟨_, hb, rfl⟩

theorem exists_boundary_iff {type : Option ValueType} :
    (∃ b, type.bind boundary? = some b) ↔ ∃ t ∈ type, ∃ b, .boundary b ∈ t.members := by
  simp only [← isSome_boundary?_iff, Option.isSome_iff_exists, Option.bind_eq_some_iff]
  exact exists_comm.trans (exists_congr fun t => exists_and_left)

theorem isSome_enumeration?_iff : t.enumeration?.isSome ↔ ∃ vs, .enumeration vs ∈ t.members := by
  rw [enumeration?, List.findSome?_isSome_iff]
  constructor
  · rintro ⟨m, hm, hsome⟩
    cases m with
    | enumeration vs => exact ⟨vs, hm⟩
    | named | boundary | union => cases hsome
  · rintro ⟨vs, hvs⟩
    exact ⟨_, hvs, rfl⟩

theorem exists_enumeration_iff {type : Option ValueType} :
    (∃ vs, type.bind enumeration? = some vs) ↔ ∃ t ∈ type, ∃ vs, .enumeration vs ∈ t.members := by
  simp only [← isSome_enumeration?_iff, Option.isSome_iff_exists, Option.bind_eq_some_iff]
  exact exists_comm.trans (exists_congr fun t => exists_and_left)

theorem mem_of_enumeration? {vs : List String} (h : t.enumeration? = some vs) :
    .enumeration vs ∈ t.members := by
  obtain ⟨m, hm, hsome⟩ := List.exists_of_findSome?_eq_some h
  cases m with
  | enumeration vs' =>
    obtain rfl := Option.some.inj hsome
    exact hm
  | named | boundary | union => cases hsome

theorem IsWellFormed.enumeration?_ne_nil (h : t.IsWellFormed) : t.enumeration? ≠ some [] :=
  fun hnil => h.proper _ (mem_of_enumeration? hnil) rfl

end ValueType

/-! ## Proposals by element -/

/-- The kinds of what may be proposed for an element, in order. -/
def proposedKinds : ElementKind → List AnnotationKind
  | .classKind => [.remove]
  | .functionKind => [.remove]
  | .parameterKind => [.constant, .boundary, .enumeration]
  | .attributeKind => []
  | .resultKind => []

/-- What is proposed for an element, if this does not fail. -/
def elementPayloads (s : Snapshot) (u : UsageCounts) : Element → List Payload
  | .ofClass c => if c.isPublic && u.classes.get c.id = 0 then [.remove] else []
  | .ofFunction f => if f.isPublic && u.functions.get f.id = 0 then [.remove] else []
  | .ofParameter p => (parameterPayloads s u p).toOption.getD []
  | .ofAttribute _ => []
  | .ofResult _ => []

/-- The annotations that are proposed for an element. -/
def elementProposals (s : Snapshot) (u : UsageCounts) (author : String) (e : Element) :
    List Annotation :=
  (elementPayloads s u e).map (.ofPayload e.id author)

variable {s : Snapshot} {u : UsageCounts} {author : String} {p : ParameterDecl}

theorem map_filter_eq_flatMap {α β : Type} (p : α → Bool) (f : α → β) (xs : List α) :
    (xs.filter p).map f = xs.flatMap fun x => if p x then [f x] else [] := by
  induction xs with
  | nil => rfl
  | cons x xs ih =>
    rw [List.flatMap_cons, ← ih]
    cases hp : p x <;> simp [hp]

theorem flatMap_elementProposals (s : Snapshot) (u : UsageCounts) (author : String) :
    s.allElements.flatMap (elementProposals s u author) =
      (s.classes.filter fun c => c.isPublic && u.classes.get c.id = 0).map
          (fun c => .ofPayload c.id author .remove) ++
        (s.functions.filter fun f => f.isPublic && u.functions.get f.id = 0).map
          (fun f => .ofPayload f.id author .remove) ++
        (s.parameters.map fun p => elementProposals s u author (.ofParameter p)).flatten := by
  have hunused : ∀ (unused : Bool) (id : String),
      (if unused then [(.ofPayload id author .remove : Annotation)] else []) =
        (if unused then [Payload.remove] else []).map (.ofPayload id author) := by
    intro unused id
    cases unused <;> rfl
  simp only [Snapshot.allElements, ElementKind.all, Snapshot.elements, List.flatMap_cons,
    List.flatMap_nil, List.flatMap_append, List.flatMap_map, map_filter_eq_flatMap, hunused,
    elementProposals, elementPayloads, Element.id, List.map_nil, List.append_nil]
  simp [List.flatMap]

theorem map_parameterPayloads_eq_ok_iff {annotations : List Annotation} :
    (parameterPayloads s u p).map (fun payloads => payloads.map (.ofPayload p.id author)) =
        .ok annotations ↔
      (∃ payloads, parameterPayloads s u p = .ok payloads) ∧
        annotations = elementProposals s u author (.ofParameter p) := by
  rw [map_eq_ok_iff, elementProposals, elementPayloads]
  cases parameterPayloads s u p <;> simp [Except.toOption, Element.id, eq_comm]

/-- If nothing fails for the parameters, the proposals are those of all elements in order. -/
theorem proposals_eq_ok_iff {proposed : List Annotation} :
    proposals s u author = .ok proposed ↔
      (∀ p ∈ s.parameters, ∃ payloads, parameterPayloads s u p = .ok payloads) ∧
        proposed = s.allElements.flatMap (elementProposals s u author) := by
  rw [proposals, bind_eq_ok_iff, flatMap_elementProposals]
  constructor
  · rintro ⟨_, hmap, hpure⟩
    obtain ⟨g, hg, rfl⟩ := mapM_eq_ok_iff_map.1 hmap
    cases hpure
    have hparameter := fun p hp => map_parameterPayloads_eq_ok_iff.1 (hg p hp)
    refine ⟨fun p hp => (hparameter p hp).1, ?_⟩
    rw [List.map_congr_left fun p hp => (hparameter p hp).2]
  · rintro ⟨hok, rfl⟩
    refine ⟨_, mapM_eq_ok_iff_map.2 ⟨_, fun p hp => ?_, rfl⟩, rfl⟩
    exact map_parameterPayloads_eq_ok_iff.2 ⟨hok p hp, rfl⟩

/-- The type of a parameter has an enumeration only if this has a value. -/
theorem bind_enumeration?_ne_nil (p : ParameterDecl) :
    p.type.bind ValueType.enumeration? ≠ some [] := by
  intro hnil
  obtain ⟨t, ht, hnil⟩ := Option.bind_eq_some_iff.1 hnil
  exact (TypeText.isWellFormed_of_resolve (p.type_eq.symm.trans ht)).enumeration?_ne_nil hnil

theorem ParameterDecl.mem_payloads_iff {constant : Option DefaultValue} {payload : Payload} :
    payload ∈ p.payloads constant ↔
      (∃ value, constant = some value ∧ payload = .constant value) ∨ constant = none ∧
        ((∃ b, p.type.bind ValueType.boundary? = some b ∧ payload = .boundary (.ofBoundary b)) ∨
          ∃ vs, p.type.bind ValueType.enumeration? = some vs ∧
            payload = .enumeration (upperCamelCase p.name) (enumPairs vs)) := by
  cases constant with
  | some value => simp [payloads]
  | none =>
    have hvalues := bind_enumeration?_ne_nil p
    rw [payloads]
    revert hvalues
    rcases p.type.bind ValueType.boundary? with _ | b <;>
      rcases p.type.bind ValueType.enumeration? with _ | _ | ⟨v, vs⟩ <;> simp

/-- What is proposed for a public parameter: its constant value, or else the boundary of its type
and the enumeration, as far as there are any. -/
theorem mem_elementPayloads_parameter {payload : Payload} :
    payload ∈ elementPayloads s u (.ofParameter p) ↔ p.isPublic = true ∧
      ∃ constant, constantValue? s u p = .ok constant ∧ payload ∈ p.payloads constant := by
  rw [elementPayloads, parameterPayloads]
  cases p.isPublic with
  | false => simp [Except.toOption]
  | true => cases constantValue? s u p <;> simp [Except.map, Except.toOption]

theorem ParameterDecl.map_kind_payloads (p : ParameterDecl) (constant : Option DefaultValue) :
    ((p.payloads constant).map Payload.kind).Sublist (proposedKinds .parameterKind) := by
  cases constant with
  | some value => simp [payloads, proposedKinds, Payload.kind]
  | none =>
    rw [payloads]
    rcases p.type.bind ValueType.boundary? with _ | b <;>
      rcases p.type.bind ValueType.enumeration? with _ | _ | ⟨v, vs⟩ <;>
        simp [proposedKinds, Payload.kind]

/-- The kinds of the proposals for an element are in their order, each of them at most once. -/
theorem map_kind_elementPayloads (e : Element) :
    ((elementPayloads s u e).map Payload.kind).Sublist (proposedKinds e.kind) := by
  cases e with
  | ofClass c | ofFunction f =>
    rw [elementPayloads]
    split
    · exact List.Sublist.refl _
    · exact List.nil_sublist _
  | ofParameter p =>
    rw [elementPayloads, parameterPayloads]
    split
    · cases constantValue? s u p with
      | error _ => exact List.nil_sublist _
      | ok constant => exact p.map_kind_payloads constant
    · exact List.nil_sublist _
  | ofAttribute a | ofResult r => exact List.nil_sublist _

theorem kind_mem_of_mem_elementPayloads {e : Element} {payload : Payload}
    (h : payload ∈ elementPayloads s u e) : payload.kind ∈ proposedKinds e.kind :=
  (map_kind_elementPayloads e).subset (List.mem_map_of_mem h)

/-! ## Constant values -/

/-- The function that contains a parameter is called, the parameter is used, and it has one literal
in all these calls. Of several functions that list the parameter, the one in the index of containers
contains it. -/
def HasOnlyLiteral (s : Snapshot) (u : UsageCounts) (p : ParameterDecl) (literal : String) : Prop :=
  ∃ f ∈ s.functions, p.id ∈ f.parameters ∧ s.parentOf? p.id = some f.id ∧
    0 < u.functions.get f.id ∧ 0 < u.parameters.get p.id ∧
      ∃ n, u.effectiveValues p.id p.defaultValue (u.functions.get f.id) = .ok [(literal, n)]

/-- The container of a declared parameter is a function that lists it. -/
theorem Snapshot.Indexed.exists_function (hs : s.Indexed) (hp : p ∈ s.parameters)
    {container : String} (h : s.parentOf? p.id = some container) :
    ∃ f ∈ s.functions, p.id ∈ f.parameters ∧ f.id = container := by
  obtain ⟨kind, hchild⟩ := hs.listed_of_parent _ _ h
  have hdeclared : s.declares .parameterKind p.id = true :=
    Snapshot.declares_of_mem_elements hs.distinct (e := .ofParameter p) (List.mem_map_of_mem hp)
  obtain rfl := Snapshot.kind_eq_of_declares (hs.declared _ _ _ hchild) hdeclared
  rw [Snapshot.children] at hchild
  cases hf : s.function? container with
  | none =>
    rw [hf] at hchild
    cases hchild
  | some f =>
    rw [hf] at hchild
    exact ⟨f, List.mem_of_find?_eq_some hf, hchild, by simpa using List.find?_some hf⟩

/-- The value of a parameter does not matter, or its function is called and it is used. -/
theorem constantValue?_cases (s : Snapshot) (u : UsageCounts) (p : ParameterDecl) :
    constantValue? s u p = .ok none ∨
      ∃ function, s.parentOf? p.id = some function ∧ 0 < u.functions.get function ∧
        0 < u.parameters.get p.id ∧ constantValue? s u p =
          (u.effectiveValues p.id p.defaultValue (u.functions.get function)).map onlyValue? := by
  rw [constantValue?]
  cases s.parentOf? p.id with
  | none => exact .inl rfl
  | some function =>
    dsimp only
    split
    · exact .inl rfl
    · next hcounts =>
      obtain ⟨hcalled, hused⟩ := not_or.1 hcounts
      exact .inr ⟨function, rfl, Nat.pos_of_ne_zero hcalled, Nat.pos_of_ne_zero hused, rfl⟩

theorem constantValue?_of_called {function : String} (hparent : s.parentOf? p.id = some function)
    (hcalled : 0 < u.functions.get function) (hused : 0 < u.parameters.get p.id) :
    constantValue? s u p =
      (u.effectiveValues p.id p.defaultValue (u.functions.get function)).map onlyValue? := by
  rw [constantValue?, hparent]
  exact if_neg (by omega)

theorem onlyValue?_eq_some_iff {values : Counts} {value : DefaultValue} :
    onlyValue? values = some value ↔
      ∃ literal n, values = [(literal, n)] ∧ value = .ofLiteral literal := by
  rcases values with _ | ⟨⟨literal, n⟩, _ | ⟨e, rest⟩⟩ <;> simp [onlyValue?, eq_comm]

/-- The value that is made constant is the only literal of the parameter. -/
theorem constantValue?_eq_some_iff (hs : s.Indexed) (hp : p ∈ s.parameters) {value : DefaultValue} :
    constantValue? s u p = .ok (some value) ↔
      ∃ literal, HasOnlyLiteral s u p literal ∧ value = .ofLiteral literal := by
  constructor
  · intro h
    rcases constantValue?_cases s u p with hnone | ⟨_, hparent, hcalled, hused, hmap⟩
    · cases hnone.symm.trans h
    · obtain ⟨f, hf, hlisted, rfl⟩ := hs.exists_function hp hparent
      obtain ⟨values, hvalues, honly⟩ := map_eq_ok_iff.1 (hmap.symm.trans h)
      obtain ⟨literal, n, rfl, rfl⟩ := onlyValue?_eq_some_iff.1 honly
      exact ⟨literal, ⟨f, hf, hlisted, hparent, hcalled, hused, n, hvalues⟩, rfl⟩
  · rintro ⟨literal, ⟨f, -, -, hparent, hcalled, hused, n, hvalues⟩, rfl⟩
    rw [constantValue?_of_called hparent hcalled hused, hvalues]
    rfl

/-! ## Failures -/

/-- The values of a public parameter are too many to be added up. The values matter only if the
function of the parameter is called and the parameter is used. -/
def ValuesOverflow (s : Snapshot) (u : UsageCounts) (p : ParameterDecl) : Prop :=
  p.isPublic = true ∧ ∃ function, s.parentOf? p.id = some function ∧
    0 < u.functions.get function ∧ 0 < u.parameters.get p.id ∧
      u.effectiveValues p.id p.defaultValue (u.functions.get function) = .error .overflow

theorem parameterPayloads_eq_error_iff {cause : Error} :
    parameterPayloads s u p = .error cause ↔ cause = .overflow ∧ ValuesOverflow s u p := by
  rw [parameterPayloads]
  constructor
  · intro h
    split at h
    · next hpublic =>
      rw [map_eq_error_iff] at h
      rcases constantValue?_cases s u p with hnone | ⟨function, hparent, hcalled, hused, hmap⟩
      · cases hnone.symm.trans h
      · have hvalues := map_eq_error_iff.1 (hmap.symm.trans h)
        obtain rfl := UsageCounts.eq_overflow_of_effectiveValues hvalues
        exact ⟨rfl, hpublic, function, hparent, hcalled, hused, hvalues⟩
    · cases h
  · rintro ⟨rfl, hpublic, function, hparent, hcalled, hused, hvalues⟩
    rw [if_pos hpublic, constantValue?_of_called hparent hcalled hused, hvalues]
    rfl

/-- Proposals fail exactly if the values of a parameter are too many. -/
theorem proposals_eq_error_iff {cause : Error} :
    proposals s u author = .error cause ↔
      cause = .overflow ∧ ∃ p ∈ s.parameters, ValuesOverflow s u p := by
  constructor
  · intro h
    rcases bind_eq_error_iff.1 h with hmap | ⟨_, -, ⟨⟩⟩
    obtain ⟨p, hp, hfail⟩ := exists_of_mapM_eq_error hmap
    obtain ⟨rfl, hoverflow⟩ := parameterPayloads_eq_error_iff.1 (map_eq_error_iff.1 hfail)
    exact ⟨rfl, p, hp, hoverflow⟩
  · rintro ⟨rfl, p, hp, hoverflow⟩
    have hfail := parameterPayloads_eq_error_iff.2 ⟨rfl, hoverflow⟩
    cases hproposals : proposals s u author with
    | ok proposed =>
      obtain ⟨payloads, hok⟩ := (proposals_eq_ok_iff.1 hproposals).1 p hp
      cases hfail.symm.trans hok
    | error cause =>
      rcases bind_eq_error_iff.1 hproposals with hmap | ⟨_, -, ⟨⟩⟩
      obtain ⟨p', -, hfail'⟩ := exists_of_mapM_eq_error hmap
      obtain ⟨rfl, -⟩ := parameterPayloads_eq_error_iff.1 (map_eq_error_iff.1 hfail')
      rfl

/-! ## Membership -/

variable {proposed : List Annotation}

theorem mem_proposals_iff (h : proposals s u author = .ok proposed) {id : String}
    {payload : Payload} :
    .ofPayload id author payload ∈ proposed ↔
      ∃ e ∈ s.allElements, e.id = id ∧ payload ∈ elementPayloads s u e := by
  obtain ⟨-, rfl⟩ := proposals_eq_ok_iff.1 h
  simp [elementProposals, and_left_comm, and_comm, Annotation.ofPayload]

theorem mem_proposals_of_parameter (hs : (s.allElements.map Element.id).Nodup)
    (h : proposals s u author = .ok proposed) (hp : p ∈ s.parameters) {payload : Payload} :
    .ofPayload p.id author payload ∈ proposed ↔ p.isPublic = true ∧
      ∃ constant, constantValue? s u p = .ok constant ∧ payload ∈ p.payloads constant := by
  have hmem : .ofParameter p ∈ s.allElements :=
    Snapshot.mem_allElements_iff.2 (List.mem_map_of_mem hp)
  rw [mem_proposals_iff h, ← mem_elementPayloads_parameter]
  constructor
  · rintro ⟨e, he, hid, hpayload⟩
    obtain rfl : e = .ofParameter p := List.inj_on_of_nodup_map hs he hmem hid
    exact hpayload
  · exact fun hpayload => ⟨.ofParameter p, hmem, rfl, hpayload⟩

theorem remove_mem_proposals_iff (h : proposals s u author = .ok proposed) {id : String} :
    .ofPayload id author .remove ∈ proposed ↔
      (∃ c ∈ s.classes, c.id = id ∧ c.isPublic = true ∧ u.classes.get id = 0) ∨
        ∃ f ∈ s.functions, f.id = id ∧ f.isPublic = true ∧ u.functions.get id = 0 := by
  rw [mem_proposals_iff h]
  constructor
  · rintro ⟨e, he, rfl, hremove⟩
    have hmem := Snapshot.mem_allElements_iff.1 he
    have hkind := kind_mem_of_mem_elementPayloads hremove
    cases e with
    | ofClass c =>
      obtain ⟨_, hc, heq⟩ := List.mem_map.1 hmem
      cases heq
      have hunused : c.isPublic = true ∧ u.classes.get c.id = 0 := by
        simpa [elementPayloads] using hremove
      exact .inl ⟨c, hc, rfl, hunused⟩
    | ofFunction f =>
      obtain ⟨_, hf, heq⟩ := List.mem_map.1 hmem
      cases heq
      have hunused : f.isPublic = true ∧ u.functions.get f.id = 0 := by
        simpa [elementPayloads] using hremove
      exact .inr ⟨f, hf, rfl, hunused⟩
    | ofParameter | ofAttribute | ofResult =>
      simp [proposedKinds, Element.kind, Payload.kind] at hkind
  · rintro (⟨c, hc, rfl, hpublic, hunused⟩ | ⟨f, hf, rfl, hpublic, hunused⟩)
    · exact ⟨.ofClass c, Snapshot.mem_allElements_iff.2 (List.mem_map_of_mem hc), rfl,
        by simp [elementPayloads, hpublic, hunused]⟩
    · exact ⟨.ofFunction f, Snapshot.mem_allElements_iff.2 (List.mem_map_of_mem hf), rfl,
        by simp [elementPayloads, hpublic, hunused]⟩

section Parameters

variable (hs : (s.allElements.map Element.id).Nodup) (h : proposals s u author = .ok proposed)
  (hp : p ∈ s.parameters)

include hs h hp

theorem constant_mem_proposals_iff {value : DefaultValue} :
    .ofPayload p.id author (.constant value) ∈ proposed ↔
      p.isPublic = true ∧ constantValue? s u p = .ok (some value) := by
  rw [mem_proposals_of_parameter hs h hp]
  simp [ParameterDecl.mem_payloads_iff]

/-- There is no constant value exactly if no constant is proposed. -/
theorem constantValue?_eq_none_iff (hpublic : p.isPublic = true) :
    constantValue? s u p = .ok none ↔
      ∀ value, .ofPayload p.id author (.constant value) ∉ proposed := by
  simp only [constant_mem_proposals_iff hs h hp, hpublic, true_and]
  obtain ⟨payloads, hpayloads⟩ := (proposals_eq_ok_iff.1 h).1 p hp
  rw [parameterPayloads, if_pos hpublic] at hpayloads
  obtain ⟨constant, hconstant, -⟩ := map_eq_ok_iff.1 hpayloads
  simp [hconstant, Option.eq_none_iff_forall_ne_some]

/-- What else is proposed for a parameter is proposed where there is no constant. -/
theorem other_mem_proposals_iff {payload : Payload} (hkind : payload.kind ≠ .constant) :
    .ofPayload p.id author payload ∈ proposed ↔ p.isPublic = true ∧
      (∀ value, .ofPayload p.id author (.constant value) ∉ proposed) ∧
        ((∃ b, p.type.bind ValueType.boundary? = some b ∧ payload = .boundary (.ofBoundary b)) ∨
          ∃ vs, p.type.bind ValueType.enumeration? = some vs ∧
            payload = .enumeration (upperCamelCase p.name) (enumPairs vs)) := by
  have hconstant : ∀ value, payload ≠ .constant value := by
    rintro value rfl
    exact hkind rfl
  rw [mem_proposals_of_parameter hs h hp]
  refine and_congr_right fun hpublic => ?_
  rw [← constantValue?_eq_none_iff hs h hp hpublic]
  simp [ParameterDecl.mem_payloads_iff, hconstant]

theorem boundary_mem_proposals_iff {i : Interval} :
    .ofPayload p.id author (.boundary i) ∈ proposed ↔ p.isPublic = true ∧
      (∀ value, .ofPayload p.id author (.constant value) ∉ proposed) ∧
        ∃ b, p.type.bind ValueType.boundary? = some b ∧ i = .ofBoundary b := by
  rw [other_mem_proposals_iff hs h hp (by rintro ⟨⟩)]
  simp

theorem enumeration_mem_proposals_iff {name : String} {pairs : List EnumPair} :
    .ofPayload p.id author (.enumeration name pairs) ∈ proposed ↔ p.isPublic = true ∧
      (∀ value, .ofPayload p.id author (.constant value) ∉ proposed) ∧
        ∃ vs, p.type.bind ValueType.enumeration? = some vs ∧ name = upperCamelCase p.name ∧
          pairs = enumPairs vs := by
  rw [other_mem_proposals_iff hs h hp (by rintro ⟨⟩)]
  simp

end Parameters

/-! ## Conflicts -/

/-- Proposals for one element do not conflict, and those for two elements have two targets. -/
theorem pairwise_proposals (hs : (s.allElements.map Element.id).Nodup)
    (h : proposals s u author = .ok proposed) :
    proposed.Pairwise fun a b => b.conflicts a = false := by
  have hkinds : ∀ kind, (proposedKinds kind).Pairwise fun k k' => k'.conflicts k = false := by
    intro kind
    cases kind <;> decide
  have hkind : ∀ a : Annotation, a.kind = a.payload.kind := fun _ => rfl
  obtain ⟨-, rfl⟩ := proposals_eq_ok_iff.1 h
  rw [List.pairwise_flatMap]
  constructor
  · intro e _
    have hpairwise := (hkinds e.kind).sublist (map_kind_elementPayloads (s := s) (u := u) e)
    rw [elementProposals, List.pairwise_map]
    rw [List.pairwise_map] at hpairwise
    refine hpairwise.imp fun hfree => ?_
    simp [hkind, hfree, Annotation.conflicts, Annotation.ofPayload]
  · refine (List.pairwise_map.1 hs).imp fun hne a ha b hb => ?_
    obtain ⟨_, -, rfl⟩ := List.mem_map.1 ha
    obtain ⟨_, -, rfl⟩ := List.mem_map.1 hb
    simp [hne.symm, Annotation.conflicts, Annotation.ofPayload]

end ApiEvolution
