import Mathlib.Data.List.Perm.Basic
import ApiEvolution.Proofs.KeptGraph
import ApiEvolution.Proofs.MappingSet
import ApiEvolution.Proofs.SortedSet

/-!
# Mappings are connected components

The mappings that the matcher makes of some elements are the connected components of the graph of
kept pairs.

* `Components` says what it is for mappings to be the components of a graph.
* `mappingAt?` is the mapping of the edges with one root; `has_mappingAt?` says that it has exactly
  the ends of these edges.
* `matchElements_components` is the result, put together from `together_matchElements`,
  `nodup_matchElements` and the laws about the sides of a mapping.
-/

namespace ApiEvolution

/-! ## What components are -/

/-- Whether a mapping has an identity on a side. -/
def Mapping.Has (m : Mapping) (u : Node) : Prop :=
  u.2 ∈ m.ids u.1

/-- The multiplicity that belongs to the sizes of two sides. -/
def Multiplicity.ofSizes : Nat → Nat → Multiplicity
  | 1, 1 => .oneToOne
  | 1, _ => .oneToMany
  | _, 1 => .manyToOne
  | _, _ => .manyToMany

theorem Multiplicity.ofSizes_eq_oneToMany_iff {m n : Nat} :
    ofSizes m n = .oneToMany ↔ m = 1 ∧ n ≠ 1 := by
  unfold ofSizes
  split <;> simp_all

/-- The mappings of a kind are the components of the graph of kept pairs. -/
structure Components (kept : String → String → Prop) (kind : ElementKind) (ms : List Mapping) :
    Prop where
  /-- Identities are in one mapping exactly if a path connects them. -/
  together : ∀ u v, (∃ m ∈ ms, m.Has u ∧ m.Has v) ↔ Connected kept u v
  /-- An old identity is in a mapping exactly if it is in a kept pair. -/
  source_mapped : ∀ s, (∃ m ∈ ms, s ∈ m.sources) ↔ ∃ t, kept s t
  /-- A new identity is in a mapping exactly if it is in a kept pair. -/
  target_mapped : ∀ t, (∃ m ∈ ms, t ∈ m.targets) ↔ ∃ s, kept s t
  /-- No identity is twice on one side. -/
  nodup : ∀ side, (ms.flatMap fun m => m.ids side).Nodup
  /-- No side of a mapping is empty. -/
  nonempty : ∀ m ∈ ms, m.sources ≠ [] ∧ m.targets ≠ []
  /-- The multiplicity follows from the sizes of the sides. -/
  multiplicity : ∀ m ∈ ms,
    m.kind = kind ∧ m.multiplicity = .ofSizes m.sources.length m.targets.length

/-! ## Sides of a mapping -/

theorem Sides.multiplicity_ofLists? {ss ts : List String} {sides : Sides}
    (h : ofLists? ss ts = some sides) :
    sides.multiplicity = .ofSizes ss.length ts.length := by
  match ss, ts, h with
  | [], _, h => simp [ofLists?] at h
  | _ :: _, [], h => simp [ofLists?] at h
  | [_], [_], h => cases h; rfl
  | [_], _ :: _ :: _, h => cases h; rfl
  | _ :: _ :: _, [_], h => cases h; rfl
  | _ :: _ :: _, _ :: _ :: _, h => cases h; rfl

theorem Sides.exists_ofLists? {ss ts : List String} (hs : ss ≠ []) (ht : ts ≠ []) :
    ∃ sides, ofLists? ss ts = some sides := by
  unfold ofLists?
  split <;> simp_all

namespace Mapping

variable {kind : ElementKind} {ss ts : List String} {similarity : Float} {m : Mapping}

theorem ids_ofLists? (h : ofLists? kind ss ts similarity = some m) (side : Side) :
    m.ids side = match side with
      | .source => ss
      | .target => ts := by
  obtain ⟨sides, hsides, rfl⟩ := Option.map_eq_some_iff.1 h
  cases side with
  | source => exact Sides.sources_ofLists? hsides
  | target => exact Sides.targets_ofLists? hsides

theorem multiplicity_ofLists? (h : ofLists? kind ss ts similarity = some m) :
    m.kind = kind ∧ m.multiplicity = .ofSizes m.sources.length m.targets.length := by
  have hs : m.sources = ss := ids_ofLists? h .source
  have ht : m.targets = ts := ids_ofLists? h .target
  rw [hs, ht]
  obtain ⟨sides, hsides, rfl⟩ := Option.map_eq_some_iff.1 h
  exact ⟨rfl, Sides.multiplicity_ofLists? hsides⟩

end Mapping

namespace Matcher

variable {score : Scorer} {threshold : Float} {kind : ElementKind} {sources targets : List Element}

/-! ## The mapping of a component -/

/-- The identities at some positions. -/
def idsAt (elements : List Element) (positions : List Nat) : List String :=
  positions.filterMap (idAt? elements)

theorem mem_idsAt {elements : List Element} {positions : List Nat} {id : String} :
    id ∈ idsAt elements positions ↔ ∃ i ∈ positions, idAt? elements i = some id :=
  List.mem_filterMap

theorem nodup_idsAt {elements : List Element} {positions : List Nat}
    (he : (elements.map Element.id).Nodup) (hp : positions.Nodup) :
    (idsAt elements positions).Nodup := by
  refine hp.filterMap ?_
  intro i j id hi hj
  simp only [idAt?, ← List.getElem?_map, Option.mem_def] at hi hj
  obtain ⟨hlt, -⟩ := List.getElem?_eq_some_iff.1 hi
  exact (List.getElem?_inj hlt he).1 (hi.trans hj.symm)

/-- The positions of the ends of some edges on a side, in the order of their identities in the
mapping. -/
def positionsOf (es : List Edge) : Side → List Nat
  | .source => SortedSet.ofList compare (es.map Edge.source)
  | .target =>
    let targetSet := SortedSet.ofList compare (es.map Edge.target)
    if (SortedSet.ofList compare (es.map Edge.source)).length = 1 ∧ 1 < targetSet.length then
      targetSet.mergeSort (comesBefore es) else targetSet

theorem mem_positionsOf {es : List Edge} {side : Side} {i : Nat} :
    i ∈ positionsOf es side ↔ ∃ e ∈ es, e.position side = i := by
  cases side with
  | source => simp [positionsOf, Edge.position]
  | target =>
    simp only [positionsOf]
    split <;> simp [Edge.position]

theorem nodup_positionsOf (es : List Edge) (side : Side) : (positionsOf es side).Nodup := by
  cases side with
  | source => exact SortedSet.nodup_ofList _
  | target =>
    simp only [positionsOf]
    split
    · exact (List.mergeSort_perm _ _).nodup_iff.2 (SortedSet.nodup_ofList _)
    · exact SortedSet.nodup_ofList _

/-- The mapping of a component is made from the identities at the ends of its edges. -/
theorem componentMapping?_eq (es : List Edge) :
    componentMapping? kind sources targets es =
      Mapping.ofLists? kind (idsAt sources (positionsOf es .source))
        (idsAt targets (positionsOf es .target)) ((es.map Edge.score).foldl greater 0) :=
  rfl

variable {es : List Edge} {m : Mapping}

theorem ids_componentMapping? (h : componentMapping? kind sources targets es = some m)
    (side : Side) : m.ids side = idsAt (side.choose sources targets) (positionsOf es side) := by
  rw [componentMapping?_eq] at h
  rw [Mapping.ids_ofLists? h side]
  cases side <;> rfl

/-- The mapping has the ends of its edges. -/
theorem has_componentMapping? (h : componentMapping? kind sources targets es = some m) {u : Node} :
    m.Has u ↔ ∃ e ∈ es, EndsAt sources targets e u := by
  rw [Mapping.Has, ids_componentMapping? h, mem_idsAt]
  simp only [mem_positionsOf, EndsAt]
  constructor
  · rintro ⟨_, ⟨e, he, rfl⟩, hu⟩
    exact ⟨e, he, hu⟩
  · rintro ⟨e, he, hu⟩
    exact ⟨_, ⟨e, he, rfl⟩, hu⟩

theorem nodup_ids_componentMapping? (hs : (sources.map Element.id).Nodup)
    (ht : (targets.map Element.id).Nodup)
    (h : componentMapping? kind sources targets es = some m) (side : Side) :
    (m.ids side).Nodup := by
  rw [ids_componentMapping? h]
  refine nodup_idsAt ?_ (nodup_positionsOf es side)
  cases side with
  | source => exact hs
  | target => exact ht

/-- Edges make a mapping if there are any. -/
theorem exists_componentMapping? {e : Edge} (he : e ∈ es)
    (hes : ∀ d ∈ es, d ∈ edges score threshold sources targets) :
    ∃ m, componentMapping? kind sources targets es = some m := by
  have hne : ∀ side, idsAt (side.choose sources targets) (positionsOf es side) ≠ [] := by
    intro side
    obtain ⟨id, hid⟩ := exists_endsAt (hes e he) side
    exact List.ne_nil_of_mem (mem_idsAt.2 ⟨_, mem_positionsOf.2 ⟨e, he, rfl⟩, hid⟩)
  obtain ⟨sides, hsides⟩ := Sides.exists_ofLists? (hne .source) (hne .target)
  exact ⟨⟨kind, sides, _⟩, by
    rw [componentMapping?_eq, Mapping.ofLists?]
    exact Option.map_eq_some_iff.2 ⟨sides, hsides, rfl⟩⟩

/-! ## All mappings -/

variable (score threshold kind sources targets) in
/-- The mapping of the component with a root. -/
def mappingAt? (root : Nat) : Option Mapping :=
  componentMapping? kind sources targets ((edges score threshold sources targets).filter fun e =>
    componentOf score threshold sources targets e = root)

variable (score threshold sources targets) in
/-- The roots of the components. -/
def roots : List Nat :=
  SortedSet.ofList compare ((edges score threshold sources targets).map
    (componentOf score threshold sources targets))

theorem matchArranged_perm :
    (matchArranged score threshold kind sources targets).Perm
      ((roots score threshold sources targets).filterMap
        (mappingAt? score threshold kind sources targets)) :=
  List.mergeSort_perm _ _

theorem mem_matchArranged :
    m ∈ matchArranged score threshold kind sources targets ↔
      ∃ e ∈ edges score threshold sources targets,
        mappingAt? score threshold kind sources targets
          (componentOf score threshold sources targets e) = some m := by
  rw [matchArranged_perm.mem_iff, List.mem_filterMap]
  simp [roots]

theorem has_mappingAt? {root : Nat}
    (h : mappingAt? score threshold kind sources targets root = some m) {u : Node} :
    m.Has u ↔ ∃ e ∈ edges score threshold sources targets,
      componentOf score threshold sources targets e = root ∧ EndsAt sources targets e u := by
  rw [has_componentMapping? h]
  simp [and_assoc]

/-- Two identities are in one mapping exactly if a path of edges connects them. -/
theorem together_iff (hs : (sources.map Element.id).Nodup) (ht : (targets.map Element.id).Nodup)
    {u v : Node} :
    (∃ m ∈ matchArranged score threshold kind sources targets, m.Has u ∧ m.Has v) ↔
      Connected (HasEdge score threshold sources targets) u v := by
  constructor
  · rintro ⟨m, hm, hu, hv⟩
    obtain ⟨d, -, hd⟩ := mem_matchArranged.1 hm
    obtain ⟨e, he, hed, heu⟩ := (has_mappingAt? hd).1 hu
    obtain ⟨e', he', hed', hev⟩ := (has_mappingAt? hd).1 hv
    exact connected_of_componentOf_eq he he' (hed.trans hed'.symm) heu hev
  · intro huv
    obtain ⟨e, he, e', he', hee', heu, hev⟩ := exists_componentOf_eq_of_connected hs ht huv
    obtain ⟨m, hm⟩ : ∃ m, mappingAt? score threshold kind sources targets
        (componentOf score threshold sources targets e) = some m :=
      exists_componentMapping? (List.mem_filter.2 ⟨he, by simp⟩)
        fun d hd => (List.mem_filter.1 hd).1
    exact ⟨m, mem_matchArranged.2 ⟨e, he, hm⟩, (has_mappingAt? hm).2 ⟨e, he, rfl, heu⟩,
      (has_mappingAt? hm).2 ⟨e', he', hee'.symm, hev⟩⟩

/-- Mappings of different components share no identity on a side. -/
theorem disjoint_mappingAt? (hs : (sources.map Element.id).Nodup)
    (ht : (targets.map Element.id).Nodup) {r r' : Nat} (hr : r ≠ r') {m m' : Mapping}
    (h : mappingAt? score threshold kind sources targets r = some m)
    (h' : mappingAt? score threshold kind sources targets r' = some m') (side : Side) :
    (m.ids side).Disjoint (m'.ids side) := by
  intro id hid hid'
  obtain ⟨e, he, rfl, heu⟩ := (has_mappingAt? h (u := (side, id))).1 hid
  obtain ⟨e', he', rfl, heu'⟩ := (has_mappingAt? h' (u := (side, id))).1 hid'
  exact hr (componentOf_eq_of_position_eq he he' (position_eq_of_endsAt hs ht heu heu'))

/-- No identity is twice on one side of all the mappings. -/
theorem nodup_matchArranged (hs : (sources.map Element.id).Nodup)
    (ht : (targets.map Element.id).Nodup) (side : Side) :
    ((matchArranged score threshold kind sources targets).flatMap fun m => m.ids side).Nodup := by
  rw [(matchArranged_perm.flatMap_right _).nodup_iff, List.nodup_flatMap]
  constructor
  · intro m hm
    obtain ⟨r, -, hr⟩ := List.mem_filterMap.1 hm
    exact nodup_ids_componentMapping? hs ht hr side
  · rw [List.pairwise_filterMap]
    have hroots : (roots score threshold sources targets).Nodup := SortedSet.nodup_ofList _
    exact hroots.imp fun hne m hm m' hm' => disjoint_mappingAt? hs ht hne hm hm' side

theorem multiplicity_matchArranged (hm : m ∈ matchArranged score threshold kind sources targets) :
    m.kind = kind ∧ m.multiplicity = .ofSizes m.sources.length m.targets.length := by
  obtain ⟨e, -, he⟩ := mem_matchArranged.1 hm
  exact Mapping.multiplicity_ofLists? he

/-- Every mapping has an edge's end on either side. -/
theorem ids_ne_nil_of_mem_matchArranged
    (hm : m ∈ matchArranged score threshold kind sources targets) (side : Side) :
    m.ids side ≠ [] := by
  obtain ⟨e, he, hem⟩ := mem_matchArranged.1 hm
  obtain ⟨id, hid⟩ := exists_endsAt he side
  exact List.ne_nil_of_mem ((has_mappingAt? hem (u := (side, id))).2 ⟨e, he, rfl, hid⟩)

/-! ## Elements as they are given -/

theorem together_matchElements {u v : Node} :
    (∃ m ∈ matchElements score threshold kind sources targets, m.Has u ∧ m.Has v) ↔
      Connected (Kept score threshold sources targets) u v := by
  rw [← hasEdge_arrange_eq]
  exact together_iff (nodup_arrange _) (nodup_arrange _)

theorem nodup_matchElements (side : Side) :
    ((matchElements score threshold kind sources targets).flatMap fun m => m.ids side).Nodup :=
  nodup_matchArranged (nodup_arrange _) (nodup_arrange _) side

/-- An identity is in a mapping exactly if it is an end of a kept pair. -/
theorem has_matchElements {u : Node} :
    (∃ m ∈ matchElements score threshold kind sources targets, m.Has u) ↔
      ∃ v, Joined (Kept score threshold sources targets) u v := by
  have hself : (∃ m ∈ matchElements score threshold kind sources targets, m.Has u ∧ m.Has u) ↔
      ∃ v, Joined (Kept score threshold sources targets) u v :=
    together_matchElements.trans connected_self_iff
  simpa only [and_self] using hself

/-- The mappings of some elements are the components of the graph of the pairs that are kept. -/
theorem matchElements_components (score : Scorer) (threshold : Float) (kind : ElementKind)
    (sources targets : List Element) :
    Components (Kept score threshold sources targets) kind
      (matchElements score threshold kind sources targets) where
  together _ _ := together_matchElements
  source_mapped s := by
    refine (has_matchElements (u := (.source, s))).trans ?_
    exact joined_source_iff
  target_mapped t := by
    refine (has_matchElements (u := (.target, t))).trans ?_
    exact joined_target_iff
  nodup := nodup_matchElements
  nonempty m hm :=
    ⟨ids_ne_nil_of_mem_matchArranged hm .source, ids_ne_nil_of_mem_matchArranged hm .target⟩
  multiplicity _ hm := multiplicity_matchArranged hm

end Matcher

end ApiEvolution
