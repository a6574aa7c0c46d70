import ApiEvolution.Proofs.Components
import ApiEvolution.Proofs.Declarations

/-!
# What the matcher compares

Two snapshots are compared kind by kind (`candidates_eq`). Elements of a kind are compared in
scopes: classes and functions with all others of their kind, the elements inside containers only
with those inside the containers on the other side of one mapping.

The mappings of one scope do not overlap. Those of different scopes do not either if nothing is
listed by two containers (`pairwise_candidates`); then they make a mapping set
(`matchSnapshots_eq_ok_iff`), which fits the snapshots (`validate_matchSnapshots`).
-/

namespace ApiEvolution

/-- The kind of the containers inside which elements of a kind are compared. -/
def ElementKind.container? : ElementKind → Option ElementKind
  | .classKind => none
  | .functionKind => none
  | .parameterKind => some .functionKind
  | .attributeKind => some .classKind
  | .resultKind => some .functionKind

/-- Nothing that is compared inside containers is listed by two of them. -/
def Snapshot.Unshared (s : Snapshot) : Prop :=
  ∀ kind container container' id, kind.container?.isSome → id ∈ s.children container kind →
    id ∈ s.children container' kind → container = container'

theorem Snapshot.unshared_iff {s : Snapshot} :
    s.Unshared ↔ ∀ l ∈ s.listings, ∀ l' ∈ s.listings, l.2.1.container?.isSome → l.2 = l'.2 →
      l.1 = l'.1 := by
  constructor
  · rintro h ⟨c, kind, id⟩ hl ⟨c', _, _⟩ hl' hkind ⟨⟩
    exact h kind c c' id hkind (mem_listings.1 hl) (mem_listings.1 hl')
  · intro h kind c c' id hkind hid hid'
    exact h (c, kind, id) (mem_listings.2 hid) (c', kind, id) (mem_listings.2 hid') hkind rfl

instance (s : Snapshot) : Decidable s.Unshared :=
  decidable_of_iff _ Snapshot.unshared_iff.symm

namespace Matcher

variable {score : Scorer} {threshold : Float} {old new : Snapshot} {kind : ElementKind}
  {m : Mapping} {side : Side} {id : String}

/-! ## Scopes -/

variable (score threshold old new) in
/-- The candidates of a kind. -/
def candidatesOf (kind : ElementKind) : List Mapping :=
  let among (kind : ElementKind) :=
    matchElements score threshold kind (old.elements kind) (new.elements kind)
  match kind.container? with
  | none => among kind
  | some containers => matchChildren score threshold old new (among containers) kind

theorem candidates_eq :
    candidates score threshold old new =
      ElementKind.all.flatMap (candidatesOf score threshold old new) := by
  simp [candidates, ElementKind.all, candidatesOf, ElementKind.container?]

variable (score threshold old new) in
/-- The lists of elements of a kind that are compared with each other. -/
inductive Scope : ElementKind → List Element → List Element → Prop
  /-- All elements of the kind. -/
  | whole {kind : ElementKind} : kind.container? = none →
    Scope kind (old.elements kind) (new.elements kind)
  /-- What the containers of one mapping list. -/
  | within {kind containers : ElementKind} {m : Mapping} : kind.container? = some containers →
    m ∈ candidatesOf score threshold old new containers →
    Scope kind (listed old kind m.sources) (listed new kind m.targets)

theorem container?_container {kind containers : ElementKind}
    (h : kind.container? = some containers) : containers.container? = none := by
  cases kind <;> cases h <;> rfl

theorem candidatesOf_of_container?_eq_none (h : kind.container? = none) :
    candidatesOf score threshold old new kind =
      matchElements score threshold kind (old.elements kind) (new.elements kind) := by
  simp only [candidatesOf, h]

theorem candidatesOf_of_container?_eq_some {containers : ElementKind}
    (h : kind.container? = some containers) :
    candidatesOf score threshold old new kind =
      matchChildren score threshold old new (candidatesOf score threshold old new containers)
        kind := by
  rw [candidatesOf_of_container?_eq_none (container?_container h)]
  simp only [candidatesOf, h]

theorem mem_matchChildren {containers : List Mapping} :
    m ∈ matchChildren score threshold old new containers kind ↔ ∃ c ∈ containers,
      m ∈ matchElements score threshold kind (listed old kind c.sources)
        (listed new kind c.targets) := by
  rw [matchChildren, sortMappings, (List.mergeSort_perm _ _).mem_iff, List.mem_flatMap]

/-- The candidates of a kind are the mappings of its scopes. -/
theorem mem_candidatesOf :
    m ∈ candidatesOf score threshold old new kind ↔ ∃ sources targets,
      Scope score threshold old new kind sources targets ∧
        m ∈ matchElements score threshold kind sources targets := by
  constructor
  · intro h
    cases hc : kind.container? with
    | none =>
      rw [candidatesOf_of_container?_eq_none hc] at h
      exact ⟨_, _, .whole hc, h⟩
    | some containers =>
      rw [candidatesOf_of_container?_eq_some hc, mem_matchChildren] at h
      obtain ⟨c, hmem, hm⟩ := h
      exact ⟨_, _, .within hc hmem, hm⟩
  · rintro ⟨_, _, hscope, hm⟩
    cases hscope with
    | whole hc =>
      rw [candidatesOf_of_container?_eq_none hc]
      exact hm
    | within hc hmem =>
      rw [candidatesOf_of_container?_eq_some hc, mem_matchChildren]
      exact ⟨_, hmem, hm⟩

theorem mem_candidates :
    m ∈ candidates score threshold old new ↔
      ∃ kind, m ∈ candidatesOf score threshold old new kind := by
  rw [candidates_eq, List.mem_flatMap]
  exact ⟨fun ⟨kind, _, hm⟩ => ⟨kind, hm⟩, fun ⟨kind, hm⟩ => ⟨kind, kind.mem_all, hm⟩⟩

/-- A path of kept pairs within one scope connects what is in one candidate. -/
theorem exists_connected_of_mem_candidates (h : m ∈ candidates score threshold old new) {u v : Node}
    (hu : m.Has u) (hv : m.Has v) :
    ∃ kind sources targets, Scope score threshold old new kind sources targets ∧
      Connected (Kept score threshold sources targets) u v := by
  obtain ⟨kind, hkind⟩ := mem_candidates.1 h
  obtain ⟨sources, targets, hscope, hm⟩ := mem_candidatesOf.1 hkind
  exact ⟨kind, sources, targets, hscope, together_matchElements.1 ⟨m, hm, hu, hv⟩⟩

/-- A difunctional relation that holds of every pair that is kept holds of every old and every new
identity of a candidate. -/
theorem rel_of_mem_candidates {R : String → String → Prop} (hR : Difunctional R)
    (hkeeps : ∀ x y, keeps threshold (score x y) = true → R x.id y.id)
    (h : m ∈ candidates score threshold old new) {s t : String} (hs : s ∈ m.sources)
    (ht : t ∈ m.targets) : R s t := by
  obtain ⟨_, sources, targets, -, hconnected⟩ :=
    exists_connected_of_mem_candidates h (u := (.source, s)) (v := (.target, t)) hs ht
  refine hR.of_connected ?_ hconnected
  intro s t hst
  obtain ⟨x, y, hx, hy, hkeep⟩ := kept_iff.1 hst
  have hxs : x.id = s := id_of_first? hx
  have hyt : y.id = t := id_of_first? hy
  rw [← hxs, ← hyt]
  exact hkeeps x y hkeep

/-- Elements of one scope that a score keeps are in one candidate. -/
theorem exists_mem_candidates_of_keeps {sources targets : List Element} {x y : Element}
    (hscope : Scope score threshold old new kind sources targets)
    (hx : first? sources x.id = some x) (hy : first? targets y.id = some y)
    (hkeep : keeps threshold (score x y) = true) :
    ∃ m ∈ candidates score threshold old new, x.id ∈ m.sources ∧ y.id ∈ m.targets := by
  have hkept : Kept score threshold sources targets x.id y.id := kept_iff.2 ⟨x, y, hx, hy, hkeep⟩
  obtain ⟨m, hm, hs, ht⟩ := together_matchElements.2 (.single (.forth hkept))
  exact ⟨m, mem_candidates.2 ⟨kind, mem_candidatesOf.2 ⟨_, _, hscope, hm⟩⟩, hs, ht⟩

/-! ## What the candidates depend on -/

theorem edges_congr {score' : Scorer} {sources targets : List Element}
    (h : ∀ x ∈ sources, ∀ y ∈ targets, score x y = score' x y) :
    edges score threshold sources targets = edges score' threshold sources targets := by
  refine List.flatMap_congr ?_
  intro x hx
  refine List.filterMap_congr ?_
  intro y hy
  rw [h x.1 (List.fst_mem_of_mem_zipIdx hx) y.1 (List.fst_mem_of_mem_zipIdx hy)]

/-- The mappings between some elements depend on the scores of their pairs only. -/
theorem matchElements_congr {score' : Scorer} {sources targets : List Element}
    (h : ∀ x ∈ sources, ∀ y ∈ targets, score x y = score' x y) :
    matchElements score threshold kind sources targets =
      matchElements score' threshold kind sources targets := by
  have hedges : edges score threshold (arrange sources) (arrange targets) =
      edges score' threshold (arrange sources) (arrange targets) :=
    edges_congr fun x hx y hy => h x (mem_of_mem_arrange hx) y (mem_of_mem_arrange hy)
  simp only [matchElements, matchArranged, hedges]

/-- Scores that agree on all pairs of the scopes of one of them give the same candidates. -/
theorem candidates_congr {score' : Scorer}
    (h : ∀ kind sources targets, Scope score threshold old new kind sources targets →
      ∀ x ∈ sources, ∀ y ∈ targets, score x y = score' x y) :
    candidates score threshold old new = candidates score' threshold old new := by
  have hwhole : ∀ kind, kind.container? = none → candidatesOf score threshold old new kind =
      candidatesOf score' threshold old new kind := by
    intro kind hkind
    rw [candidatesOf_of_container?_eq_none hkind, candidatesOf_of_container?_eq_none hkind]
    exact matchElements_congr (h _ _ _ (.whole hkind))
  rw [candidates_eq, candidates_eq]
  refine List.flatMap_congr ?_
  intro kind _
  cases hkind : kind.container? with
  | none => exact hwhole kind hkind
  | some containers =>
    rw [candidatesOf_of_container?_eq_some hkind, candidatesOf_of_container?_eq_some hkind,
      ← hwhole containers (container?_container hkind), matchChildren, matchChildren]
    refine congrArg sortMappings (List.flatMap_congr ?_)
    intro m hm
    exact matchElements_congr (h _ _ _ (.within hkind hm))

/-! ## Sides of a candidate -/

theorem kind_of_mem_candidatesOf (h : m ∈ candidatesOf score threshold old new kind) :
    m.kind = kind := by
  obtain ⟨_, _, -, hm⟩ := mem_candidatesOf.1 h
  exact (multiplicity_matchArranged hm).1

theorem nodup_ids_of_mem_matchElements {sources targets : List Element}
    (hm : m ∈ matchElements score threshold kind sources targets) (side : Side) :
    (m.ids side).Nodup :=
  (List.nodup_flatMap.1 (nodup_matchElements side)).1 m hm

theorem nodup_ids_of_mem_candidates (h : m ∈ candidates score threshold old new) (side : Side) :
    (m.ids side).Nodup := by
  obtain ⟨kind, hkind⟩ := mem_candidates.1 h
  obtain ⟨_, _, -, hm⟩ := mem_candidatesOf.1 hkind
  exact nodup_ids_of_mem_matchElements hm side

/-- The identities of a mapping belong to elements that were compared. -/
theorem exists_element_of_mem_ids {sources targets : List Element}
    (hm : m ∈ matchElements score threshold kind sources targets) (hid : id ∈ m.ids side) :
    ∃ e ∈ side.choose sources targets, e.id = id := by
  have hhas : m.Has (side, id) := hid
  obtain ⟨v, hv⟩ := has_matchElements.1 ⟨m, hm, hhas⟩
  cases hv with
  | forth hkept =>
    obtain ⟨x, -, hx, -⟩ := hkept
    exact ⟨x, mem_of_first? hx, id_of_first? hx⟩
  | back hkept =>
    obtain ⟨-, y, -, hy, -⟩ := hkept
    exact ⟨y, mem_of_first? hy, id_of_first? hy⟩

theorem exists_container_of_mem_listed {s : Snapshot} {containers : List String} {e : Element}
    (h : e ∈ listed s kind containers) : ∃ c ∈ containers, e.id ∈ s.children c kind := by
  obtain ⟨child, hchild, he⟩ := List.mem_filterMap.1 h
  obtain ⟨c, hc, hmem⟩ := List.mem_flatMap.1 hchild
  rw [(Snapshot.mem_of_element? he).2]
  exact ⟨c, hc, hmem⟩

/-- What a mapping inside containers has on a side is listed by them. -/
theorem exists_container_of_mem_ids {c : Mapping}
    (hm : m ∈ matchElements score threshold kind (listed old kind c.sources)
      (listed new kind c.targets)) (hid : id ∈ m.ids side) :
    ∃ container ∈ c.ids side, id ∈ (side.choose old new).children container kind := by
  obtain ⟨e, he, rfl⟩ := exists_element_of_mem_ids hm hid
  cases side with
  | source => exact exists_container_of_mem_listed he
  | target => exact exists_container_of_mem_listed he

/-- Every identity of a candidate is declared with its kind. -/
theorem declares_of_mem_candidatesOf (hold : old.Coherent) (hnew : new.Coherent)
    (h : m ∈ candidatesOf score threshold old new kind) (hid : id ∈ m.ids side) :
    (side.choose old new).declares kind id = true := by
  have hcoherent : (side.choose old new).Coherent := by
    cases side with
    | source => exact hold
    | target => exact hnew
  obtain ⟨_, _, hscope, hm⟩ := mem_candidatesOf.1 h
  cases hscope with
  | whole _ =>
    obtain ⟨e, he, rfl⟩ := exists_element_of_mem_ids hm hid
    have helem : e ∈ (side.choose old new).elements kind := by
      cases side <;> exact he
    exact Snapshot.declares_of_mem_elements hcoherent.distinct helem
  | within _ _ =>
    obtain ⟨container, -, hchild⟩ := exists_container_of_mem_ids hm hid
    exact hcoherent.declared container kind id hchild

/-! ## Candidates do not overlap -/

theorem pairwise_matchElements {sources targets : List Element} :
    (matchElements score threshold kind sources targets).Pairwise Mapping.Apart :=
  Mapping.pairwise_apart_of_nodup nodup_matchElements

/-- What is in a mapping together with an identity is what a path connects with it. -/
theorem has_iff_connected {sources targets : List Element}
    (hm : m ∈ matchElements score threshold kind sources targets) {u v : Node} (hu : m.Has u) :
    m.Has v ↔ Connected (Kept score threshold sources targets) u v := by
  constructor
  · intro hv
    exact together_matchElements.1 ⟨m, hm, hu, hv⟩
  · intro huv
    obtain ⟨m', hm', hu', hv'⟩ := together_matchElements.2 huv
    have hpart : (matchElements score threshold kind sources targets).Pairwise Mapping.Apart :=
      pairwise_matchElements
    have heq : m = m' := MappingSet.eq_of_mem_ids (s := ⟨_⟩) hpart hm hm' hu hu'
    rwa [heq]

/-- Mappings inside containers of different mappings share nothing that is listed once. -/
theorem apart_of_container_apart (hold : old.Unshared) (hnew : new.Unshared)
    (hkind : kind.container?.isSome) {c c' m' : Mapping} (hcc' : c.Apart c')
    (hm : m ∈ matchElements score threshold kind (listed old kind c.sources)
      (listed new kind c.targets))
    (hm' : m' ∈ matchElements score threshold kind (listed old kind c'.sources)
      (listed new kind c'.targets)) : m.Apart m' := by
  intro side id hid hid'
  obtain ⟨a, ha, hida⟩ := exists_container_of_mem_ids hm hid
  obtain ⟨b, hb, hidb⟩ := exists_container_of_mem_ids hm' hid'
  have hunshared : (side.choose old new).Unshared := by
    cases side with
    | source => exact hold
    | target => exact hnew
  have hab : a = b := hunshared kind a b id hkind hida hidb
  exact hcc' side ha (hab ▸ hb)

theorem pairwise_candidatesOf (hold : old.Unshared) (hnew : new.Unshared) (kind : ElementKind) :
    (candidatesOf score threshold old new kind).Pairwise Mapping.Apart := by
  cases hc : kind.container? with
  | none =>
    rw [candidatesOf_of_container?_eq_none hc]
    exact pairwise_matchElements
  | some containers =>
    have hkind : kind.container?.isSome := by simp [hc]
    have houter : (matchElements score threshold containers (old.elements containers)
        (new.elements containers)).Pairwise Mapping.Apart := pairwise_matchElements
    rw [candidatesOf_of_container?_eq_some hc, matchChildren, sortMappings,
      (List.mergeSort_perm _ _).pairwise_iff Mapping.Apart.symm, List.pairwise_flatMap,
      candidatesOf_of_container?_eq_none (container?_container hc)]
    refine ⟨fun c _ => pairwise_matchElements, houter.imp ?_⟩
    intro c c' hcc' m hm m' hm'
    exact apart_of_container_apart hold hnew hkind hcc' hm hm'

/-- Candidates of different kinds do not overlap since an identity has one kind. -/
theorem pairwise_candidates (hold : old.Coherent) (hnew : new.Coherent) (hold' : old.Unshared)
    (hnew' : new.Unshared) : (candidates score threshold old new).Pairwise Mapping.Apart := by
  rw [candidates_eq, List.pairwise_flatMap]
  refine ⟨fun kind _ => pairwise_candidatesOf hold' hnew' kind, ?_⟩
  have hkinds : ElementKind.all.Pairwise (· ≠ ·) := by decide
  refine hkinds.imp ?_
  intro k k' hne m hm m' hm' side id hid hid'
  have hk := declares_of_mem_candidatesOf hold hnew hm hid
  have hk' := declares_of_mem_candidatesOf hold hnew hm' hid'
  exact hne (Snapshot.kind_eq_of_declares hk hk')

/-! ## The mapping set -/

/-- There is a mapping set exactly if the candidates do not overlap; it has them in their order. -/
theorem matchSnapshots_eq_ok_iff {set : MappingSet} :
    matchSnapshots score threshold old new = .ok set ↔
      (candidates score threshold old new).Pairwise Mapping.Apart ∧
        set = ⟨candidates score threshold old new⟩ :=
  MappingSet.ofList_eq_ok_iff

/-- There is one between coherent snapshots that share nothing between containers. -/
theorem exists_matchSnapshots (hold : old.Coherent) (hnew : new.Coherent) (hold' : old.Unshared)
    (hnew' : new.Unshared) (score : Scorer) (threshold : Float) :
    ∃ set, matchSnapshots score threshold old new = .ok set :=
  ⟨_, matchSnapshots_eq_ok_iff.2 ⟨pairwise_candidates hold hnew hold' hnew', rfl⟩⟩

/-- The candidates between coherent snapshots fit them. -/
theorem validate_matchSnapshots (hold : old.Coherent) (hnew : new.Coherent) {set : MappingSet}
    (h : matchSnapshots score threshold old new = .ok set) : set.validate old new = .ok () := by
  obtain ⟨-, rfl⟩ := matchSnapshots_eq_ok_iff.1 h
  refine MappingSet.validate_eq_ok_iff.2 ?_
  intro m hm side id hid
  obtain ⟨kind, hkind⟩ := mem_candidates.1 hm
  rw [kind_of_mem_candidatesOf hkind]
  exact declares_of_mem_candidatesOf hold hnew hkind hid

end Matcher

end ApiEvolution
