import Mathlib.Data.Finset.Card
import Mathlib.Data.Multiset.Bind
import ApiEvolution.Proofs.Refinement
import ApiEvolution.Proofs.ScoreOrder
import ApiEvolution.Proofs.Symmetry

/-!
# Comparisons in both directions

If one score gives a pair what another gives the pair turned round, then what the two make of two
snapshots in opposite directions is mirrored: the mappings are the same with their sides exchanged
(`mirrored_candidates`), and there is a mapping set in both directions or in neither
(`Mirrored.pairwise_apart_iff`).

The graph of kept pairs is the same but for the sides of its nodes, so it has the same components,
and the scores of a component are the same. Inside containers this goes on from the mappings of the
containers: what is compared depends on which containers a mapping has, but not on their order.

The score of the naive stage does not depend on the direction, so the stage run backwards mirrors
the stage run forwards (`runStage_naive_mirrored`).
-/

namespace ApiEvolution

/-! ## What a mapping says -/

/-- The multiplicity of exchanged sides. -/
def Multiplicity.mirrored : Multiplicity → Multiplicity
  | .oneToOne => .oneToOne
  | .oneToMany => .manyToOne
  | .manyToOne => .oneToMany
  | .manyToMany => .manyToMany

/-- What a mapping says, apart from the order of the identities on its sides. -/
@[ext]
structure Profile where
  kind : ElementKind
  sources : Finset String
  targets : Finset String
  multiplicity : Multiplicity
  similarity : Float

/-- The profile with exchanged sides. -/
def Profile.mirrored (p : Profile) : Profile :=
  ⟨p.kind, p.targets, p.sources, p.multiplicity.mirrored, p.similarity⟩

/-- What a mapping says. -/
def Mapping.profile (m : Mapping) : Profile :=
  ⟨m.kind, m.sources.toFinset, m.targets.toFinset, m.multiplicity, m.similarity⟩

@[simp] theorem Multiplicity.mirrored_mirrored (m : Multiplicity) : m.mirrored.mirrored = m := by
  cases m <;> rfl

@[simp] theorem Profile.mirrored_mirrored (p : Profile) : p.mirrored.mirrored = p := by
  simp [mirrored]

theorem Profile.mirrored_injective : Function.Injective Profile.mirrored :=
  Function.LeftInverse.injective mirrored_mirrored

theorem Multiplicity.ofSizes_mirrored (m n : Nat) : (ofSizes m n).mirrored = ofSizes n m := by
  match m, n with
  | 0, 0 | 0, 1 | 0, _ + 2 | 1, 0 | 1, 1 | 1, _ + 2 | _ + 2, 0 | _ + 2, 1 | _ + 2, _ + 2 => rfl

/-- Profiles that share no identity on a side. -/
def Profile.Apart (p q : Profile) : Prop :=
  Disjoint p.sources q.sources ∧ Disjoint p.targets q.targets

instance : Std.Symm Profile.Apart :=
  ⟨fun _ _ h => ⟨h.1.symm, h.2.symm⟩⟩

theorem Profile.apart_mirrored_iff {p q : Profile} : p.mirrored.Apart q.mirrored ↔ p.Apart q :=
  and_comm

theorem Mapping.apart_profile_iff {m m' : Mapping} : m.profile.Apart m'.profile ↔ m.Apart m' := by
  simp [Mapping.apart_iff, Profile.Apart, profile, Finset.disjoint_left]

/-! ## Mirrored lists -/

/-- One list of mappings has the mappings of another with exchanged sides, each as often. -/
def Mirrored (ms ms' : List Mapping) : Prop :=
  (ms'.map Mapping.profile).Perm (ms.map fun m => m.profile.mirrored)

namespace Mirrored

variable {ms ms' cs cs' : List Mapping}

theorem perm {ns ns' : List Mapping} (h : Mirrored ms ms') (hms : ms.Perm ns)
    (hms' : ms'.Perm ns') : Mirrored ns ns' :=
  ((hms'.map _).symm.trans h).trans (hms.map _)

/-- A profile is in the one list exactly if its mirror image is in the other. -/
theorem mem_iff (h : Mirrored ms ms') {p : Profile} :
    p ∈ ms.map Mapping.profile ↔ p.mirrored ∈ ms'.map Mapping.profile := by
  refine Iff.trans ?_ (List.Perm.mem_iff h).symm
  simp [Profile.mirrored_injective.eq_iff]

/-- Mappings overlap in one direction exactly if they do in the other. -/
theorem pairwise_apart_iff (h : Mirrored ms ms') :
    ms.Pairwise Mapping.Apart ↔ ms'.Pairwise Mapping.Apart := by
  have hsymm : ∀ {p q : Profile}, p.Apart q → q.Apart p := fun h => Std.Symm.symm _ _ h
  calc ms.Pairwise Mapping.Apart
    _ ↔ (ms.map fun m => m.profile.mirrored).Pairwise Profile.Apart := by
      simp only [List.pairwise_map, Profile.apart_mirrored_iff, Mapping.apart_profile_iff]
    _ ↔ (ms'.map Mapping.profile).Pairwise Profile.Apart := (h.pairwise_iff hsymm).symm
    _ ↔ ms'.Pairwise Mapping.Apart := by
      simp only [List.pairwise_map, Mapping.apart_profile_iff]

/-- The members of mirrored lists can be paired off. -/
theorem iff_rel : Mirrored ms ms' ↔
    Multiset.Rel (fun m m' : Mapping => m.profile.mirrored = m'.profile) ms ms' := by
  rw [← Multiset.rel_map, Multiset.rel_eq, Multiset.map_coe, Multiset.map_coe, Multiset.coe_eq_coe]
  exact List.perm_comm

/-- Lists that are made from mirrored lists, with mirrored results for mirrored members. -/
theorem flatMap (h : Mirrored ms ms') {f f' : Mapping → List Mapping}
    (hf : ∀ m m', m.profile.mirrored = m'.profile → Mirrored (f m) (f' m')) :
    Mirrored (ms.flatMap f) (ms'.flatMap f') := by
  rw [iff_rel, ← Multiset.coe_bind, ← Multiset.coe_bind]
  exact Multiset.rel_bind (fun m m' hmm' => iff_rel.1 (hf m m' hmm')) (iff_rel.1 h)

end Mirrored

/-! ## The mirrored graph -/

/-- The other side. -/
def Side.other : Side → Side
  | .source => .target
  | .target => .source

/-- The identity on the other side. -/
def Node.mirrored (u : Node) : Node :=
  (u.1.other, u.2)

theorem Node.mirrored_mirrored (u : Node) : Node.mirrored (Node.mirrored u) = u := by
  obtain ⟨side, id⟩ := u
  cases side <;> rfl

theorem Connected.mirrored {kept : String → String → Prop} {u v : Node} (h : Connected kept u v) :
    Connected (flip kept) (Node.mirrored u) (Node.mirrored v) := by
  refine Relation.TransGen.lift Node.mirrored (fun a b hab => ?_) _ _ h
  cases hab with
  | forth hst => exact .back hst
  | back hst => exact .forth hst

theorem connected_mirrored_iff {kept : String → String → Prop} {u v : Node} :
    Connected (flip kept) (Node.mirrored u) (Node.mirrored v) ↔ Connected kept u v := by
  refine ⟨fun h => ?_, Connected.mirrored⟩
  have hback := h.mirrored
  rwa [Node.mirrored_mirrored, Node.mirrored_mirrored] at hback

open Similarity

namespace Matcher

variable {score score' : Scorer} {threshold : Float} {kind : ElementKind} {old new : Snapshot}
  {sources targets sources' targets' : List Element} {m : Mapping}

/-! ## Scores of a component -/

variable (score threshold sources targets) in
/-- A score is that of a kept pair of a mapping. -/
def HasScore (m : Mapping) (v : Float) : Prop :=
  ∃ x y, first? sources x.id = some x ∧ first? targets y.id = some y ∧
    keeps threshold (score x y) = true ∧ m.Has (.source, x.id) ∧ m.Has (.target, y.id) ∧
    score x y = v

theorem HasScore.pos {v : Float} (h : HasScore score threshold sources targets m v) : 0 < v := by
  obtain ⟨x, y, -, -, hkeep, -, -, rfl⟩ := h
  exact (keeps_iff.1 hkeep).1

theorem first?_eq_some_of_arrange {elements : List Element} {i : Nat} {x : Element}
    (h : (arrange elements)[i]? = some x) : first? elements x.id = some x := by
  rw [← first?_arrange]
  exact first?_of_getElem? (nodup_arrange elements) h

/-- The similarity of a mapping is the greatest of its scores. -/
theorem exists_scores (hm : m ∈ matchElements score threshold kind sources targets) :
    ∃ scores : List Float, scores ≠ [] ∧ m.similarity = scores.foldl greater 0 ∧
      ∀ v, v ∈ scores ↔ HasScore score threshold sources targets m v := by
  obtain ⟨d, hmem, hd⟩ := mem_matchArranged.1 hm
  have hhas := fun u => has_mappingAt? hd (u := u)
  obtain ⟨_, -, rfl⟩ := Option.map_eq_some_iff.1 hd
  refine ⟨_, ?_, rfl, fun v => ?_⟩
  · exact List.ne_nil_of_mem (List.mem_map_of_mem (List.mem_filter.2 ⟨hmem, by simp⟩))
  constructor
  · intro hv
    obtain ⟨e, he, rfl⟩ := List.mem_map.1 hv
    obtain ⟨he, hcomponent⟩ := List.mem_filter.1 he
    have hcomponent := of_decide_eq_true hcomponent
    obtain ⟨x, y, hx, hy, hkeep, hscore⟩ := mem_edges.1 he
    refine ⟨x, y, first?_eq_some_of_arrange hx, first?_eq_some_of_arrange hy, hkeep,
      (hhas _).2 ⟨e, he, hcomponent, ?_⟩, (hhas _).2 ⟨e, he, hcomponent, ?_⟩, hscore.symm⟩
    · simp [EndsAt, idAt?, Side.choose, Edge.position, hx]
    · simp [EndsAt, idAt?, Side.choose, Edge.position, hy]
  · rintro ⟨x, y, hx, hy, hkeep, hs, -, rfl⟩
    rw [← first?_arrange, first?_eq_some_iff_idAt? (nodup_arrange _)] at hx hy
    obtain ⟨i, hi, hxi⟩ := hx
    obtain ⟨j, hj, -⟩ := hy
    have he : (⟨i, j, score x y⟩ : Edge) ∈
        edges score threshold (arrange sources) (arrange targets) :=
      mem_edges.2 ⟨x, y, hi, hj, hkeep, rfl⟩
    have hends : EndsAt (arrange sources) (arrange targets) ⟨i, j, score x y⟩ (.source, x.id) := hxi
    obtain ⟨e', he', hcomponent, hends'⟩ := (hhas _).1 hs
    -- the edge of the pair shares its source with one of the component
    have hmeet := componentOf_eq_of_position_eq he he'
      (position_eq_of_endsAt (nodup_arrange _) (nodup_arrange _) hends hends')
    exact List.mem_map.2 ⟨_, List.mem_filter.2 ⟨he, decide_eq_true (hmeet.trans hcomponent)⟩, rfl⟩

/-! ## Mirrored components -/

/-- No two mappings of some elements say the same. -/
theorem nodup_profiles :
    ((matchElements score threshold kind sources targets).map Mapping.profile).Nodup := by
  refine List.pairwise_map.2 (pairwise_matchElements.imp_of_mem ?_)
  intro m m' hm _ hapart heq
  obtain ⟨s, hs⟩ := List.exists_mem_of_ne_nil _ (ids_ne_nil_of_mem_matchArranged hm .source)
  have hsources : m.sources.toFinset = m'.sources.toFinset := congrArg Profile.sources heq
  have hs' : s ∈ m'.sources.toFinset := hsources ▸ List.mem_toFinset.2 hs
  exact hapart .source hs (List.mem_toFinset.1 hs')

section Opposite

variable (hscore : ∀ x y, score x y = score' y x)
  (hsources : ∀ id, first? sources' id = first? targets id)
  (htargets : ∀ id, first? targets' id = first? sources id)

include hscore hsources htargets

theorem kept_eq_flip : Kept score' threshold sources' targets' =
    flip (Kept score threshold sources targets) := by
  funext t s
  refine propext (kept_iff.trans (Iff.trans ?_ kept_iff.symm))
  simp only [hsources, htargets, hscore]
  exact ⟨fun ⟨y, x, hy, hx, h⟩ => ⟨x, y, hx, hy, h⟩, fun ⟨x, y, hx, hy, h⟩ => ⟨y, x, hy, hx, h⟩⟩

theorem hasScore_iff {m' : Mapping} (hhas : ∀ u, m'.Has (Node.mirrored u) ↔ m.Has u) {v : Float} :
    HasScore score' threshold sources' targets' m' v ↔
      HasScore score threshold sources targets m v := by
  have hs : ∀ id, m'.Has (.target, id) ↔ m.Has (.source, id) := fun id => hhas (.source, id)
  have ht : ∀ id, m'.Has (.source, id) ↔ m.Has (.target, id) := fun id => hhas (.target, id)
  simp only [HasScore, hsources, htargets, hscore, hs, ht]
  constructor
  · rintro ⟨y, x, hy, hx, hkeep, hmy, hmx, hv⟩
    exact ⟨x, y, hx, hy, hkeep, hmx, hmy, hv⟩
  · rintro ⟨x, y, hx, hy, hkeep, hmx, hmy, hv⟩
    exact ⟨y, x, hy, hx, hkeep, hmy, hmx, hv⟩

/-- Each mapping of one direction is there in the other with exchanged sides. -/
theorem exists_mirrored (hm : m ∈ matchElements score threshold kind sources targets) :
    ∃ m' ∈ matchElements score' threshold kind sources' targets',
      m.profile.mirrored = m'.profile := by
  have hkept : Kept score' threshold sources' targets' =
      flip (Kept score threshold sources targets) := kept_eq_flip hscore hsources htargets
  obtain ⟨s, hs⟩ := List.exists_mem_of_ne_nil _ (ids_ne_nil_of_mem_matchArranged hm .source)
  have hs : m.Has (.source, s) := hs
  have hself := (has_iff_connected hm hs).1 hs
  obtain ⟨m', hm', hs', -⟩ := together_matchElements.2 (hkept ▸ hself.mirrored)
  have hhas : ∀ u, m'.Has (Node.mirrored u) ↔ m.Has u := by
    intro u
    rw [has_iff_connected hm hs, has_iff_connected hm' hs', hkept]
    exact connected_mirrored_iff
  have hsides : ∀ side, (m.ids side).Perm (m'.ids side.other) := by
    intro side
    refine (List.perm_ext_iff_of_nodup (nodup_ids_of_mem_matchElements hm side)
      (nodup_ids_of_mem_matchElements hm' side.other)).2 ?_
    exact fun id => (hhas (side, id)).symm
  have hs : m.sources.Perm m'.targets := hsides .source
  have ht : m.targets.Perm m'.sources := hsides .target
  have hmultiplicity : m.multiplicity.mirrored = m'.multiplicity := by
    rw [(multiplicity_matchArranged hm).2, (multiplicity_matchArranged hm').2,
      Multiplicity.ofSizes_mirrored, hs.length_eq, ht.length_eq]
  have hsimilarity : m.similarity = m'.similarity := by
    obtain ⟨scores, -, heq, hmem⟩ := exists_scores hm
    obtain ⟨scores', -, heq', hmem'⟩ := exists_scores hm'
    rw [heq, heq']
    refine foldl_greater_eq ?_ fun v => ?_
    · intro v hv
      exact ((hmem v).1 hv).pos
    · rw [hmem, hmem', hasScore_iff hscore hsources htargets hhas]
  refine ⟨m', hm', Profile.ext ?_ ?_ ?_ hmultiplicity hsimilarity⟩
  · exact (multiplicity_matchArranged hm).1.trans (multiplicity_matchArranged hm').1.symm
  · exact List.toFinset_eq_of_perm _ _ ht
  · exact List.toFinset_eq_of_perm _ _ hs

/-- The mappings of some elements are mirrored in the other direction. -/
theorem mirrored_matchElements : Mirrored (matchElements score threshold kind sources targets)
    (matchElements score' threshold kind sources' targets') := by
  have hnodup : (((matchElements score threshold kind sources targets).map Mapping.profile).map
      Profile.mirrored).Nodup := nodup_profiles.map Profile.mirrored_injective
  rw [List.map_map, Function.comp_def] at hnodup
  refine (List.perm_ext_iff_of_nodup nodup_profiles hnodup).2 fun p => ?_
  constructor
  · intro hp
    obtain ⟨m', hm', rfl⟩ := List.mem_map.1 hp
    obtain ⟨m, hm, hmm'⟩ := exists_mirrored (fun x y => (hscore y x).symm)
      (fun id => (htargets id).symm) (fun id => (hsources id).symm) hm'
    refine List.mem_map.2 ⟨m, hm, ?_⟩
    rw [← hmm', Profile.mirrored_mirrored]
  · intro hp
    obtain ⟨m, hm, rfl⟩ := List.mem_map.1 hp
    obtain ⟨m', hm', hmm'⟩ := exists_mirrored hscore hsources htargets hm
    exact List.mem_map.2 ⟨m', hm', hmm'.symm⟩

end Opposite

/-! ## Mirrored snapshots -/

theorem first?_listed_congr {s : Snapshot} {containers containers' : List String}
    (h : ∀ c, c ∈ containers ↔ c ∈ containers') (id : String) :
    first? (listed s kind containers) id = first? (listed s kind containers') id := by
  ext e
  rw [first?_listed_eq_some_iff, first?_listed_eq_some_iff]
  simp only [h]

variable (hscore : ∀ x y, score x y = score' y x)

include hscore

theorem mirrored_candidatesOf_whole (hkind : kind.container? = none) :
    Mirrored (candidatesOf score threshold old new kind)
      (candidatesOf score' threshold new old kind) := by
  rw [candidatesOf_of_container?_eq_none hkind, candidatesOf_of_container?_eq_none hkind]
  exact mirrored_matchElements hscore (fun _ => rfl) (fun _ => rfl)

/-- Inside containers the directions are mirrored since they are for the containers. -/
theorem mirrored_matchChildren {containers containers' : List Mapping}
    (h : Mirrored containers containers') :
    Mirrored (matchChildren score threshold old new containers kind)
      (matchChildren score' threshold new old containers' kind) := by
  refine Mirrored.perm (Mirrored.flatMap h ?_) (List.mergeSort_perm _ _).symm
    (List.mergeSort_perm _ _).symm
  intro c c' hcc'
  have hs : c.targets.toFinset = c'.sources.toFinset := congrArg Profile.sources hcc'
  have ht : c.sources.toFinset = c'.targets.toFinset := congrArg Profile.targets hcc'
  refine mirrored_matchElements hscore (first?_listed_congr fun id => ?_)
    (first?_listed_congr fun id => ?_)
  · rw [← List.mem_toFinset, ← hs, List.mem_toFinset]
  · rw [← List.mem_toFinset, ← ht, List.mem_toFinset]

theorem mirrored_candidatesOf (kind : ElementKind) :
    Mirrored (candidatesOf score threshold old new kind)
      (candidatesOf score' threshold new old kind) := by
  cases hkind : kind.container? with
  | none => exact mirrored_candidatesOf_whole hscore hkind
  | some containers =>
    rw [candidatesOf_of_container?_eq_some hkind, candidatesOf_of_container?_eq_some hkind]
    exact mirrored_matchChildren hscore
      (mirrored_candidatesOf_whole hscore (container?_container hkind))

/-- What is found between two snapshots is mirrored in the other direction. -/
theorem mirrored_candidates : Mirrored (candidates score threshold old new)
    (candidates score' threshold new old) := by
  rw [candidates_eq, candidates_eq, Mirrored, List.map_flatMap, List.map_flatMap]
  exact List.Perm.flatMap_left _ fun kind _ => mirrored_candidatesOf hscore kind

end Matcher

/-! ## The naive stage -/

/-- A stage without a mapping before succeeds exactly if its candidates do not overlap. -/
theorem exists_runStage_iff {stage : Stage} {old new : Snapshot} (hold : old.Coherent)
    (hnew : new.Coherent) (settings : Settings) :
    (∃ s, runStage stage old new none settings = .ok s) ↔
      (Matcher.candidates ((⟨old, new, none⟩ : Comparison).score settings.boost stage)
        (clampUnit settings.threshold) old new).Pairwise Mapping.Apart := by
  constructor
  · rintro ⟨s, hs⟩
    obtain ⟨-, hmatch, -⟩ := runStage_eq_ok_iff.1 hs
    exact (Matcher.matchSnapshots_eq_ok_iff.1 hmatch).1
  · intro hapart
    have hmatch := Matcher.matchSnapshots_eq_ok_iff.2 ⟨hapart, rfl⟩
    exact ⟨_, runStage_eq_ok_iff.2
      ⟨nofun, hmatch, Matcher.validate_matchSnapshots hold hnew hmatch⟩⟩

/-- The naive stage run backwards mirrors the naive stage run forwards. The score of two elements is
the same either way. The stage succeeds in both directions or in neither; and what a mapping of the
one result says, a mapping of the other says with the sides exchanged. -/
theorem runStage_naive_mirrored {text text' : String} {a b : Snapshot}
    (ha : Snapshot.read text = .ok a) (hb : Snapshot.read text' = .ok b) (settings : Settings) :
    (∀ w, ∀ x ∈ a.allElements, ∀ y ∈ b.allElements,
      elementSimilarity w a b x y = elementSimilarity w b a y x) ∧
    ((∃ s, runStage .naive a b none settings = .ok s) ↔
      ∃ s', runStage .naive b a none settings = .ok s') ∧
    ∀ s s', runStage .naive a b none settings = .ok s →
      runStage .naive b a none settings = .ok s' →
      ∀ p, p ∈ s.mappings.map Mapping.profile ↔ p.mirrored ∈ s'.mappings.map Mapping.profile := by
  have hcoherent := Snapshot.coherent_of_read ha
  have hcoherent' := Snapshot.coherent_of_read hb
  have hmirrored : Mirrored
      (Matcher.candidates ((⟨a, b, none⟩ : Comparison).score settings.boost .naive)
        (clampUnit settings.threshold) a b)
      (Matcher.candidates ((⟨b, a, none⟩ : Comparison).score settings.boost .naive)
        (clampUnit settings.threshold) b a) :=
    Matcher.mirrored_candidates fun x y => elementSimilarity_comm {} x y
  refine ⟨fun w x _ y _ => elementSimilarity_comm w x y, ?_, ?_⟩
  · rw [exists_runStage_iff hcoherent hcoherent', exists_runStage_iff hcoherent' hcoherent]
    exact hmirrored.pairwise_apart_iff
  · intro s s' hs hs' p
    obtain ⟨-, rfl⟩ := candidates_of_runStage hs
    obtain ⟨-, rfl⟩ := candidates_of_runStage hs'
    exact hmirrored.mem_iff

/-- The naive stage between two documents in both directions. -/
theorem runStage_naive_mirrored_classAndFunction :
    ∃ a b s s', Snapshot.read classWithAttribute.compact = .ok a ∧
      Snapshot.read classAndFunction.compact = .ok b ∧ runStage .naive a b none {} = .ok s ∧
      runStage .naive b a none {} = .ok s' ∧
      ∀ p, p ∈ s.mappings.map Mapping.profile ↔ p.mirrored ∈ s'.mappings.map Mapping.profile := by
  obtain ⟨a, ha, ha'⟩ := Snapshot.exists_of_readsUnshared readsUnshared_classWithAttribute
  obtain ⟨b, hb, hb'⟩ := Snapshot.exists_of_readsUnshared readsUnshared_classAndFunction
  have hnone : ∀ p, (none : Option MappingSet) = some p → p.validate a b = .ok () := by simp
  obtain ⟨s, hs⟩ := exists_runStage (Snapshot.coherent_of_read ha) (Snapshot.coherent_of_read hb)
    ha' hb' hnone .naive {}
  obtain ⟨-, hsucceeds, hmappings⟩ := runStage_naive_mirrored ha hb {}
  obtain ⟨s', hs'⟩ := hsucceeds.1 ⟨s, hs⟩
  exact ⟨a, b, s, s', ha, hb, hs, hs', hmappings s s' hs hs'⟩

end ApiEvolution
