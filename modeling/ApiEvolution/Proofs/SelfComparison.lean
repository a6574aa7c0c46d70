import ApiEvolution.Proofs.Overriding
import ApiEvolution.Proofs.SelfSimilarity
import ApiEvolution.Proofs.UnitScores

/-!
# A snapshot compared with itself

A run between a snapshot and itself recognises everything that it compares: every class, every
function and every member that a container lists is in a mapping with itself, after each stage
(`runPipeline_self`).

One stage hands over to the next what this one needs (`MappingSet.Recognises`): containers are
mapped to themselves, so that they agree for every element and itself
(`Comparison.containersAgree_self`); and no similarity is above 1, so that no overridden member
moves a score of 1 (`Comparison.score_self`).
-/

namespace ApiEvolution

open Similarity

/-! ## Elements that are compared -/

/-- Classes and functions are compared, and of the other elements those that a container lists. -/
def Snapshot.Compares (s : Snapshot) (e : Element) : Prop :=
  e.kind.container? = none ∨ ∃ container, e.id ∈ s.children container e.kind

/-- A mapping set has each element that is compared on both sides of one mapping, and nothing else
on any side; its similarities are not above 1. -/
structure MappingSet.Recognises (set : MappingSet) (api : Snapshot) : Prop where
  both : ∀ e ∈ api.allElements, api.Compares e → set.maps e.id e.id = true
  compared : ∀ m ∈ set.mappings, ∀ side, ∀ id ∈ m.ids side,
    ∃ e ∈ api.allElements, e.id = id ∧ api.Compares e
  bounded : ∀ m ∈ set.mappings, ¬ 1 < m.similarity

variable {api : Snapshot} {e : Element}

/-- What is compared inside containers of a kind is listed by those of this kind only. -/
theorem Snapshot.eq_of_mem_listedKinds {kind kind' containers : ElementKind}
    (h : kind ∈ listedKinds kind') (hkind : kind.container? = some containers) :
    containers = kind' := by
  cases kind <;> cases kind' <;> cases hkind <;>
    first
      | rfl
      | simp [listedKinds] at h

/-- What lists something is itself compared. -/
theorem Snapshot.exists_compared_container {container id : String} {kind : ElementKind}
    (h : id ∈ api.children container kind) :
    ∃ c ∈ api.allElements, c.id = container ∧ c.kind.container? = none ∧
      ∀ k, kind.container? = some k → k = c.kind := by
  obtain ⟨c, hc, rfl, hlisted⟩ := exists_container h
  have hkinds : c.kind.container? = none ∧ c ∈ api.elements c.kind := by
    rcases List.mem_append.1 hc with hc | hc
    · rw [kind_of_mem_elements hc]
      exact ⟨rfl, hc⟩
    · rw [kind_of_mem_elements hc]
      exact ⟨rfl, hc⟩
  exact ⟨c, mem_allElements_iff.2 hkinds.2, rfl, hkinds.1,
    fun k hk => eq_of_mem_listedKinds hlisted hk⟩

/-! ## Scores of an element and itself -/

namespace Comparison

variable {previous : Option MappingSet}

theorem naive_self (he : ExactUpTo e.breadth) :
    (⟨api, api, previous⟩ : Comparison).naive e e = 1 :=
  elementSimilarity_self he

variable (hs : api.Indexed)
  (hprevious : ∀ p, previous = some p → p.Recognises api)
include hs hprevious

theorem containersAgree_self (e : Element) :
    (⟨api, api, previous⟩ : Comparison).containersAgree e e = true := by
  cases previous with
  | none => rfl
  | some p =>
    refine containersAgree_iff.2 ?_
    cases hparent : api.parentOf? e.id with
    | none => exact .outermost hparent hparent
    | some container =>
      obtain ⟨kind, hchild⟩ := hs.listed_of_parent e.id container hparent
      obtain ⟨c, hc, rfl, hkind, -⟩ := Snapshot.exists_compared_container hchild
      exact .inside hparent hparent ((hprevious p rfl).both c hc (.inl hkind))

theorem inheritance_self {boost : Float} (he : ExactUpTo e.breadth) :
    (⟨api, api, previous⟩ : Comparison).inheritance boost e e = 1 := by
  refine inheritance_eq_one ?_ (naive_self he) (fun p hp m hm => (hprevious p hp).bounded m hm)
  rw [admits, containersAgree_self hs hprevious e, Bool.true_or]

/-- Every stage gives an element and itself the full score. -/
theorem score_self {boost : Float} (he : ExactUpTo e.breadth) (stage : Stage) :
    (⟨api, api, previous⟩ : Comparison).score boost stage e e = 1 := by
  cases stage with
  | naive => exact naive_self he
  | strict =>
    simp only [score, strict, containersAgree_self hs hprevious e, naive_self he, if_true]
  | inheritance => exact inheritance_self hs hprevious he
  | unchanged =>
    rw [score, unchanged, if_neg (not_not_intro rfl), inheritance_self hs hprevious he, ite_self]

end Comparison

/-! ## Mappings between a snapshot and itself -/

namespace Matcher

variable {score : Scorer} {threshold : Float}

/-- A score that keeps every element with itself recognises all that is compared. -/
theorem maps_self_candidates (hs : api.Coherent)
    (hkeeps : ∀ e ∈ api.allElements, keeps threshold (score e e) = true)
    (he : e ∈ api.allElements) (hcompared : api.Compares e) :
    (⟨candidates score threshold api api⟩ : MappingSet).maps e.id e.id = true := by
  have hwhole : ∀ c ∈ api.allElements, c.kind.container? = none →
      (⟨candidates score threshold api api⟩ : MappingSet).maps c.id c.id = true := by
    intro c hc hkind
    have hmem := Snapshot.mem_allElements_iff.1 hc
    exact maps_candidates_of_keeps hs hs hkind hmem hmem (hkeeps c hc)
  cases hkind : e.kind.container? with
  | none => exact hwhole e he hkind
  | some containers =>
    obtain ⟨container, hchild⟩ := hcompared.resolve_left (by simp [hkind])
    obtain ⟨c, hc, rfl, hnone, hcontainers⟩ := Snapshot.exists_compared_container hchild
    obtain rfl := hcontainers _ hkind
    -- the container is in a mapping with itself, and inside this mapping the element is compared
    have hdeclared : api.declares c.kind c.id = true :=
      Snapshot.declares_of_mem_elements hs.distinct (Snapshot.mem_allElements_iff.1 hc)
    obtain ⟨m, hm, hsource, htarget⟩ :=
      (maps_candidates_iff hs hs hdeclared).1 (hwhole c hc hnone)
    have hfound := Snapshot.element?_id hs.distinct he
    exact MappingSet.maps_iff.2 (exists_mem_candidates_of_keeps (.within hkind hm)
      (first?_listed_eq_some_iff.2 ⟨⟨c.id, hsource, hchild⟩, hfound⟩)
      (first?_listed_eq_some_iff.2 ⟨⟨c.id, htarget, hchild⟩, hfound⟩) (hkeeps e he))

/-- Nothing else gets into a mapping. -/
theorem compares_of_mem_candidates (hs : api.Coherent) {m : Mapping}
    (hm : m ∈ candidates score threshold api api) {side : Side} {id : String}
    (hid : id ∈ m.ids side) : ∃ e ∈ api.allElements, e.id = id ∧ api.Compares e := by
  have hchoose : side.choose api api = api := by cases side <;> rfl
  obtain ⟨kind, hkind⟩ := mem_candidates.1 hm
  have hdeclared := declares_of_mem_candidatesOf hs hs hkind hid
  rw [hchoose] at hdeclared
  obtain ⟨e, he, rfl⟩ := Snapshot.declares_iff.1 hdeclared
  obtain ⟨hmem, rfl⟩ := Snapshot.mem_of_element? he
  refine ⟨e, hmem, rfl, ?_⟩
  obtain ⟨_, _, hscope, hmatch⟩ := mem_candidatesOf.1 hkind
  cases hscope with
  | whole hnone => exact .inl hnone
  | within _ _ =>
    obtain ⟨container, -, hchild⟩ := exists_container_of_mem_ids hmatch hid
    rw [hchoose] at hchild
    exact .inr ⟨container, hchild⟩

end Matcher

/-! ## Stages and runs -/

variable {settings : Settings} {previous : Option MappingSet} {set : MappingSet}

/-- A stage recognises what is compared, if the stage before has. -/
theorem recognises_runStage (hs : api.Indexed)
    (hcounts : ∀ e ∈ api.allElements, ExactUpTo e.breadth)
    (hthreshold : settings.threshold.isNaN = false) {stage : Stage}
    (hprevious : ∀ p, previous = some p → p.Recognises api)
    (h : runStage stage api api previous settings = .ok set) : set.Recognises api := by
  obtain ⟨-, rfl⟩ := candidates_of_runStage h
  refine ⟨?_, ?_, ?_⟩
  · intro e he
    refine Matcher.maps_self_candidates hs.toCoherent ?_ he
    intro e he
    rw [Comparison.score_self hs hprevious (hcounts e he)]
    exact keeps_one hthreshold
  · intro m hm side id hid
    exact Matcher.compares_of_mem_candidates hs.toCoherent hm hid
  · intro m hm
    exact Matcher.not_one_lt_similarity (fun _ _ => Comparison.not_one_lt_score stage) hm

/-- All stages do, one after the other. -/
theorem recognises_runStages (hs : api.Indexed)
    (hcounts : ∀ e ∈ api.allElements, ExactUpTo e.breadth)
    (hthreshold : settings.threshold.isNaN = false) {stages : List Stage}
    {results : List (Stage × MappingSet)} (hprevious : ∀ p, previous = some p → p.Recognises api)
    (h : runStages api api settings previous stages = .ok results) :
    ∀ result ∈ results, result.2.Recognises api := by
  induction stages generalizing previous results with
  | nil =>
    cases h
    simp
  | cons stage rest ih =>
    obtain ⟨set, more, hset, hmore, rfl⟩ := runStages_cons_eq_ok_iff.1 h
    have hrecognises := recognises_runStage hs hcounts hthreshold hprevious hset
    refine List.forall_mem_cons.2 ⟨hrecognises, ih ?_ hmore⟩
    rintro p ⟨⟩
    exact hrecognises

/-- On both sides the elements that are in no mapping are those that are not compared. -/
theorem MappingSet.Recognises.forSide?_eq_none_iff (hs : api.Coherent) (h : set.Recognises api)
    (he : e ∈ api.allElements) (side : Side) :
    set.forSide? side e.id = none ↔ ¬ api.Compares e := by
  rw [MappingSet.forSide?_eq_none_iff]
  constructor
  · intro hnone hcompared
    obtain ⟨m, hm, hsource, htarget⟩ := maps_iff.1 (h.both e he hcompared)
    cases side with
    | source => exact hnone m hm hsource
    | target => exact hnone m hm htarget
  · intro hnot m hm hid
    obtain ⟨e', he', hid', hcompared⟩ := h.compared m hm side e.id hid
    rw [List.inj_on_of_nodup_map hs.distinct he' he hid'] at hcompared
    exact hnot hcompared

theorem MappingSet.Recognises.removed_eq_added (hs : api.Coherent) (h : set.Recognises api) :
    set.removed api = set.added api := by
  refine List.filter_congr ?_
  intro id hid
  obtain ⟨e, he, rfl⟩ := List.mem_map.1 hid
  have hsource : set.forSource? e.id = none ↔ ¬ api.Compares e :=
    h.forSide?_eq_none_iff hs he .source
  have htarget : set.forTarget? e.id = none ↔ ¬ api.Compares e :=
    h.forSide?_eq_none_iff hs he .target
  rw [Bool.eq_iff_iff, Option.isNone_iff_eq_none, Option.isNone_iff_eq_none, hsource, htarget]

theorem MappingSet.Recognises.mem_removed (hs : api.Coherent) (h : set.Recognises api) {id : String}
    (hid : id ∈ set.removed api) :
    ∃ e ∈ api.allElements, e.id = id ∧ e.kind.container?.isSome ∧
      ∀ container, e.id ∉ api.children container e.kind := by
  obtain ⟨hmem, hnone⟩ := List.mem_filter.1 hid
  obtain ⟨e, he, rfl⟩ := List.mem_map.1 hmem
  have hnot : ¬ api.Compares e :=
    (h.forSide?_eq_none_iff hs he .source).1 (Option.isNone_iff_eq_none.1 hnone)
  rw [Snapshot.Compares, not_or, not_exists] at hnot
  exact ⟨e, he, rfl, Option.isSome_iff_ne_none.2 hnot.1, hnot.2⟩

/-- In a run between an accepted document and itself, in which nothing is listed by two containers,
each stage has every class, every function and every member that a container lists on both sides of
one mapping. So what is removed is what is added, and these are members that no container lists. The
threshold has to be a number, and the counts of the document have to be exact. -/
theorem runPipeline_self {text : String} (h : Snapshot.read text = .ok api) (hu : api.Unshared)
    {settings : Settings} (hthreshold : settings.threshold.isNaN = false)
    (hcounts : ∀ e ∈ api.allElements, ExactUpTo e.breadth) :
    ∃ r, runPipeline api api settings = .ok r ∧ ∀ stage set, (stage, set) ∈ r.stages →
      (∀ e ∈ api.allElements,
        (e.kind.container? = none ∨ ∃ container, e.id ∈ api.children container e.kind) →
          ∃ m ∈ set.mappings, e.id ∈ m.sources ∧ e.id ∈ m.targets) ∧
      set.removed api = set.added api ∧
      ∀ id ∈ set.removed api, ∃ e ∈ api.allElements, e.id = id ∧ e.kind.container?.isSome ∧
        ∀ container, e.id ∉ api.children container e.kind := by
  have hs := Snapshot.indexed_of_read h
  obtain ⟨r, hr⟩ := exists_runPipeline hs.toCoherent hs.toCoherent hu hu settings
  refine ⟨r, hr, ?_⟩
  intro stage set hmem
  have hnone : ∀ p, (none : Option MappingSet) = some p → p.Recognises api := by simp
  have hrecognises : set.Recognises api :=
    recognises_runStages hs hcounts hthreshold hnone (runPipeline_eq_ok_iff.1 hr) _ hmem
  refine ⟨?_, hrecognises.removed_eq_added hs.toCoherent,
    fun id hid => hrecognises.mem_removed hs.toCoherent hid⟩
  intro e he hcompared
  exact MappingSet.maps_iff.1 (hrecognises.both e he hcompared)

/-- In every stage the attribute of the subclass is in a mapping with itself. -/
theorem runPipeline_self_subclass :
    ∃ api r, Snapshot.read classWithSubclass.compact = .ok api ∧ api.Unshared ∧
      (∀ e ∈ api.allElements, ExactUpTo e.breadth) ∧ runPipeline api api {} = .ok r ∧
      ∀ stage set, (stage, set) ∈ r.stages →
        (∃ m ∈ set.mappings, "x" ∈ m.sources ∧ "x" ∈ m.targets) ∧
          set.removed api = set.added api := by
  obtain ⟨api, hread, hexclusive, hclasses, hfunctions⟩ := exists_read_classWithSubclass
  have hs := Snapshot.coherent_of_read hread
  have hthreshold : ({} : Settings).threshold.isNaN = false := by decide
  have hclassBreadth : ∀ c ∈ [baseClass, subclass], (Element.ofClass c).breadth ≤ 1 := by decide
  have hbreadth : ∀ e ∈ api.allElements, e.breadth ≤ 1 := by
    intro e he
    have hmem := Snapshot.mem_allElements_iff.1 he
    cases e with
    | ofClass c =>
      refine hclassBreadth c ?_
      simpa [Snapshot.elements, Element.kind, hclasses] using hmem
    | ofFunction f => simp [Snapshot.elements, Element.kind, hfunctions] at hmem
    | ofParameter _ | ofAttribute _ | ofResult _ => exact Nat.zero_le _
  have hone : ExactUpTo 1 := by
    intro n hpos hn
    obtain rfl : n = 1 := by omega
    decide +kernel
  have hcounts : ∀ e ∈ api.allElements, ExactUpTo e.breadth :=
    fun e he => hone.mono (hbreadth e he)
  have hlisted : "x" ∈ api.children "B" .attributeKind := by
    simp [Snapshot.children, Snapshot.class?, hclasses, baseClass, subclass]
  obtain ⟨x, hx, hkind⟩ := Snapshot.declares_iff.1 (hs.declared _ _ _ hlisted)
  obtain ⟨hmem, hid⟩ := Snapshot.mem_of_element? hx
  obtain ⟨r, hr, hstages⟩ := runPipeline_self hread hexclusive.unshared hthreshold hcounts
  refine ⟨api, r, hread, hexclusive.unshared, hcounts, hr, ?_⟩
  intro stage set hset
  obtain ⟨hboth, hsame, -⟩ := hstages stage set hset
  rw [← hid, ← hkind] at hlisted
  rw [← hid]
  exact ⟨hboth x hmem (.inr ⟨"B", hlisted⟩), hsame⟩

end ApiEvolution
