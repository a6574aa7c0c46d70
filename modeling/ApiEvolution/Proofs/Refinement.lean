import ApiEvolution.Proofs.Containers

/-!
# Keeping fewer pairs refines the mappings

If every pair that one comparison keeps is also kept by another, then each mapping of the first lies
within one mapping of the second (`refines_matchSnapshots`). For classes and functions the graph of
the second comparison has all edges of the first. For what is inside containers it may have more
nodes too: the containers of a mapping are among those of the mapping around it, so that everything
that the first comparison looks at together the second looks at together
(`first?_listed_eq_some_iff`).

Of the stages, the strict one keeps no more than the naive one (`refines_runStage_strict`), and the
inheritance stage no more than the unchanged one (`refines_runStage_inheritance`).
-/

namespace ApiEvolution

/-! ## Mappings within mappings -/

/-- A mapping has the kind of another one, and on either side no more identities. -/
structure Mapping.Within (m m' : Mapping) : Prop where
  kind : m.kind = m'.kind
  sources : m.sources ⊆ m'.sources
  targets : m.targets ⊆ m'.targets

/-- Each mapping of a set is within a mapping of another set. -/
def MappingSet.Refines (s s' : MappingSet) : Prop :=
  ∀ m ∈ s.mappings, ∃ m' ∈ s'.mappings, m.Within m'

theorem Mapping.within_of_has {m m' : Mapping} (hkind : m.kind = m'.kind)
    (h : ∀ u, m.Has u → m'.Has u) : m.Within m' where
  kind := hkind
  sources id hid := h (.source, id) hid
  targets id hid := h (.target, id) hid

/-! ## What may be compared -/

/-- An element may be compared as one of a kind: it is declared with the kind, or found under an
identity that a container lists as one of the kind. -/
def Snapshot.Offers (s : Snapshot) (kind : ElementKind) (e : Element) : Prop :=
  e ∈ s.elements kind ∨ ∃ container, e.id ∈ s.children container kind ∧ s.element? e.id = some e

theorem Snapshot.mem_allElements_of_offers {s : Snapshot} {kind : ElementKind} {e : Element}
    (h : s.Offers kind e) : e ∈ s.allElements := by
  rcases h with he | ⟨_, -, he⟩
  · rw [mem_allElements_iff, kind_of_mem_elements he]
    exact he
  · exact (mem_of_element? he).1

theorem Snapshot.kind_of_offers {s : Snapshot} (hs : s.Coherent) {kind : ElementKind} {e : Element}
    (h : s.Offers kind e) : e.kind = kind := by
  rcases h with he | ⟨container, hchild, he⟩
  · exact kind_of_mem_elements he
  · obtain ⟨e', he', hkind⟩ := declares_iff.1 (hs.declared container kind e.id hchild)
    rw [he] at he'
    rw [Option.some_inj.1 he', hkind]

namespace Matcher

variable {score score' : Scorer} {threshold threshold' : Float} {old new : Snapshot}
  {kind : ElementKind} {sources targets sources' targets' : List Element} {m : Mapping}

theorem element?_of_mem_listed {s : Snapshot} {containers : List String} {e : Element}
    (h : e ∈ listed s kind containers) : s.element? e.id = some e := by
  obtain ⟨child, -, he⟩ := List.mem_filterMap.1 h
  rw [(Snapshot.mem_of_element? he).2]
  exact he

/-- Among the elements that containers list, an identity stands for the declaration that the
snapshot has for it. -/
theorem first?_listed_eq_some_iff {s : Snapshot} {containers : List String} {id : String}
    {e : Element} :
    first? (listed s kind containers) id = some e ↔
      (∃ c ∈ containers, id ∈ s.children c kind) ∧ s.element? id = some e := by
  constructor
  · intro h
    have hmem := mem_of_first? h
    have hid : e.id = id := id_of_first? h
    subst hid
    exact ⟨exists_container_of_mem_listed hmem, element?_of_mem_listed hmem⟩
  · rintro ⟨⟨c, hc, hchild⟩, he⟩
    have hid : e.id = id := (Snapshot.mem_of_element? he).2
    have hmem : e ∈ listed s kind containers :=
      List.mem_filterMap.2 ⟨id, List.mem_flatMap.2 ⟨c, hc, hchild⟩, he⟩
    cases hfirst : first? (listed s kind containers) id with
    | none =>
      rw [first?, List.find?_eq_none] at hfirst
      exact absurd (decide_eq_true hid) (hfirst e hmem)
    | some e' =>
      have hid' : e'.id = id := id_of_first? hfirst
      have he' := element?_of_mem_listed (mem_of_first? hfirst)
      rw [hid', he] at he'
      rw [he']

/-! ## Fewer edges -/

/-- Where all edges of one graph are edges of another, each component of the first is within one of
the second. -/
theorem exists_within_of_kept
    (hkept : ∀ s t, Kept score threshold sources targets s t →
      Kept score' threshold' sources' targets' s t)
    (hm : m ∈ matchElements score threshold kind sources targets) :
    ∃ m' ∈ matchElements score' threshold' kind sources' targets', m.Within m' := by
  -- the mapping around `m` is that of any source of `m`
  obtain ⟨s, hs⟩ := List.exists_mem_of_ne_nil _ (ids_ne_nil_of_mem_matchArranged hm .source)
  have hs : m.Has (.source, s) := hs
  have hself := (has_iff_connected hm hs).1 hs
  obtain ⟨m', hm', hs', -⟩ := together_matchElements.2 (hself.mono hkept)
  refine ⟨m', hm', Mapping.within_of_has ?_ ?_⟩
  · rw [(multiplicity_matchArranged hm).1, (multiplicity_matchArranged hm').1]
  · intro u hu
    exact (has_iff_connected hm' hs').2 (((has_iff_connected hm hs).1 hu).mono hkept)

variable (hkeeps : ∀ kind x y, old.Offers kind x → new.Offers kind y →
  keeps threshold (score x y) = true → keeps threshold' (score' x y) = true)

include hkeeps

theorem kept_elements {s t : String}
    (h : Kept score threshold (old.elements kind) (new.elements kind) s t) :
    Kept score' threshold' (old.elements kind) (new.elements kind) s t := by
  obtain ⟨x, y, hx, hy, hkeep⟩ := kept_iff.1 h
  have hkeep' := hkeeps kind x y (.inl (mem_of_first? hx)) (.inl (mem_of_first? hy)) hkeep
  exact kept_iff.2 ⟨x, y, hx, hy, hkeep'⟩

/-- With more containers the same pairs are kept, and others. -/
theorem kept_listed {c c' : Mapping} (hc : c.Within c') {s t : String}
    (h : Kept score threshold (listed old kind c.sources) (listed new kind c.targets) s t) :
    Kept score' threshold' (listed old kind c'.sources) (listed new kind c'.targets) s t := by
  obtain ⟨x, y, hx, hy, hkeep⟩ := kept_iff.1 h
  obtain ⟨⟨a, ha, hs⟩, hxs⟩ := first?_listed_eq_some_iff.1 hx
  obtain ⟨⟨b, hb, ht⟩, hyt⟩ := first?_listed_eq_some_iff.1 hy
  have hx' : first? (listed old kind c'.sources) s = some x :=
    first?_listed_eq_some_iff.2 ⟨⟨a, hc.sources ha, hs⟩, hxs⟩
  have hy' : first? (listed new kind c'.targets) t = some y :=
    first?_listed_eq_some_iff.2 ⟨⟨b, hc.targets hb, ht⟩, hyt⟩
  have hxid : x.id = s := id_of_first? hx
  have hyid : y.id = t := id_of_first? hy
  subst hxid hyid
  exact kept_iff.2 ⟨x, y, hx', hy', hkeeps kind x y (.inr ⟨a, hs, hxs⟩) (.inr ⟨b, ht, hyt⟩) hkeep⟩

theorem exists_within_candidatesOf_whole (hkind : kind.container? = none)
    (hm : m ∈ candidatesOf score threshold old new kind) :
    ∃ m' ∈ candidatesOf score' threshold' old new kind, m.Within m' := by
  rw [candidatesOf_of_container?_eq_none hkind] at hm ⊢
  exact exists_within_of_kept (fun _ _ => kept_elements hkeeps) hm

theorem exists_within_candidatesOf (hm : m ∈ candidatesOf score threshold old new kind) :
    ∃ m' ∈ candidatesOf score' threshold' old new kind, m.Within m' := by
  cases hkind : kind.container? with
  | none => exact exists_within_candidatesOf_whole hkeeps hkind hm
  | some containers =>
    rw [candidatesOf_of_container?_eq_some hkind, mem_matchChildren] at hm
    obtain ⟨c, hc, hm⟩ := hm
    obtain ⟨c', hc', hcc'⟩ :=
      exists_within_candidatesOf_whole hkeeps (container?_container hkind) hc
    obtain ⟨m', hm', hmm'⟩ := exists_within_of_kept (fun _ _ => kept_listed hkeeps hcc') hm
    refine ⟨m', ?_, hmm'⟩
    rw [candidatesOf_of_container?_eq_some hkind, mem_matchChildren]
    exact ⟨c', hc', hm'⟩

/-- The mapping set that keeps fewer pairs refines the other. -/
theorem refines_matchSnapshots {set set' : MappingSet}
    (h : matchSnapshots score threshold old new = .ok set)
    (h' : matchSnapshots score' threshold' old new = .ok set') : set.Refines set' := by
  obtain ⟨-, rfl⟩ := matchSnapshots_eq_ok_iff.1 h
  obtain ⟨-, rfl⟩ := matchSnapshots_eq_ok_iff.1 h'
  intro m hm
  obtain ⟨kind, hkind⟩ := mem_candidates.1 hm
  obtain ⟨m', hm', hmm'⟩ := exists_within_candidatesOf hkeeps hkind
  exact ⟨m', mem_candidates.2 ⟨kind, hm'⟩, hmm'⟩

end Matcher

/-! ## Stages -/

namespace Comparison

variable {c : Comparison} {threshold boost : Float} {x y : Element}

/-- A pair of one kind that the inheritance stage keeps is kept by the unchanged stage, which gives
it the same score or the full one. -/
theorem keeps_unchanged_of_keeps_inheritance (hkind : x.kind = y.kind) (hone : threshold ≤ 1)
    (h : Matcher.keeps threshold (c.inheritance boost x y) = true) :
    Matcher.keeps threshold (c.unchanged boost x y) = true := by
  have hpos : (0 : Float) < 1 := by decide
  rw [unchanged, if_neg (not_not_intro hkind)]
  split
  · exact Matcher.keeps_iff.2 ⟨hpos, hone⟩
  · exact h

end Comparison

open Similarity

variable {old new : Snapshot} {p : MappingSet} {settings : Settings}

/-- The strict stage refines the naive one. -/
theorem refines_runStage_strict {before : Option MappingSet} {strict naive : MappingSet}
    (h : runStage .strict old new (some p) settings = .ok strict)
    (h' : runStage .naive old new before settings = .ok naive) : strict.Refines naive := by
  obtain ⟨-, hstrict, -⟩ := runStage_eq_ok_iff.1 h
  obtain ⟨-, hnaive, -⟩ := runStage_eq_ok_iff.1 h'
  refine Matcher.refines_matchSnapshots ?_ hstrict hnaive
  intro kind x y _ _ hkeep
  exact (Comparison.keeps_strict_iff.1 hkeep).2

/-- The inheritance stage refines the unchanged one on the same mapping before. -/
theorem refines_runStage_inheritance (hold : old.Coherent) (hnew : new.Coherent)
    (hone : clampUnit settings.threshold ≤ 1) {inheritance unchanged : MappingSet}
    (h : runStage .inheritance old new (some p) settings = .ok inheritance)
    (h' : runStage .unchanged old new (some p) settings = .ok unchanged) :
    inheritance.Refines unchanged := by
  obtain ⟨-, hinheritance, -⟩ := runStage_eq_ok_iff.1 h
  obtain ⟨-, hunchanged, -⟩ := runStage_eq_ok_iff.1 h'
  refine Matcher.refines_matchSnapshots ?_ hinheritance hunchanged
  intro kind x y hx hy hkeep
  have hkind : x.kind = y.kind := by
    rw [Snapshot.kind_of_offers hold hx, Snapshot.kind_of_offers hnew hy]
  exact Comparison.keeps_unchanged_of_keeps_inheritance hkind hone hkeep

/-- Of two comparisons of the same snapshots, the one that keeps fewer pairs refines the other. In
this way the strict stage refines the naive one, and the inheritance stage the unchanged one. -/
theorem keeping_fewer_refines (old new : Snapshot) :
    (∀ score threshold score' threshold' set set',
      (∀ x ∈ old.allElements, ∀ y ∈ new.allElements,
        Matcher.keeps threshold (score x y) = true →
          Matcher.keeps threshold' (score' x y) = true) →
      Matcher.matchSnapshots score threshold old new = .ok set →
      Matcher.matchSnapshots score' threshold' old new = .ok set' → set.Refines set') ∧
    ∀ oldText newText p settings, Snapshot.read oldText = .ok old →
      Snapshot.read newText = .ok new → clampUnit settings.threshold ≤ 1 →
      (∀ before strict naive, runStage .strict old new (some p) settings = .ok strict →
        runStage .naive old new before settings = .ok naive → strict.Refines naive) ∧
      ∀ inheritance unchanged, runStage .inheritance old new (some p) settings = .ok inheritance →
        runStage .unchanged old new (some p) settings = .ok unchanged →
          inheritance.Refines unchanged := by
  refine ⟨?_, ?_⟩
  · intro score threshold score' threshold' set set' hkeeps h h'
    refine Matcher.refines_matchSnapshots ?_ h h'
    intro kind x y hx hy
    exact hkeeps x (Snapshot.mem_allElements_of_offers hx) y (Snapshot.mem_allElements_of_offers hy)
  · intro oldText newText p settings hold hnew hone
    refine ⟨fun before strict naive h h' => refines_runStage_strict h h', ?_⟩
    intro inheritance unchanged h h'
    exact refines_runStage_inheritance (Snapshot.coherent_of_read hold)
      (Snapshot.coherent_of_read hnew) hone h h'

/-- A score that is full for elements of one identity. -/
def identityScore : Scorer := fun x y =>
  if x.id = y.id then 1 else 0.5

/-- With a lower threshold more pairs are kept than those of one identity, and without a mapping
before more than with an empty one. -/
theorem keeping_fewer_refines_class :
    ∃ old new, Snapshot.read classWithAttribute.compact = .ok old ∧
      Snapshot.read classAndFunction.compact = .ok new ∧
      clampUnit ({} : Settings).threshold ≤ 1 ∧
      (∃ set set', Matcher.matchSnapshots identityScore 0.7 old new = .ok set ∧
        Matcher.matchSnapshots identityScore 0.5 old new = .ok set' ∧ set.Refines set') ∧
      (∃ strict naive, runStage .strict old new (some .empty) {} = .ok strict ∧
        runStage .naive old new none {} = .ok naive ∧ strict.Refines naive) ∧
      ∃ inheritance unchanged, runStage .inheritance old new (some .empty) {} = .ok inheritance ∧
        runStage .unchanged old new (some .empty) {} = .ok unchanged ∧
          inheritance.Refines unchanged := by
  obtain ⟨old, hold, hold'⟩ := Snapshot.exists_of_readsUnshared readsUnshared_classWithAttribute
  obtain ⟨new, hnew, hnew'⟩ := Snapshot.exists_of_readsUnshared readsUnshared_classAndFunction
  have hcoherent := Snapshot.coherent_of_read hold
  have hcoherent' := Snapshot.coherent_of_read hnew
  have hone : clampUnit ({} : Settings).threshold ≤ 1 := by decide
  have hlower : ∀ x ∈ old.allElements, ∀ y ∈ new.allElements,
      Matcher.keeps 0.7 (identityScore x y) = true →
        Matcher.keeps 0.5 (identityScore x y) = true := by
    intro x _ y _ _
    rw [identityScore]
    split <;> decide
  have hnone : ∀ p, (none : Option MappingSet) = some p → p.validate old new = .ok () := by simp
  have hempty : ∀ p, some MappingSet.empty = some p → p.validate old new = .ok () := by
    rintro p ⟨⟩
    rfl
  have hstage : ∀ stage, ∃ set, runStage stage old new (some .empty) {} = .ok set :=
    fun stage => exists_runStage hcoherent hcoherent' hold' hnew' hempty stage {}
  obtain ⟨set, hset⟩ :=
    Matcher.exists_matchSnapshots hcoherent hcoherent' hold' hnew' identityScore 0.7
  obtain ⟨set', hset'⟩ :=
    Matcher.exists_matchSnapshots hcoherent hcoherent' hold' hnew' identityScore 0.5
  obtain ⟨naive, hnaive⟩ := exists_runStage hcoherent hcoherent' hold' hnew' hnone .naive {}
  obtain ⟨strict, hstrict⟩ := hstage .strict
  obtain ⟨inheritance, hinheritance⟩ := hstage .inheritance
  obtain ⟨unchanged, hunchanged⟩ := hstage .unchanged
  obtain ⟨hgeneral, hstages⟩ := keeping_fewer_refines old new
  obtain ⟨hnaiveStage, hunchangedStage⟩ := hstages _ _ .empty {} hold hnew hone
  exact ⟨old, new, hold, hnew, hone,
    ⟨set, set', hset, hset', hgeneral _ _ _ _ _ _ hlower hset hset'⟩,
    ⟨strict, naive, hstrict, hnaive, hnaiveStage _ _ _ hstrict hnaive⟩,
    inheritance, unchanged, hinheritance, hunchanged,
    hunchangedStage _ _ hinheritance hunchanged⟩

end ApiEvolution
