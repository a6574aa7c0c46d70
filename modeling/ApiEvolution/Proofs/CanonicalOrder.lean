import Mathlib.Data.Prod.Lex
import ApiEvolution.Proofs.Mirroring

/-!
# The order of mappings

The mappings that the matcher makes do not depend on the order in which elements are given, and
stand in an order of their own (`matchSnapshots_inOrder`).

* Kinds come one after the other, and in a kind mappings are sorted by their first sources
  (`pairwise_startsBefore`). No two of them have the same one, since mappings do not overlap.
* In a mapping identities increase as positions do (`pairwise_idsAt`). Only the targets of a single
  source are ranked by their scores (`ranked_positionsOf_target`), so that the best one comes first.
* The similarity is the greatest of the scores of the mapping (`foldl_greater_mem`).
-/

namespace ApiEvolution

open Matcher

/-! ## What the order is -/

/-- The first source of a mapping is less than that of another. -/
def Mapping.StartsBefore (m m' : Mapping) : Prop :=
  ∃ s t, m.sources.head? = some s ∧ m'.sources.head? = some t ∧ s < t

/-- Of two new elements, the first has the greater score against an old one, or the same score and
the lesser identity. -/
def Outranks (score : Scorer) (x y z : Element) : Prop :=
  Decimal.compareFloat (score x z) (score x y) = .lt ∨
    Decimal.compareFloat (score x z) (score x y) = .eq ∧ y.id < z.id

/-- The sides of a mapping are in order, and its similarity is the greatest score, when some
elements are compared. -/
structure Mapping.InOrder (score : Scorer) (threshold : Float) (sources targets : List Element)
    (m : Mapping) : Prop where
  /-- The sources increase. -/
  sources_lt : m.sources.Pairwise (· < ·)
  /-- The targets increase, unless there are several for a single source. -/
  targets_lt : m.multiplicity ≠ .oneToMany → m.targets.Pairwise (· < ·)
  /-- Several targets of a single source are ranked by their scores against it. -/
  targets_ranked : m.multiplicity = .oneToMany →
    ∃ x, first? sources x.id = some x ∧ m.sources = [x.id] ∧
      m.targets.Pairwise fun t t' => ∃ y z, first? targets t = some y ∧
        first? targets t' = some z ∧ Outranks score x y z
  /-- The similarity is the score of a kept pair. -/
  attained : HasScore score threshold sources targets m m.similarity
  /-- No kept pair of the mapping has a greater score. -/
  greatest : ∀ v, HasScore score threshold sources targets m v →
    (Decimal.compareFloat v m.similarity).isLE = true

/-- A mapping set is in canonical order. -/
structure MappingSet.InOrder (score : Scorer) (threshold : Float) (old new : Snapshot)
    (s : MappingSet) : Prop where
  /-- The mappings come kind by kind. -/
  kinds : s.mappings = ElementKind.all.flatMap s.ofKind
  /-- In a kind the first sources increase. -/
  starts : ∀ kind, (s.ofKind kind).Pairwise Mapping.StartsBefore
  /-- Each mapping is one of those between the elements of a scope, and in order. -/
  mappings : ∀ m ∈ s.mappings, ∃ sources targets,
    Scope score threshold old new m.kind sources targets ∧
      m ∈ matchElements score threshold m.kind sources targets ∧
        m.InOrder score threshold sources targets

namespace Matcher

variable {score : Scorer} {threshold : Float} {kind : ElementKind} {old new : Snapshot}
  {sources targets : List Element} {es : List Edge} {m : Mapping}

/-! ## Mappings of one kind -/

/-- Mappings are sorted lexicographically by first source and least target. -/
theorem precedes_iff {a b : Mapping} :
    precedes a b = true ↔ toLex (sortKey a) ≤ toLex (sortKey b) := by
  simp only [precedes, Prod.Lex.toLex_le_toLex]
  split
  · next heq => simp [heq]
  · next hne => simp [hne, le_iff_lt_or_eq]

theorem sorted_sortMappings (ms : List Mapping) :
    (sortMappings ms).Pairwise fun a b => toLex (sortKey a) ≤ toLex (sortKey b) := by
  refine (List.pairwise_mergeSort ?_ ?_ ms).imp precedes_iff.1
  · intro a b c hab hbc
    rw [precedes_iff] at hab hbc ⊢
    exact le_trans hab hbc
  · intro a b
    rw [Bool.or_eq_true, precedes_iff, precedes_iff]
    exact le_total _ _

/-- Sorted mappings that do not overlap have increasing first sources. -/
theorem pairwise_startsBefore {ms : List Mapping}
    (hapart : (sortMappings ms).Pairwise Mapping.Apart)
    (hne : ∀ m ∈ sortMappings ms, m.sources ≠ []) :
    (sortMappings ms).Pairwise Mapping.StartsBefore := by
  refine ((sorted_sortMappings ms).and hapart).imp_of_mem ?_
  rintro a b ha hb ⟨hle, hab⟩
  obtain ⟨s, ss, hs⟩ := List.exists_cons_of_ne_nil (hne a ha)
  obtain ⟨t, ts, ht⟩ := List.exists_cons_of_ne_nil (hne b hb)
  refine ⟨s, t, by simp [hs], by simp [ht], lt_of_le_of_ne ?_ ?_⟩
  · have hfirst : (sortKey a).1 ≤ (sortKey b).1 := Prod.Lex.monotone_fst _ _ hle
    simpa [sortKey, hs, ht] using hfirst
  · rintro rfl
    exact (Mapping.apart_iff.1 hab).1 s (by simp [hs]) (by simp [ht])

/-- Whatever is compared, the candidates of a kind are sorted. -/
theorem exists_candidatesOf_eq_sortMappings (kind : ElementKind) :
    ∃ ms, candidatesOf score threshold old new kind = sortMappings ms := by
  cases hkind : kind.container? with
  | none => exact ⟨_, candidatesOf_of_container?_eq_none hkind⟩
  | some containers => exact ⟨_, candidatesOf_of_container?_eq_some hkind⟩

theorem sources_ne_nil_of_mem_candidatesOf (hm : m ∈ candidatesOf score threshold old new kind) :
    m.sources ≠ [] := by
  obtain ⟨_, _, -, hm⟩ := mem_candidatesOf.1 hm
  exact ids_ne_nil_of_mem_matchArranged hm .source

/-! ## Sides that increase -/

/-- Identities at positions are in an order that goes with one of the positions. -/
theorem pairwise_idsAt {elements : List Element} {positions : List Nat} {R : Nat → Nat → Prop}
    {S : String → String → Prop} (hpositions : positions.Pairwise R)
    (h : ∀ i j a b, R i j → idAt? elements i = some a → idAt? elements j = some b → S a b) :
    (idsAt elements positions).Pairwise S := by
  rw [idsAt, List.pairwise_filterMap]
  refine hpositions.imp ?_
  intro i j hij a ha b hb
  exact h i j a b hij ha hb

theorem lt_of_idAt? {elements : List Element} (h : elements.Pairwise fun a b => a.id < b.id)
    {i j : Nat} {a b : String} (hij : i < j) (ha : idAt? elements i = some a)
    (hb : idAt? elements j = some b) : a < b := by
  obtain ⟨x, hx, rfl⟩ := Option.map_eq_some_iff.1 ha
  obtain ⟨y, hy, rfl⟩ := Option.map_eq_some_iff.1 hb
  obtain ⟨hi, rfl⟩ := List.getElem?_eq_some_iff.1 hx
  obtain ⟨hj, rfl⟩ := List.getElem?_eq_some_iff.1 hy
  exact List.pairwise_iff_getElem.1 h i j hi hj hij

/-- At increasing positions of sorted elements identities increase. -/
theorem sorted_idsAt {elements : List Element} (h : elements.Pairwise fun a b => a.id < b.id)
    {positions : List Nat} (hpositions : SortedSet.Sorted compare positions) :
    (idsAt elements positions).Pairwise (· < ·) := by
  refine pairwise_idsAt hpositions ?_
  intro i j a b hij ha hb
  exact lt_of_idAt? h (Nat.compare_eq_lt.1 hij) ha hb

/-! ## Targets by rank -/

/-- The order of the targets of a single source: by score, the greatest first, then by position. -/
def rank (es : List Edge) (a b : Nat) : Ordering :=
  (Decimal.compareFloat (scoreOf es b) (scoreOf es a)).then (compare a b)

instance (es : List Edge) : Std.TransCmp (rank es) :=
  have : Std.TransCmp fun a b => Decimal.compareFloat (scoreOf es a) (scoreOf es b) :=
    inferInstanceAs (Std.TransCmp (compareOn fun a => Decimal.orderKey (scoreOf es a)))
  have : Std.TransCmp fun a b => Decimal.compareFloat (scoreOf es b) (scoreOf es a) :=
    Std.TransCmp.opposite
  inferInstanceAs (Std.TransCmp (compareLex
    (fun a b => Decimal.compareFloat (scoreOf es b) (scoreOf es a)) compare))

theorem comesBefore_iff {a b : Nat} : comesBefore es a b = true ↔ (rank es a b).isLE = true := by
  unfold comesBefore rank
  split
  · next hlt => simp [hlt]
  · next heq => simp [heq, Nat.isLE_compare]
  · next hgt => simp [hgt]

/-- Sorted targets are strictly ranked if none is there twice. -/
theorem sorted_mergeSort_comesBefore {positions : List Nat} (h : positions.Nodup) :
    SortedSet.Sorted (rank es) (positions.mergeSort (comesBefore es)) := by
  have hsorted : (positions.mergeSort (comesBefore es)).Pairwise
      fun a b => comesBefore es a b = true := by
    apply List.pairwise_mergeSort
    · intro a b c hab hbc
      rw [comesBefore_iff] at hab hbc ⊢
      exact Std.TransCmp.isLE_trans hab hbc
    · intro a b
      rw [Bool.or_eq_true, comesBefore_iff, comesBefore_iff]
      cases hab : rank es a b with
      | lt => simp
      | eq => simp
      | gt => simp [Std.OrientedCmp.gt_iff_lt.1 hab]
  have hnodup : (positions.mergeSort (comesBefore es)).Nodup :=
    (List.mergeSort_perm _ _).nodup_iff.2 h
  refine (hsorted.and hnodup).imp ?_
  rintro a b ⟨hab, hne⟩
  rcases Ordering.isLE_iff_eq_lt_or_eq_eq.1 (comesBefore_iff.1 hab) with hlt | heq
  · exact hlt
  · have hsame : compare a b = .eq := (Ordering.then_eq_eq.1 heq).2
    exact absurd (Nat.compare_eq_eq.1 hsame) hne

/-- The score of a target is that of its pair with the only source. -/
theorem scoreOf_eq (hes : ∀ e ∈ es, e ∈ edges score threshold sources targets) {x y : Element}
    {a : Nat} (hsource : ∀ e ∈ es, sources[e.source]? = some x) (ha : ∃ e ∈ es, e.target = a)
    (hy : targets[a]? = some y) : scoreOf es a = score x y := by
  rw [scoreOf]
  cases hfind : es.find? fun e => e.target = a with
  | none =>
    obtain ⟨e, he, hea⟩ := ha
    exact absurd (decide_eq_true hea) (List.find?_eq_none.1 hfind e he)
  | some d =>
    have hd : d ∈ es := List.mem_of_find?_eq_some hfind
    have htarget : d.target = a := by simpa using List.find?_some hfind
    obtain ⟨x', y', hx', hy', -, hscore⟩ := mem_edges.1 (hes d hd)
    rw [hsource d hd] at hx'
    rw [htarget, hy] at hy'
    cases hx'
    cases hy'
    exact hscore

/-! ## Positions of a component -/

/-- Some edges have several targets for a single source. -/
def IsFan (es : List Edge) : Prop :=
  (positionsOf es .source).length = 1 ∧ 1 < (positionsOf es .target).length

theorem isFan_iff : IsFan es ↔ (SortedSet.ofList compare (es.map Edge.source)).length = 1 ∧
    1 < (SortedSet.ofList compare (es.map Edge.target)).length := by
  have htarget : (positionsOf es .target).length =
      (SortedSet.ofList compare (es.map Edge.target)).length := by
    simp only [positionsOf]
    split
    · exact List.length_mergeSort _
    · rfl
  rw [IsFan, htarget]
  rfl

theorem sorted_positionsOf_target (h : ¬ IsFan es) :
    SortedSet.Sorted compare (positionsOf es .target) := by
  simp only [positionsOf]
  rw [if_neg (mt isFan_iff.2 h)]
  exact SortedSet.sorted_ofList _

theorem ranked_positionsOf_target (h : IsFan es) :
    SortedSet.Sorted (rank es) (positionsOf es .target) := by
  simp only [positionsOf]
  rw [if_pos (isFan_iff.1 h)]
  exact sorted_mergeSort_comesBefore (SortedSet.nodup_ofList _)

/-- The edges of a fan start at one element. -/
theorem exists_source_of_isFan (hes : ∀ e ∈ es, e ∈ edges score threshold sources targets)
    (h : IsFan es) : ∃ i x, positionsOf es .source = [i] ∧ sources[i]? = some x ∧
      ∀ e ∈ es, sources[e.source]? = some x := by
  obtain ⟨i, hi⟩ := List.length_eq_one_iff.1 h.1
  -- every edge starts at the only position of a source
  have hsource : ∀ e ∈ es, e.source = i := by
    intro e he
    have hmem : e.source ∈ positionsOf es .source := mem_positionsOf.2 ⟨e, he, rfl⟩
    rw [hi] at hmem
    exact List.mem_singleton.1 hmem
  have hmem : i ∈ positionsOf es .source := hi ▸ List.mem_singleton_self i
  obtain ⟨e, he, -⟩ := mem_positionsOf.1 hmem
  obtain ⟨x, _, hx, -⟩ := mem_edges.1 (hes e he)
  rw [hsource e he] at hx
  refine ⟨i, x, hi, hx, ?_⟩
  intro d hd
  rw [hsource d hd]
  exact hx

/-! ## The sides of a component -/

section Component

variable (hes : ∀ e ∈ es, e ∈ edges score threshold sources targets)
  (h : componentMapping? kind sources targets es = some m)

include hes h

/-- The mapping of some edges has one identity for each position of their ends. -/
theorem length_ids_componentMapping? (side : Side) :
    (m.ids side).length = (positionsOf es side).length := by
  rw [ids_componentMapping? h, idsAt, List.filterMap_length_eq_length]
  intro i hi
  obtain ⟨e, he, rfl⟩ := mem_positionsOf.1 hi
  obtain ⟨id, hid⟩ := exists_endsAt (hes e he) side
  exact Option.isSome_iff_exists.2 ⟨id, hid⟩

/-- The mapping of some edges is one to many exactly if they are a fan. -/
theorem multiplicity_componentMapping?_iff (hne : es ≠ []) :
    m.multiplicity = .oneToMany ↔ IsFan es := by
  have hsource : m.sources.length = (positionsOf es .source).length :=
    length_ids_componentMapping? hes h .source
  have htarget : m.targets.length = (positionsOf es .target).length :=
    length_ids_componentMapping? hes h .target
  have hpos : 0 < (positionsOf es .target).length := by
    obtain ⟨e, he⟩ := List.exists_mem_of_ne_nil _ hne
    exact List.length_pos_of_mem (mem_positionsOf.2 ⟨e, he, rfl⟩)
  have hsizes := (Mapping.multiplicity_ofLists? (componentMapping?_eq es ▸ h)).2
  rw [hsizes, hsource, htarget, Multiplicity.ofSizes_eq_oneToMany_iff, IsFan]
  omega

/-- The targets of a fan are ranked by their scores against its source. -/
theorem targets_ranked_componentMapping? (hs : (sources.map Element.id).Nodup)
    (ht : targets.Pairwise fun a b => a.id < b.id) (hfan : IsFan es) :
    ∃ x, first? sources x.id = some x ∧ m.sources = [x.id] ∧
      m.targets.Pairwise fun t t' => ∃ y z, first? targets t = some y ∧
        first? targets t' = some z ∧ Outranks score x y z := by
  have hsources : m.sources = idsAt sources (positionsOf es .source) :=
    ids_componentMapping? h .source
  have htargets : m.targets = idsAt targets (positionsOf es .target) :=
    ids_componentMapping? h .target
  have ht' : (targets.map Element.id).Nodup := nodup_of_sorted ht
  obtain ⟨i, x, hi, hx, hsource⟩ := exists_source_of_isFan hes hfan
  refine ⟨x, first?_of_getElem? hs hx, ?_, ?_⟩
  · rw [hsources, hi]
    simp [idsAt, idAt?, hx]
  · rw [htargets]
    have hranked := (ranked_positionsOf_target hfan).imp_of_mem
      fun ha hb hab => And.intro ha (And.intro hb hab)
    refine pairwise_idsAt hranked ?_
    rintro a b t t' ⟨ha, hb, hab⟩ hat hbt
    obtain ⟨y, hy, rfl⟩ := Option.map_eq_some_iff.1 hat
    obtain ⟨z, hz, rfl⟩ := Option.map_eq_some_iff.1 hbt
    have hscore : scoreOf es a = score x y := scoreOf_eq hes hsource (mem_positionsOf.1 ha) hy
    have hscore' : scoreOf es b = score x z := scoreOf_eq hes hsource (mem_positionsOf.1 hb) hz
    have hrank := Ordering.then_eq_lt.1 hab
    rw [hscore, hscore'] at hrank
    refine ⟨y, z, first?_of_getElem? ht' hy, first?_of_getElem? ht' hz, hrank.imp_right ?_⟩
    rintro ⟨heq, hlt⟩
    exact ⟨heq, lt_of_idAt? ht (Nat.compare_eq_lt.1 hlt) hat hbt⟩

end Component

/-! ## Mappings in order -/

/-- The similarity of a mapping is one of its scores, and no score is greater. -/
theorem similarity_matchElements (hm : m ∈ matchElements score threshold kind sources targets) :
    HasScore score threshold sources targets m m.similarity ∧
      ∀ v, HasScore score threshold sources targets m v →
        (Decimal.compareFloat v m.similarity).isLE = true := by
  obtain ⟨scores, hne, hsimilarity, hscores⟩ := exists_scores hm
  have hpos : ∀ v ∈ scores, 0 < v := by
    intro v hv
    exact ((hscores v).1 hv).pos
  rw [hsimilarity]
  constructor
  · exact (hscores _).1 (Similarity.foldl_greater_mem hne hpos)
  · intro v hv
    exact Similarity.isLE_compareFloat_foldl_greater hpos ((hscores v).2 hv)

/-- Each mapping of some elements is that of the edges of a component. -/
theorem exists_edges_of_mem_matchElements
    (hm : m ∈ matchElements score threshold kind sources targets) :
    ∃ es, es ≠ [] ∧ (∀ e ∈ es, e ∈ edges score threshold (arrange sources) (arrange targets)) ∧
      componentMapping? kind (arrange sources) (arrange targets) es = some m := by
  obtain ⟨e, he, hem⟩ := mem_matchArranged.1 hm
  refine ⟨_, ?_, ?_, hem⟩
  · exact List.ne_nil_of_mem (List.mem_filter.2 ⟨he, decide_eq_true rfl⟩)
  · intro d hd
    exact (List.mem_filter.1 hd).1

theorem inOrder_matchElements (hm : m ∈ matchElements score threshold kind sources targets) :
    m.InOrder score threshold sources targets := by
  obtain ⟨es, hne, hes, h⟩ := exists_edges_of_mem_matchElements hm
  have hfan := multiplicity_componentMapping?_iff hes h hne
  obtain ⟨hattained, hgreatest⟩ := similarity_matchElements hm
  refine ⟨?_, ?_, ?_, hattained, hgreatest⟩
  · have hsources : m.sources = idsAt (arrange sources) (positionsOf es .source) :=
      ids_componentMapping? h .source
    rw [hsources]
    exact sorted_idsAt (sorted_arrange sources) (SortedSet.sorted_ofList _)
  · intro hmany
    have htargets : m.targets = idsAt (arrange targets) (positionsOf es .target) :=
      ids_componentMapping? h .target
    rw [htargets]
    exact sorted_idsAt (sorted_arrange targets) (sorted_positionsOf_target (mt hfan.2 hmany))
  · intro hmany
    simpa only [first?_arrange] using targets_ranked_componentMapping? hes h (nodup_arrange sources)
      (sorted_arrange targets) (hfan.1 hmany)

theorem ofKind_candidates (kind : ElementKind) :
    MappingSet.ofKind ⟨candidates score threshold old new⟩ kind =
      candidatesOf score threshold old new kind := by
  rw [MappingSet.ofKind, candidates_eq]
  exact ElementKind.filter_flatMap_all (fun _ _ hm => kind_of_mem_candidatesOf hm) kind

theorem pairwise_startsBefore_candidatesOf
    (hapart : (candidates score threshold old new).Pairwise Mapping.Apart) (kind : ElementKind) :
    (candidatesOf score threshold old new kind).Pairwise Mapping.StartsBefore := by
  have hkind : (candidatesOf score threshold old new kind).Pairwise Mapping.Apart := by
    rw [candidates_eq, List.pairwise_flatMap] at hapart
    exact hapart.1 kind kind.mem_all
  have hne : ∀ m ∈ candidatesOf score threshold old new kind, m.sources ≠ [] :=
    fun m hm => sources_ne_nil_of_mem_candidatesOf hm
  obtain ⟨ms, hms⟩ : ∃ ms, candidatesOf score threshold old new kind = sortMappings ms :=
    exists_candidatesOf_eq_sortMappings kind
  rw [hms] at hkind hne ⊢
  exact pairwise_startsBefore hkind hne

/-- A mapping set is in canonical order, whatever the scores are. -/
theorem inOrder_matchSnapshots {set : MappingSet}
    (h : matchSnapshots score threshold old new = .ok set) :
    set.InOrder score threshold old new := by
  obtain ⟨hapart, rfl⟩ := matchSnapshots_eq_ok_iff.1 h
  refine ⟨?_, ?_, ?_⟩
  · rw [funext ofKind_candidates]
    exact candidates_eq
  · intro kind
    rw [ofKind_candidates]
    exact pairwise_startsBefore_candidatesOf hapart kind
  · intro m hm
    obtain ⟨kind, hkind⟩ := mem_candidates.1 hm
    obtain ⟨sources, targets, hscope, hmem⟩ := mem_candidatesOf.1 hkind
    rw [kind_of_mem_candidatesOf hkind]
    exact ⟨sources, targets, hscope, hmem, inOrder_matchElements hmem⟩

/-- The mappings of some elements of different identities do not depend on their order. -/
theorem matchElements_eq_of_perm {sources' targets' : List Element} (hs : sources.Perm sources')
    (ht : targets.Perm targets') (hs' : (sources.map Element.id).Nodup)
    (ht' : (targets.map Element.id).Nodup) :
    matchElements score threshold kind sources targets =
      matchElements score threshold kind sources' targets' := by
  rw [matchElements, matchElements, arrange_eq_of_perm hs hs', arrange_eq_of_perm ht ht']

/-- Whatever a score says of two snapshots, the mapping set of them is in canonical order. What the
matcher makes of some elements does not depend on the order in which they are given. -/
theorem matchSnapshots_canonical (score : Scorer) (threshold : Float) (old new : Snapshot) :
    (∀ set, matchSnapshots score threshold old new = .ok set →
      set.InOrder score threshold old new) ∧
    ∀ kind sources targets sources' targets', sources.Perm sources' → targets.Perm targets' →
      (sources.map Element.id).Nodup → (targets.map Element.id).Nodup →
        matchElements score threshold kind sources targets =
          matchElements score threshold kind sources' targets' := by
  constructor
  · intro set h
    exact inOrder_matchSnapshots h
  · intro kind sources targets sources' targets' hs ht hs' ht'
    exact matchElements_eq_of_perm hs ht hs' ht'

/-! ## A function that was split -/

/-- A function. -/
def wholeFunction : Element :=
  .ofFunction { id := "lib/f", qname := "lib.f" }

/-- The first of the functions into which it was split. -/
def firstPart : Element :=
  .ofFunction { id := "lib/g", qname := "lib.g" }

/-- The second of the functions into which it was split. -/
def secondPart : Element :=
  .ofFunction { id := "lib/h", qname := "lib.h" }

/-- A score that is greater for the second part than for the first. -/
def preferSecond : Scorer := fun _ y =>
  if y.id = secondPart.id then 1 else 0.5

/-- The mapping of the function to its parts, the one with the greater score first. -/
def splitMapping : Mapping :=
  ⟨.functionKind, .oneToMany wholeFunction.id [secondPart.id, firstPart.id], 1⟩

theorem componentMapping?_split :
    componentMapping? .functionKind [wholeFunction] [firstPart, secondPart]
      [⟨0, 0, 0.5⟩, ⟨0, 1, 1⟩] = some splitMapping := by
  have hlater : comesBefore [⟨0, 0, 0.5⟩, ⟨0, 1, 1⟩] 0 1 = false := by decide +kernel
  have hsort : positionsOf [⟨0, 0, 0.5⟩, ⟨0, 1, 1⟩] .target = [1, 0] := by
    have htwo : [0, 1].mergeSort (comesBefore [⟨0, 0, 0.5⟩, ⟨0, 1, 1⟩]) = [1, 0] := by
      simp [List.mergeSort, hlater, List.MergeSort.Internal.splitInTwo]
    exact htwo
  rw [componentMapping?_eq, hsort]
  rfl

theorem splitMapping_mem_matchElements : splitMapping ∈
    matchElements preferSecond 0.5 .functionKind [wholeFunction] [secondPart, firstPart] := by
  have hs : arrange [wholeFunction] = [wholeFunction] := by cbv
  have ht : arrange [secondPart, firstPart] = [firstPart, secondPart] := by
    have hne : firstPart.id ≠ secondPart.id := by decide
    have hnot : ¬ secondPart.id ≤ firstPart.id := by decide
    simp [arrange, List.mergeSort, List.MergeSort.Internal.splitInTwo, dropRepeated, hne, hnot]
  have hedges : edges preferSecond 0.5 [wholeFunction] [firstPart, secondPart] =
      [⟨0, 0, 0.5⟩, ⟨0, 1, 1⟩] := by
    rfl
  have hroot : ∀ a b, (components 1 2 [⟨0, 0, a⟩, ⟨0, 1, b⟩]).root 0 = 0 := by
    intro a b
    rw [Forest.root]
    rfl
  rw [matchElements, hs, ht]
  refine mem_matchArranged.2 ⟨⟨0, 0, 0.5⟩, ?_, ?_⟩
  · simp [hedges]
  · rw [mappingAt?, ← componentMapping?_split, hedges]
    congr 1
    simp [componentOf, hedges, hroot]

/-- The part with the greater score comes first, though its identity is the greater one. -/
theorem matchSnapshots_canonical_split :
    ∃ old new set, matchSnapshots preferSecond 0.5 old new = .ok set ∧
      splitMapping ∈ set.mappings ∧ set.InOrder preferSecond 0.5 old new ∧
      matchElements preferSecond 0.5 .functionKind [wholeFunction] [secondPart, firstPart] =
        matchElements preferSecond 0.5 .functionKind [wholeFunction] [firstPart, secondPart] := by
  set old : Snapshot := [wholeFunction].foldl Snapshot.add {}
  set new : Snapshot := [secondPart, firstPart].foldl Snapshot.add {}
  have hold : old.Coherent ∧ old.Unshared := by
    constructor <;> decide +kernel
  have hnew : new.Coherent ∧ new.Unshared := by
    constructor <;> decide +kernel
  obtain ⟨set, hset⟩ := exists_matchSnapshots hold.1 hnew.1 hold.2 hnew.2 preferSecond 0.5
  obtain ⟨hcanonical, hperm⟩ := matchSnapshots_canonical preferSecond 0.5 old new
  refine ⟨old, new, set, hset, ?_, hcanonical set hset, ?_⟩
  · obtain ⟨-, rfl⟩ := matchSnapshots_eq_ok_iff.1 hset
    refine mem_candidates.2 ⟨.functionKind, ?_⟩
    rw [candidatesOf_of_container?_eq_none rfl]
    exact splitMapping_mem_matchElements
  · exact hperm .functionKind _ _ _ _ (List.Perm.refl _) (List.Perm.swap _ _ _) (by decide +kernel)
      (by decide +kernel)

end Matcher

end ApiEvolution
