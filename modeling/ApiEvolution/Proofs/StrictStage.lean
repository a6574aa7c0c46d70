import ApiEvolution.Proofs.Indices
import ApiEvolution.Proofs.Refinement

/-!
# The strict stage settles at once

The strict stage asks the mapping set before whether containers agree. After the naive stage a
second run of it finds what the first one has found (`runStage_strict_again`), since the answer is
the same for every pair that is compared:

* A class has no container, so that its mappings are those of the naive stage
  (`candidatesOf_class`).
* The container of a function is a class, and the classes are mapped alike
  (`containersMatch_function`).
* Anything else is compared within a mapping of its containers, which lies within a mapping of the
  naive stage (`containersMatch_within`).

So the containers agree with the result of the strict stage itself, too
(`containersMatch_of_mem_strict`).
-/

namespace ApiEvolution

variable {old new : Snapshot} {p p' : MappingSet} {threshold : Float} {kind : ElementKind}
  {x y : Element}

/-! ## Agreement with two mapping sets -/

theorem ContainersMatch.congr {s t : String}
    (h : ∀ c d, old.parentOf? s = some c → new.parentOf? t = some d →
      (p.maps c d = true ↔ p'.maps c d = true)) :
    ContainersMatch p old new s t ↔ ContainersMatch p' old new s t := by
  constructor
  · intro hmatch
    cases hmatch with
    | outermost hs ht => exact .outermost hs ht
    | inside hs ht hcd => exact .inside hs ht ((h _ _ hs ht).1 hcd)
  · intro hmatch
    cases hmatch with
    | outermost hs ht => exact .outermost hs ht
    | inside hs ht hcd => exact .inside hs ht ((h _ _ hs ht).2 hcd)

theorem Comparison.strict_congr
    (h : ContainersMatch p old new x.id y.id ↔ ContainersMatch p' old new x.id y.id) :
    (⟨old, new, some p⟩ : Comparison).strict x y =
      (⟨old, new, some p'⟩ : Comparison).strict x y := by
  have hagree : (⟨old, new, some p⟩ : Comparison).containersAgree x y =
      (⟨old, new, some p'⟩ : Comparison).containersAgree x y := by
    rw [Bool.eq_iff_iff, containersAgree_iff, containersAgree_iff]
    exact h
  rw [strict, strict, hagree]
  rfl

theorem Comparison.keeps_naive_of_keeps_strict
    (h : Matcher.keeps threshold ((⟨old, new, some p⟩ : Comparison).strict x y) = true) :
    Matcher.keeps threshold ((⟨old, new, none⟩ : Comparison).naive x y) = true := by
  have hsame : (⟨old, new, some p⟩ : Comparison).naive =
    (⟨old, new, none⟩ : Comparison).naive := rfl
  rw [← hsame]
  exact (keeps_strict_iff.1 h).2

theorem containersMatch_class (hold : old.Indexed) (hnew : new.Indexed)
    (hx : x ∈ old.elements .classKind) (hy : y ∈ new.elements .classKind) :
    ContainersMatch p old new x.id y.id :=
  .outermost (Snapshot.parentOf?_class hold hx) (Snapshot.parentOf?_class hnew hy)

/-! ## After the naive stage -/

variable (old new threshold) in
/-- What the naive stage finds. -/
def naiveSet : MappingSet :=
  ⟨Matcher.candidates (⟨old, new, none⟩ : Comparison).naive threshold old new⟩

variable (old new threshold p) in
/-- What the strict stage finds after a mapping set. -/
def strictSet : MappingSet :=
  ⟨Matcher.candidates (⟨old, new, some p⟩ : Comparison).strict threshold old new⟩

open Matcher

/-- Classes are mapped as the naive stage maps them. -/
theorem candidatesOf_class (hold : old.Indexed) (hnew : new.Indexed) :
    candidatesOf (⟨old, new, some p⟩ : Comparison).strict threshold old new .classKind =
      candidatesOf (⟨old, new, none⟩ : Comparison).naive threshold old new .classKind := by
  rw [candidatesOf_of_container?_eq_none rfl, candidatesOf_of_container?_eq_none rfl]
  refine matchElements_congr ?_
  intro x hx y hy
  exact if_pos (containersAgree_iff.2 (containersMatch_class hold hnew hx hy))

/-- Identities are mapped by candidates of the kind with which they are declared. -/
theorem maps_candidates_iff {score : Scorer} (hold : old.Coherent) (hnew : new.Coherent)
    {c d : String} (hc : old.declares kind c = true) :
    (⟨candidates score threshold old new⟩ : MappingSet).maps c d = true ↔
      ∃ m ∈ candidatesOf score threshold old new kind, c ∈ m.sources ∧ d ∈ m.targets := by
  rw [MappingSet.maps_iff]
  constructor
  · rintro ⟨m, hm, hcm, hdm⟩
    obtain ⟨kind', hkind'⟩ := mem_candidates.1 hm
    have hside : c ∈ m.ids .source := hcm
    have hdeclared : old.declares kind' c = true :=
      declares_of_mem_candidatesOf hold hnew hkind' hside
    obtain rfl := Snapshot.kind_eq_of_declares hc hdeclared
    exact ⟨m, hkind', hcm, hdm⟩
  · rintro ⟨m, hm, hcm, hdm⟩
    exact ⟨m, mem_candidates.2 ⟨kind, hm⟩, hcm, hdm⟩

/-- Classes and functions that a score keeps are mapped to each other. -/
theorem maps_candidates_of_keeps {score : Scorer} (hold : old.Coherent) (hnew : new.Coherent)
    (hkind : kind.container? = none) (hx : x ∈ old.elements kind) (hy : y ∈ new.elements kind)
    (hkeep : keeps threshold (score x y) = true) :
    (⟨candidates score threshold old new⟩ : MappingSet).maps x.id y.id = true :=
  MappingSet.maps_iff.2 (exists_mem_candidates_of_keeps (.whole hkind)
    ((first?_eq_some_iff (Snapshot.nodup_ids_elements hold.distinct kind)).2 ⟨hx, rfl⟩)
    ((first?_eq_some_iff (Snapshot.nodup_ids_elements hnew.distinct kind)).2 ⟨hy, rfl⟩) hkeep)

/-- A new class or function that something is mapped to is kept with an old one. -/
theorem exists_keeps_of_maps_candidates {score : Scorer} (hold : old.Coherent)
    (hnew : new.Coherent) (hkind : kind.container? = none) {s t : String}
    (hs : old.declares kind s = true)
    (h : (⟨candidates score threshold old new⟩ : MappingSet).maps s t = true) :
    ∃ x ∈ old.elements kind, ∃ y ∈ new.elements kind, y.id = t ∧
      keeps threshold (score x y) = true := by
  obtain ⟨m, hm, -, ht⟩ := (maps_candidates_iff hold hnew hs).1 h
  rw [candidatesOf_of_container?_eq_none hkind] at hm
  have hhas : m.Has (.target, t) := ht
  have hpath := together_matchElements.1 ⟨m, hm, hhas, hhas⟩
  obtain ⟨_, hkept⟩ := joined_target_iff.1 (connected_self_iff.1 hpath)
  obtain ⟨x, y, hx, hy, hkeep⟩ := kept_iff.1 hkept
  exact ⟨x, mem_of_first? hx, y, mem_of_first? hy, id_of_first? hy, hkeep⟩

/-- The naive stage and the strict stage map the same classes to each other. -/
theorem maps_naiveSet_iff_strictSet (hold : old.Indexed) (hnew : new.Indexed) {c d : String}
    (hc : old.declares .classKind c = true) :
    (naiveSet old new threshold).maps c d = true ↔
      (strictSet old new p threshold).maps c d = true := by
  rw [naiveSet, strictSet, maps_candidates_iff hold.toCoherent hnew.toCoherent hc,
    maps_candidates_iff hold.toCoherent hnew.toCoherent hc, candidatesOf_class hold hnew]

/-- The containers of functions agree with the naive stage as they do with the strict stage. -/
theorem containersMatch_function (hold : old.Indexed) (hnew : new.Indexed)
    (hx : x ∈ old.elements .functionKind) :
    ContainersMatch (naiveSet old new threshold) old new x.id y.id ↔
      ContainersMatch (strictSet old new p threshold) old new x.id y.id := by
  refine ContainersMatch.congr ?_
  intro c d hc _
  have hchild := Snapshot.mem_children_of_parentOf? hold hx hc
  exact maps_naiveSet_iff_strictSet hold hnew
    (Snapshot.declares_class_of_mem_children hold.toCoherent (.inl rfl) hchild)

/-- The containers inside which two elements are compared agree with every set that has a mapping
around them. -/
theorem containersMatch_within (hold : old.Indexed) (hnew : new.Indexed) (hold' : old.Unshared)
    (hnew' : new.Unshared) (hkind : kind.container?.isSome) {m m' : Mapping}
    (hx : x ∈ listed old kind m.sources) (hy : y ∈ listed new kind m.targets)
    (hm' : m' ∈ p.mappings) (hmm' : m.Within m') : ContainersMatch p old new x.id y.id := by
  obtain ⟨a, ha, hxa⟩ := exists_container_of_mem_listed hx
  obtain ⟨b, hb, hyb⟩ := exists_container_of_mem_listed hy
  have hparent := Snapshot.parentOf?_of_mem_children hold
    (fun a' hxa' => hold' kind a' a x.id hkind hxa' hxa) hxa
  have hparent' := Snapshot.parentOf?_of_mem_children hnew
    (fun b' hyb' => hnew' kind b' b y.id hkind hyb' hyb) hyb
  exact .inside hparent hparent'
    (MappingSet.maps_iff.2 ⟨m', hm', hmm'.sources ha, hmm'.targets hb⟩)

/-- On every pair that the strict stage compares after the naive stage, the containers agree with
the result of the naive stage exactly if they agree with that of the strict stage. -/
theorem containersMatch_of_scope (hold : old.Indexed) (hnew : new.Indexed) (hold' : old.Unshared)
    (hnew' : new.Unshared) {sources targets : List Element}
    (hscope : Scope (⟨old, new, some (naiveSet old new threshold)⟩ : Comparison).strict threshold
      old new kind sources targets) (hx : x ∈ sources) (hy : y ∈ targets) :
    ContainersMatch (naiveSet old new threshold) old new x.id y.id ↔
      ContainersMatch (strictSet old new (naiveSet old new threshold) threshold) old new
        x.id y.id := by
  cases hscope with
  | whole hkind =>
    cases kind with
    | classKind =>
      exact iff_of_true (containersMatch_class hold hnew hx hy)
        (containersMatch_class hold hnew hx hy)
    | functionKind => exact containersMatch_function hold hnew hx
    | parameterKind | attributeKind | resultKind => cases hkind
  | @within containers m hkind hm =>
    have hsome : kind.container?.isSome := by simp [hkind]
    -- the containers are those of a mapping of the strict stage, which is within a naive one
    obtain ⟨m', hm', hmm'⟩ :=
      exists_within_candidatesOf (fun _ _ _ _ _ => Comparison.keeps_naive_of_keeps_strict) hm
    have hnaive : m' ∈ (naiveSet old new threshold).mappings := mem_candidates.2 ⟨_, hm'⟩
    have hstrict : m ∈ (strictSet old new (naiveSet old new threshold) threshold).mappings :=
      mem_candidates.2 ⟨_, hm⟩
    exact iff_of_true
      (containersMatch_within hold hnew hold' hnew' hsome hx hy hnaive hmm')
      (containersMatch_within hold hnew hold' hnew' hsome hx hy hstrict
        ⟨rfl, List.Subset.refl _, List.Subset.refl _⟩)

/-- The strict stage finds the same after its own result as after that of the naive stage. -/
theorem strictSet_strictSet (hold : old.Indexed) (hnew : new.Indexed) (hold' : old.Unshared)
    (hnew' : new.Unshared) :
    strictSet old new (strictSet old new (naiveSet old new threshold) threshold) threshold =
      strictSet old new (naiveSet old new threshold) threshold := by
  refine congrArg MappingSet.mk (candidates_congr ?_).symm
  intro kind sources targets hscope x hx y hy
  exact Comparison.strict_congr (containersMatch_of_scope hold hnew hold' hnew' hscope hx hy)

/-! ## The stages of a run -/

open Similarity

variable {settings : Settings} {naive strict : MappingSet}

theorem eq_naiveSet (h : runStage .naive old new none settings = .ok naive) :
    naive = naiveSet old new (clampUnit settings.threshold) :=
  (candidates_of_runStage h).2

theorem eq_strictSet (h : runStage .strict old new (some p) settings = .ok strict) :
    strict = strictSet old new p (clampUnit settings.threshold) :=
  (candidates_of_runStage h).2

/-- In a mapping of the strict stage after the naive one, the containers of a source and a target
agree with the result of the strict stage. -/
theorem containersMatch_of_mem_strict (hold : old.Indexed) (hnew : new.Indexed)
    (hold' : old.Unshared) (hnew' : new.Unshared)
    (hnaive : runStage .naive old new none settings = .ok naive)
    (hstrict : runStage .strict old new (some naive) settings = .ok strict) {m : Mapping}
    (hm : m ∈ strict.mappings) {s t : String} (hs : s ∈ m.sources) (ht : t ∈ m.targets) :
    ContainersMatch strict old new s t := by
  have hpart : strict.Partitioned := (candidates_of_runStage hstrict).1
  have heq := eq_strictSet hstrict
  rw [eq_naiveSet hnaive] at heq
  have hagain : m ∈ candidates (⟨old, new, some strict⟩ : Comparison).strict
      (clampUnit settings.threshold) old new := by
    rw [heq, ← strictSet_strictSet hold hnew hold' hnew', ← heq] at hm
    exact hm
  refine rel_of_mem_candidates (difunctional_containersMatch hpart) ?_ hagain hs ht
  intro x y hkeep
  exact containersAgree_iff.1 (Comparison.keeps_strict_iff.1 hkeep).1

/-- Between accepted documents in which nothing is listed by two containers, the naive stage
succeeds and the strict stage after it; and the strict stage once more, on its own result, which it
leaves as it is. -/
theorem runStage_strict_again {oldText newText : String} {old new : Snapshot}
    (hold : Snapshot.read oldText = .ok old) (hnew : Snapshot.read newText = .ok new)
    (hold' : old.Unshared) (hnew' : new.Unshared) (settings : Settings) :
    ∃ naive strict, runStage .naive old new none settings = .ok naive ∧
      runStage .strict old new (some naive) settings = .ok strict ∧
      runStage .strict old new (some strict) settings = .ok strict := by
  have hi := Snapshot.indexed_of_read hold
  have hi' := Snapshot.indexed_of_read hnew
  have hsucceeds : ∀ stage previous, (∀ q, previous = some q → q.validate old new = .ok ()) →
      ∃ set, runStage stage old new previous settings = .ok set := fun stage previous hprevious =>
    exists_runStage hi.toCoherent hi'.toCoherent hold' hnew' hprevious stage settings
  obtain ⟨naive, hnaive⟩ := hsucceeds .naive none (by simp)
  obtain ⟨-, -, hnaiveValid⟩ := runStage_eq_ok_iff.1 hnaive
  obtain ⟨strict, hstrict⟩ := hsucceeds .strict (some naive) (by simpa using hnaiveValid)
  obtain ⟨-, -, hstrictValid⟩ := runStage_eq_ok_iff.1 hstrict
  obtain ⟨again, hagain⟩ := hsucceeds .strict (some strict) (by simpa using hstrictValid)
  have heq : again = strict := by
    rw [eq_strictSet hagain, eq_strictSet hstrict, eq_naiveSet hnaive]
    exact strictSet_strictSet hi hi' hold' hnew'
  exact ⟨naive, strict, hnaive, hstrict, heq ▸ hagain⟩

/-- A class that loses its attribute keeps its mapping. -/
theorem runStage_strict_again_class :
    ∃ old new naive strict, Snapshot.read classWithAttribute.compact = .ok old ∧
      Snapshot.read classAndFunction.compact = .ok new ∧
      runStage .naive old new none {} = .ok naive ∧
      runStage .strict old new (some naive) {} = .ok strict ∧
      runStage .strict old new (some strict) {} = .ok strict := by
  obtain ⟨old, hold, hold'⟩ := Snapshot.exists_of_readsUnshared readsUnshared_classWithAttribute
  obtain ⟨new, hnew, hnew'⟩ := Snapshot.exists_of_readsUnshared readsUnshared_classAndFunction
  obtain ⟨naive, strict, h⟩ := runStage_strict_again hold hnew hold' hnew' {}
  exact ⟨old, new, naive, strict, hold, hnew, h⟩

end ApiEvolution
