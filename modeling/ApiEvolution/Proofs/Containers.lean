import ApiEvolution.Proofs.Stages

/-!
# Containers agree throughout a strict mapping

The strict stage looks at the containers of one pair of elements at a time, while a mapping is made
of all pairs along a path. No identity is on one side of two mappings of the set before, so
containers that agree along a path agree from one end to the other
(`difunctional_containersMatch`). Hence they agree for every source and every target of a mapping,
whether the two were a pair or not (`containersMatch_of_runStage_strict`).
-/

namespace ApiEvolution

variable {old new : Snapshot} {p : MappingSet}

/-! ## Matching containers -/

/-- Two identities have no containers, or containers that a mapping set maps to each other. -/
inductive ContainersMatch (p : MappingSet) (old new : Snapshot) (s t : String) : Prop
  | outermost : old.parentOf? s = none → new.parentOf? t = none → ContainersMatch p old new s t
  | inside {c d : String} : old.parentOf? s = some c → new.parentOf? t = some d →
    p.maps c d = true → ContainersMatch p old new s t

/-- Mappings that share an identity are one mapping. -/
theorem MappingSet.difunctional_maps (h : p.Partitioned) :
    Difunctional fun c d => p.maps c d = true := by
  intro c d c' d' hcd hcd' hcd''
  obtain ⟨m, hm, hc, hd⟩ := maps_iff.1 hcd
  obtain ⟨n, hn, hc', hdn⟩ := maps_iff.1 hcd'
  obtain ⟨k, hk, hck, hd'⟩ := maps_iff.1 hcd''
  have hmn : m = n := eq_of_mem_targets h hm hn hd hdn
  have hnk : n = k := eq_of_mem_sources h hn hk hc' hck
  subst hmn hnk
  exact maps_iff.2 ⟨m, hm, hc, hd'⟩

/-- Containers that match along a path match from end to end. -/
theorem difunctional_containersMatch (h : p.Partitioned) :
    Difunctional (ContainersMatch p old new) := by
  intro s t s' t' hst hst' hst''
  cases hst with
  | outermost hs ht =>
    cases hst' with
    | outermost hs' _ =>
      cases hst'' with
      | outermost _ ht' => exact .outermost hs ht'
      | inside hs'' _ _ => simp [hs'] at hs''
    | inside _ ht' _ => simp [ht] at ht'
  | @inside c d hs ht hcd =>
    cases hst' with
    | outermost _ ht' => simp [ht] at ht'
    | @inside c' d₁ hs' ht₁ hcd' =>
      cases hst'' with
      | outermost hs'' _ => simp [hs'] at hs''
      | @inside c₁ d' hs₁ ht' hcd'' =>
        have hd : d = d₁ := by simpa [ht] using ht₁
        have hc : c' = c₁ := by simpa [hs'] using hs₁
        subst hd hc
        exact .inside hs ht' (MappingSet.difunctional_maps h _ _ _ _ hcd hcd' hcd'')

theorem containersAgree_iff {x y : Element} :
    (⟨old, new, some p⟩ : Comparison).containersAgree x y = true ↔
      ContainersMatch p old new x.id y.id := by
  simp only [Comparison.containersAgree]
  constructor
  · intro h
    split at h
    · next hs ht => exact .outermost hs ht
    · next c d hs ht => exact .inside hs ht h
    · cases h
  · intro h
    cases h with
    | outermost hs ht => simp [hs, ht]
    | inside hs ht hcd => simp [hs, ht, hcd]

/-! ## The strict stage -/

namespace Comparison

variable {c : Comparison} {threshold : Float} {x y : Element}

/-- What the strict stage keeps has containers that agree, and the naive stage keeps it too. -/
theorem keeps_strict_iff :
    Matcher.keeps threshold (c.strict x y) = true ↔
      c.containersAgree x y = true ∧ Matcher.keeps threshold (c.naive x y) = true := by
  rw [strict]
  split
  · next hagree => simp [hagree]
  · next hagree => simp [hagree, Matcher.keeps_zero]

end Comparison

/-- Every source and every target of a mapping of the strict stage have no containers, or containers
that the mapping set before maps to each other. -/
theorem containersMatch_of_runStage_strict {settings : Settings} {set : MappingSet} (hp : p.Built)
    (h : runStage .strict old new (some p) settings = .ok set) :
    ∀ m ∈ set.mappings, ∀ s ∈ m.sources, ∀ t ∈ m.targets, ContainersMatch p old new s t := by
  intro m hm s hs t ht
  obtain ⟨-, hmatch, -⟩ := runStage_eq_ok_iff.1 h
  obtain ⟨-, rfl⟩ := Matcher.matchSnapshots_eq_ok_iff.1 hmatch
  refine Matcher.rel_of_mem_candidates (difunctional_containersMatch hp.partitioned) ?_ hm hs ht
  intro x y hkeep
  obtain ⟨hagree, -⟩ := Comparison.keeps_strict_iff.1 hkeep
  exact containersAgree_iff.1 hagree

/-- A method of a class before the class got another name. -/
def methodBefore : Element :=
  .ofFunction { id := "lib/A/fits", qname := "lib.A.fits" }

/-- A method of the class under its new name. -/
def methodAfter : Element :=
  .ofFunction { id := "lib/C/fit", qname := "lib.C.fit" }

/-- Two classes, one with two methods of similar names and the other with one method. -/
def beforeMove : Snapshot :=
  [Element.ofClass { id := "lib/A", qname := "lib.A", methods := ["lib/A/fit", "lib/A/fits"] },
    .ofClass { id := "lib/B", qname := "lib.B", methods := ["lib/B/fit"] },
    .ofFunction { id := "lib/A/fit", qname := "lib.A.fit" }, methodBefore,
    .ofFunction { id := "lib/B/fit", qname := "lib.B.fit" }].foldl Snapshot.add {}

/-- Two classes of other names, each with one method. -/
def afterMove : Snapshot :=
  [Element.ofClass { id := "lib/C", qname := "lib.C", methods := ["lib/C/fit"] },
    .ofClass { id := "lib/D", qname := "lib.D", methods := ["lib/D/fit"] }, methodAfter,
    .ofFunction { id := "lib/D/fit", qname := "lib.D.fit" }].foldl Snapshot.add {}

/-- One of the classes before is one of the classes after. -/
def oneMove : MappingSet :=
  ⟨[⟨.classKind, .oneToOne "lib/A" "lib/C", 1⟩]⟩

/-- All methods have similar names, but only those of the classes that are mapped to each other get
into one mapping. -/
theorem containersMatch_of_runStage_strict_methods :
    ∃ set, runStage .strict beforeMove afterMove (some oneMove) {} = .ok set ∧
      (∃ m ∈ set.mappings, methodBefore.id ∈ m.sources ∧ methodAfter.id ∈ m.targets) ∧
      ∀ m ∈ set.mappings, ∀ s ∈ m.sources, ∀ t ∈ m.targets,
        ContainersMatch oneMove beforeMove afterMove s t := by
  have hprevious : ∀ p, some oneMove = some p → p.validate beforeMove afterMove = .ok () := by
    rintro p ⟨⟩
    exact eq_ok_of_toOption_eq_some (by decide +kernel)
  obtain ⟨set, hset⟩ := exists_runStage (by decide +kernel) (by decide +kernel) (by decide +kernel)
    (by decide +kernel) hprevious .strict {}
  obtain ⟨-, hmatch, -⟩ := runStage_eq_ok_iff.1 hset
  obtain ⟨-, hcandidates⟩ := Matcher.matchSnapshots_eq_ok_iff.1 hmatch
  refine ⟨set, hset, ?_, containersMatch_of_runStage_strict (by decide +kernel) hset⟩
  rw [hcandidates]
  exact Matcher.exists_mem_candidates_of_keeps
    (.whole (rfl : ElementKind.functionKind.container? = none)) rfl rfl (by decide +kernel)

end ApiEvolution
