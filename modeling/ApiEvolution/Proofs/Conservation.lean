import ApiEvolution.Proofs.Migration
import ApiEvolution.Proofs.Stages

/-!
# Migrations lose nothing silently

An annotation can only be lost on the way to its heir if another one is carried to the same
element and evicts it. Since annotations of one element do not conflict and no element is the heir
on two mappings, both come from different elements that were merged into one
(`merges_of_conflicts`). Without such a merger the annotations before a migration are those that are
carried over, those that are dropped and those that leave notes only (`size_add_dropped`).

The mapping of a run can always be migrated along (`exists_migrate_of_runPipeline`).
-/

namespace ApiEvolution

/-- Two old identities are different sources of one mapping of several elements to one. -/
def MappingSet.Merges (s : MappingSet) (id id' : String) : Prop :=
  id ≠ id' ∧ ∃ m ∈ s.mappings, m.multiplicity = .manyToOne ∧ id ∈ m.sources ∧ id' ∈ m.sources

instance (s : MappingSet) (id id' : String) : Decidable (s.Merges id id') :=
  inferInstanceAs (Decidable (_ ∧ ∃ m ∈ s.mappings, _))

variable {set : MappingSet} {new : Snapshot} {author : String} {a a' b b' : Annotation}

/-! ## Conflicts -/

theorem Mapping.eq_of_mem_sources {m : Mapping} {id id' : String}
    (hone : m.multiplicity ≠ .manyToOne) (hmany : m.multiplicity ≠ .manyToMany)
    (hid : id ∈ m.sources) (hid' : id' ∈ m.sources) : id = id' := by
  obtain ⟨kind, sides, similarity⟩ := m
  cases sides with
  | oneToOne s t => rw [List.mem_singleton.1 hid, List.mem_singleton.1 hid']
  | oneToMany s ts => rw [List.mem_singleton.1 hid, List.mem_singleton.1 hid']
  | manyToOne ss t => exact absurd rfl hone
  | manyToMany ss ts => exact absurd rfl hmany

/-- Two identities have one heir only if they were merged into it. -/
theorem merges_of_inherits (hset : set.Partitioned) {id id' heir : String} (hne : id ≠ id')
    (h : set.Inherits id heir) (h' : set.Inherits id' heir) : set.Merges id id' := by
  obtain ⟨m, hm, hid, hmany, hhead⟩ := h
  obtain ⟨m', hm', hid', -, hhead'⟩ := h'
  have hmm' : m = m' :=
    MappingSet.eq_of_mem_targets hset hm hm' (List.mem_of_head? hhead) (List.mem_of_head? hhead')
  subst hmm'
  by_cases hone : m.multiplicity = .manyToOne
  · exact ⟨hne, m, hm, hone, hid, hid'⟩
  · exact absurd (Mapping.eq_of_mem_sources hone hmany hid hid') hne

/-- What is carried over from annotations without conflict conflicts only if their targets were
merged. -/
theorem merges_of_conflicts (hset : set.Partitioned) (hfree : a.conflicts a' = false)
    (h : CarriedOver set new author a b) (h' : CarriedOver set new author a' b')
    (hconflict : b.conflicts b' = true) : set.Merges a.target a'.target := by
  obtain ⟨htarget, hkinds⟩ := Annotation.conflicts_iff.1 hconflict
  refine merges_of_inherits hset ?_ h.inherits (htarget ▸ h'.inherits)
  intro heq
  rw [h.kind, h'.kind] at hkinds
  have hconflict' : a.conflicts a' = true := Annotation.conflicts_iff.2 ⟨heq, hkinds⟩
  rw [hconflict'] at hfree
  cases hfree

/-! ## The balance of a migration -/

/-- Every annotation is carried over, dropped, or on a mapping of several elements to several. -/
theorem length_carried_add_lost_add_scattered (hsides : ∀ m ∈ set.mappings, m.targets ≠ [])
    (annotations : List Annotation) :
    (annotations.filterMap (carried? set new author)).length +
      annotations.countP (isLost set new author) + annotations.countP (isScattered set) =
        annotations.length := by
  induction annotations with
  | nil => rfl
  | cons a rest ih =>
    have ha : (carried? set new author a).isSome.toNat + (isLost set new author a).toNat +
        (isScattered set a).toNat = 1 := carried_lost_scattered hsides
    have hlost : (if isLost set new author a = true then 1 else 0) =
        (isLost set new author a).toNat := by
      cases isLost set new author a <;> rfl
    have hscattered : (if isScattered set a = true then 1 else 0) = (isScattered set a).toNat := by
      cases isScattered set a <;> rfl
    rw [List.filterMap_cons, List.countP_cons, List.countP_cons, List.length_cons, hlost,
      hscattered]
    cases hcarried : carried? set new author a with
    | none =>
      rw [hcarried, Option.isSome_none, Bool.toNat_false] at ha
      simp only
      omega
    | some b =>
      rw [hcarried, Option.isSome_some, Bool.toNat_true] at ha
      simp only [List.length_cons]
      omega

/-- What a migration of a ledger leaves of its annotations. -/
structure MigrationResult.Conserves (r : MigrationResult) (previous : Ledger) (set : MappingSet)
    (new : Snapshot) (author : String) : Prop where
  /-- Carried annotations conflict only if their targets were merged. -/
  conflict : ∀ a ∈ previous.entries, ∀ a' ∈ previous.entries, a ≠ a' → ∀ b b',
    CarriedOver set new author a b → CarriedOver set new author a' b' → b.conflicts b' = true →
      set.Merges a.target a'.target
  /-- A carried annotation that is missing has lost against one from a merged target. -/
  missing : ∀ a ∈ previous.entries, ∀ b, CarriedOver set new author a b →
    b ∉ r.confident.entries → ∃ a' ∈ previous.entries, ∃ b', CarriedOver set new author a' b' ∧
      b'.conflicts b = true ∧ set.Merges a.target a'.target
  /-- Without mergers all annotations are accounted for. -/
  balance : (∀ a ∈ previous.entries, ∀ a' ∈ previous.entries, ¬ set.Merges a.target a'.target) →
    r.confident.size + r.dropped +
      (previous.entries.countP fun a => set.Scatters a.target) = previous.size

/-- Without mergers nothing that is carried over is evicted. -/
theorem survivors_carried {annotations : List Annotation} (hset : set.Partitioned)
    (hvalid : set.validateTargets new = .ok ())
    (hmerge : ∀ a ∈ (Ledger.ofList annotations).entries,
      ∀ a' ∈ (Ledger.ofList annotations).entries, ¬ set.Merges a.target a'.target) :
    Ledger.survivors ((Ledger.ofList annotations).entries.filterMap (carried? set new author)) =
      (Ledger.ofList annotations).entries.filterMap (carried? set new author) := by
  refine Ledger.survivors_eq_self ?_
  rw [List.pairwise_filterMap]
  refine (Ledger.nodup_entries annotations).imp_of_mem ?_
  intro a a' ha ha' hne b hb b' hb'
  have hcarried := (carried?_eq_some_iff hset hvalid).1 hb
  have hcarried' := (carried?_eq_some_iff hset hvalid).1 hb'
  have hfree := Ledger.conflicts_eq_false_of_mem ha' ha hne.symm
  rw [← Bool.not_eq_true]
  intro hconflict
  exact hmerge a' ha' a ha (merges_of_conflicts hset hfree hcarried' hcarried hconflict)

/-- What is carried over and does not survive has lost against what is carried over from a merged
target. -/
theorem exists_merged_of_not_mem_survivors {annotations : List Annotation} (hset : set.Partitioned)
    (hvalid : set.validateTargets new = .ok ()) (ha : a ∈ (Ledger.ofList annotations).entries)
    (hcarried : CarriedOver set new author a b)
    (hmissing : b ∉ Ledger.survivors
      ((Ledger.ofList annotations).entries.filterMap (carried? set new author))) :
    ∃ a' ∈ (Ledger.ofList annotations).entries, ∃ b', CarriedOver set new author a' b' ∧
      b'.conflicts b = true ∧ set.Merges a.target a'.target := by
  have hsome := (carried?_eq_some_iff hset hvalid).2 hcarried
  have hmem : b ∈ (Ledger.ofList annotations).entries.filterMap (carried? set new author) :=
    List.mem_filterMap.2 ⟨a, ha, hsome⟩
  obtain ⟨b', hb', hne, hconflict⟩ := (Ledger.mem_survivors_or_exists hmem).resolve_left hmissing
  obtain ⟨a', ha', hsome'⟩ := List.mem_filterMap.1 hb'
  have hcarried' := (carried?_eq_some_iff hset hvalid).1 hsome'
  -- `b'` is not `b`, so that it comes from another annotation
  have haa' : a ≠ a' := by
    rintro rfl
    rw [hsome] at hsome'
    exact hne (Option.some_inj.1 hsome').symm
  have hfree := Ledger.conflicts_eq_false_of_mem ha ha' haa'
  have hconflict' : b.conflicts b' = true := (b.conflicts_comm b').trans hconflict
  exact ⟨a', ha', b', hcarried', hconflict, merges_of_conflicts hset hfree hcarried hcarried'
    hconflict'⟩

/-- Without mergers the annotations of a ledger are those of the result, those that are dropped and
those that leave notes only. -/
theorem size_add_dropped {annotations : List Annotation} {r : MigrationResult}
    (hset : set.Partitioned) (hsides : ∀ m ∈ set.mappings, m.targets ≠ [])
    (h : migrate (.ofList annotations) set new author = .ok r)
    (hmerge : ∀ a ∈ (Ledger.ofList annotations).entries,
      ∀ a' ∈ (Ledger.ofList annotations).entries, ¬ set.Merges a.target a'.target) :
    r.confident.size + r.dropped +
      ((Ledger.ofList annotations).entries.countP fun a => set.Scatters a.target) =
        (Ledger.ofList annotations).size := by
  obtain ⟨hvalid, hconfident, hdropped⟩ := of_migrate h
  have hscatters : ((Ledger.ofList annotations).entries.countP fun a => set.Scatters a.target) =
      (Ledger.ofList annotations).entries.countP (isScattered set) := by
    refine List.countP_congr fun a _ => ?_
    rw [decide_eq_true_iff, isScattered_iff hset]
  rw [Ledger.size, hconfident, Ledger.entries_ofList, survivors_carried hset hvalid hmerge,
    hdropped, hscatters]
  exact length_carried_add_lost_add_scattered hsides _

/-! ## The mapping of a run -/

/-- The mapping of a run fits the new snapshot. -/
theorem exists_migrate_of_runPipeline {old : Snapshot} {settings : Settings} {p : PipelineResult}
    (h : runPipeline old new settings = .ok p) (previous : Ledger) (author : String) :
    ∃ r, migrate previous p.mapping new author = .ok r := by
  obtain ⟨before, hlast⟩ := exists_runStage_of_runPipeline h
  obtain ⟨-, -, hvalid⟩ := runStage_eq_ok_iff.1 hlast
  refine exists_migrate previous ?_
  refine MappingSet.validateTargets_eq_ok_iff.2 ?_
  exact fun m hm => MappingSet.validate_eq_ok_iff.1 hvalid m hm .target

/-- A migration loses nothing silently, and along the mapping of a run it always succeeds. -/
theorem migrate_conserves (annotations : List Annotation) (new : Snapshot) (author : String) :
    (∀ set r, MappingSet.Built set → (∀ m ∈ set.mappings, m.sources ≠ [] ∧ m.targets ≠ []) →
      migrate (.ofList annotations) set new author = .ok r →
        r.Conserves (.ofList annotations) set new author) ∧
    ∀ old settings p, runPipeline old new settings = .ok p →
      ∃ r, migrate (.ofList annotations) p.mapping new author = .ok r := by
  refine ⟨?_, ?_⟩
  · intro set r hset hsides h
    have hpart := hset.partitioned
    obtain ⟨hvalid, hconfident, -⟩ := of_migrate h
    refine ⟨?_, ?_, ?_⟩
    · intro a ha a' ha' hne b b' hb hb' hconflict
      have hfree := Ledger.conflicts_eq_false_of_mem ha ha' hne
      exact merges_of_conflicts hpart hfree hb hb' hconflict
    · intro a ha b hb hmissing
      rw [hconfident, Ledger.entries_ofList] at hmissing
      exact exists_merged_of_not_mem_survivors hpart hvalid ha hb hmissing
    · exact size_add_dropped hpart (fun m hm => (hsides m hm).2) h
  · intro old settings p h
    exact exists_migrate_of_runPipeline h _ author

/-- Annotations before the merger on one of the two classes, on a function and on an element that is
gone. -/
def oneSided : List Annotation :=
  [.ofPayload "lib/a" "x" .remove, .ofPayload "lib/a" "x" (.rename "e"),
    .ofPayload "lib/f" "y" .expert, .ofPayload "lib/z" "y" .expert]

/-- Two annotations are carried over, one is dropped and one leaves notes only. -/
theorem migrate_conserves_oneSided :
    (∃ r, migrate (.ofList oneSided) merger merged "m" = .ok r ∧
      r.Conserves (.ofList oneSided) merger merged "m" ∧ r.confident.size + r.dropped +
        ((Ledger.ofList oneSided).entries.countP fun a => merger.Scatters a.target) = 4) ∧
    ∃ old new p r, runPipeline old new {} = .ok p ∧
      migrate (.ofList oneSided) p.mapping new "m" = .ok r := by
  refine ⟨?_, ?_⟩
  · have hvalid : merger.validateTargets merged = .ok () :=
      eq_ok_of_toOption_eq_some (by decide +kernel)
    obtain ⟨r, hr⟩ := exists_migrate (.ofList oneSided) hvalid
    have hconserves := (migrate_conserves oneSided merged "m").1 merger r (by decide +kernel)
      (by decide +kernel) hr
    exact ⟨r, hr, hconserves, hconserves.balance (by decide +kernel)⟩
  · obtain ⟨old, new, p, -, -, hp⟩ := exists_runPipeline_classAndFunction {}
    obtain ⟨r, hr⟩ := (migrate_conserves oneSided new "m").2 old {} p hp
    exact ⟨old, new, p, r, hp, hr⟩

end ApiEvolution
