import ApiEvolution.Mapping.Report
import ApiEvolution.Proofs.Stages

/-!
# Reports account for all elements

An identity of a snapshot is on its side of a mapping, or the report lists it as removed or added.
If the mapping set fits the snapshot and does not overlap, none of them is there twice
(`MappingSet.accounts`); the mapping of a run is such a set (`runPipeline_accounts`).
-/

namespace ApiEvolution

namespace MappingSet

variable {s : MappingSet} {side : Side}

/-- The identities of a snapshot that are on no mapping's side. -/
def unmapped (s : MappingSet) (side : Side) (snapshot : Snapshot) : List String :=
  (snapshot.allElements.map Element.id).filter fun id => (s.forSide? side id).isNone

theorem mem_unmapped {snapshot : Snapshot} {id : String} :
    id ∈ s.unmapped side snapshot ↔
      id ∈ snapshot.allElements.map Element.id ∧ ∀ m ∈ s.mappings, id ∉ m.ids side := by
  rw [unmapped, List.mem_filter, Option.isNone_iff_eq_none, forSide?_eq_none_iff]

/-- The sides of mappings that do not overlap, together with what is on none of them, are all
identities of a snapshot. -/
theorem accounts {snapshot : Snapshot} (hpart : s.Partitioned)
    (hnodup : ∀ m ∈ s.mappings, (m.ids side).Nodup)
    (hdeclared : ∀ m ∈ s.mappings, ∀ id ∈ m.ids side, snapshot.declares m.kind id = true)
    (hdistinct : (snapshot.allElements.map Element.id).Nodup) :
    ((s.mappings.flatMap fun m => m.ids side) ++ s.unmapped side snapshot).Perm
      (snapshot.allElements.map Element.id) := by
  have hleft : ((s.mappings.flatMap fun m => m.ids side) ++ s.unmapped side snapshot).Nodup := by
    refine List.nodup_append'.2 ⟨nodup_flatMap_ids hpart hnodup, hdistinct.filter _, ?_⟩
    intro id hmapped hunmapped
    obtain ⟨m, hm, hid⟩ := List.mem_flatMap.1 hmapped
    exact (mem_unmapped.1 hunmapped).2 m hm hid
  refine (List.perm_ext_iff_of_nodup hleft hdistinct).2 ?_
  intro id
  rw [List.mem_append, mem_unmapped, List.mem_flatMap]
  constructor
  · rintro (⟨m, hm, hid⟩ | ⟨hid, -⟩)
    · exact Snapshot.mem_ids_of_declares (hdeclared m hm id hid)
    · exact hid
  · intro hid
    by_cases hmapped : ∃ m ∈ s.mappings, id ∈ m.ids side
    · exact .inl hmapped
    · exact .inr ⟨hid, fun m hm hmem => hmapped ⟨m, hm, hmem⟩⟩

end MappingSet

/-- Every element of the two snapshots is in the report once, on its side of a mapping or as removed
or added. -/
structure Report.Accounts (report : Report) (old new : Snapshot) : Prop where
  old_once : (report.mappings.flatMap MappingRecord.sources ++ report.removed).Perm
    (old.allElements.map Element.id)
  new_once : (report.mappings.flatMap MappingRecord.targets ++ report.added).Perm
    (new.allElements.map Element.id)

theorem flatMap_sources_ofMappings (old new : Snapshot) (s : MappingSet) :
    (Report.ofMappings old new s).mappings.flatMap MappingRecord.sources =
      s.mappings.flatMap fun m => m.ids .source :=
  List.flatMap_map ..

theorem flatMap_targets_ofMappings (old new : Snapshot) (s : MappingSet) :
    (Report.ofMappings old new s).mappings.flatMap MappingRecord.targets =
      s.mappings.flatMap fun m => m.ids .target :=
  List.flatMap_map ..

/-- The mappings of a stage do not overlap, list nothing twice and fit the snapshots. -/
theorem runStage_accounts {stage : Stage} {old new : Snapshot} {previous : Option MappingSet}
    {settings : Settings} {s : MappingSet} (hold : old.Coherent) (hnew : new.Coherent)
    (h : runStage stage old new previous settings = .ok s) (side : Side) :
    ((s.mappings.flatMap fun m => m.ids side) ++ s.unmapped side (side.choose old new)).Perm
      ((side.choose old new).allElements.map Element.id) := by
  obtain ⟨-, hmatch, hvalid⟩ := runStage_eq_ok_iff.1 h
  obtain ⟨hpart, hs⟩ := Matcher.matchSnapshots_eq_ok_iff.1 hmatch
  refine MappingSet.accounts (hs ▸ hpart) ?_ ?_ ?_
  · intro m hm
    rw [hs] at hm
    exact Matcher.nodup_ids_of_mem_candidates hm side
  · exact fun m hm => MappingSet.validate_eq_ok_iff.1 hvalid m hm side
  · cases side with
    | source => exact hold.distinct
    | target => exact hnew.distinct

/-- The report on a run accounts for every element of both snapshots. -/
theorem runPipeline_accounts {oldText newText : String} {old new : Snapshot} {settings : Settings}
    {r : PipelineResult} (hold : Snapshot.read oldText = .ok old)
    (hnew : Snapshot.read newText = .ok new) (h : runPipeline old new settings = .ok r) :
    (Report.ofMappings old new r.mapping).Accounts old new := by
  obtain ⟨before, hlast⟩ := exists_runStage_of_runPipeline h
  have hside := runStage_accounts (Snapshot.coherent_of_read hold) (Snapshot.coherent_of_read hnew)
    hlast
  refine ⟨?_, ?_⟩
  · rw [flatMap_sources_ofMappings]
    exact hside .source
  · rw [flatMap_targets_ofMappings]
    exact hside .target

/-- From `classWithAttribute` to `classAndFunction` an attribute goes and a function comes. -/
theorem runPipeline_accounts_class :
    ∃ old new r, Snapshot.read classWithAttribute.compact = .ok old ∧
      Snapshot.read classAndFunction.compact = .ok new ∧ runPipeline old new {} = .ok r ∧
      (Report.ofMappings old new r.mapping).Accounts old new := by
  obtain ⟨old, new, r, hold, hnew, hr⟩ := exists_runPipeline_classAndFunction {}
  exact ⟨old, new, r, hold, hnew, hr, runPipeline_accounts hold hnew hr⟩

end ApiEvolution
