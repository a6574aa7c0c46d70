import ApiEvolution.Proofs.Candidates
import ApiEvolution.Proofs.Outcome
import ApiEvolution.Proofs.Outline
import ApiEvolution.Stage.Pipeline

/-!
# What a run goes through

A stage succeeds if the mapping before fits the snapshots, the candidates make a mapping set and
this fits the snapshots too (`runStage_eq_ok_iff`). Every mapping set of a run is the result of a
stage (`exists_runStage_of_mem`), and so is the mapping that the run returns.

Between coherent snapshots that share nothing between containers every stage succeeds
(`exists_runStage`), and with it the run (`exists_runPipeline`, `exists_runPipeline_of_read`).
-/

namespace ApiEvolution

open Similarity

variable {stage : Stage} {old new : Snapshot} {previous : Option MappingSet} {settings : Settings}
  {set : MappingSet}

/-! ## One stage -/

/-- A mapping set that is made and then checked. -/
theorem bind_validate_eq_ok_iff {made : Outcome MappingSet} :
    (do
      let s ← made
      s.validate old new
      return s) = .ok set ↔ made = .ok set ∧ set.validate old new = .ok () := by
  rw [bind_eq_ok_iff]
  constructor
  · rintro ⟨s, hs, hrest⟩
    obtain ⟨⟨⟩, hvalid, heq⟩ := bind_eq_ok_iff.1 hrest
    cases heq
    exact ⟨hs, hvalid⟩
  · rintro ⟨hs, hvalid⟩
    exact ⟨set, hs, bind_eq_ok_iff.2 ⟨(), hvalid, rfl⟩⟩

theorem runStage_eq_ok_iff :
    runStage stage old new previous settings = .ok set ↔
      (∀ p, previous = some p → p.validate old new = .ok ()) ∧
        Matcher.matchSnapshots ((⟨old, new, previous⟩ : Comparison).score settings.boost stage)
          (clampUnit settings.threshold) old new = .ok set ∧
        set.validate old new = .ok () := by
  cases previous with
  | none =>
    refine bind_validate_eq_ok_iff.trans ?_
    simp
  | some p =>
    refine bind_eq_ok_iff.trans ?_
    simp only [bind_validate_eq_ok_iff, Option.some.injEq, forall_eq']
    constructor
    · rintro ⟨⟨⟩, hp, hset⟩
      exact ⟨hp, hset⟩
    · rintro ⟨hp, hset⟩
      exact ⟨(), hp, hset⟩

/-- A stage finds the candidates of its score, which do not overlap. -/
theorem candidates_of_runStage (h : runStage stage old new previous settings = .ok set) :
    set.Partitioned ∧ set = ⟨Matcher.candidates
      ((⟨old, new, previous⟩ : Comparison).score settings.boost stage)
      (clampUnit settings.threshold) old new⟩ := by
  obtain ⟨-, hmatch, -⟩ := runStage_eq_ok_iff.1 h
  obtain ⟨hpart, rfl⟩ := Matcher.matchSnapshots_eq_ok_iff.1 hmatch
  exact ⟨hpart, rfl⟩

theorem exists_runStage (hold : old.Coherent) (hnew : new.Coherent) (hold' : old.Unshared)
    (hnew' : new.Unshared) (hprevious : ∀ p, previous = some p → p.validate old new = .ok ())
    (stage : Stage) (settings : Settings) :
    ∃ set, runStage stage old new previous settings = .ok set := by
  obtain ⟨set, hmatch⟩ := Matcher.exists_matchSnapshots hold hnew hold' hnew'
    ((⟨old, new, previous⟩ : Comparison).score settings.boost stage) (clampUnit settings.threshold)
  exact ⟨set, runStage_eq_ok_iff.2
    ⟨hprevious, hmatch, Matcher.validate_matchSnapshots hold hnew hmatch⟩⟩

/-! ## All stages -/

theorem runStages_cons_eq_ok_iff {rest : List Stage} {results : List (Stage × MappingSet)} :
    runStages old new settings previous (stage :: rest) = .ok results ↔
      ∃ set more, runStage stage old new previous settings = .ok set ∧
        runStages old new settings (some set) rest = .ok more ∧ results = (stage, set) :: more := by
  rw [runStages, bind_eq_ok_iff]
  constructor
  · rintro ⟨set, hset, h⟩
    obtain ⟨more, hmore, hresults⟩ := bind_eq_ok_iff.1 h
    cases hresults
    exact ⟨set, more, hset, hmore, rfl⟩
  · rintro ⟨set, more, hset, hmore, rfl⟩
    exact ⟨set, hset, bind_eq_ok_iff.2 ⟨more, hmore, rfl⟩⟩

/-- The mapping sets of a run are results of stages. -/
theorem exists_runStage_of_mem {stages : List Stage} {results : List (Stage × MappingSet)}
    (h : runStages old new settings previous stages = .ok results) (hmem : (stage, set) ∈ results) :
    ∃ before, runStage stage old new before settings = .ok set := by
  induction stages generalizing previous results with
  | nil =>
    cases h
    cases hmem
  | cons first rest ih =>
    obtain ⟨made, more, hmade, hmore, rfl⟩ := runStages_cons_eq_ok_iff.1 h
    rcases List.mem_cons.1 hmem with heq | hmem
    · cases heq
      exact ⟨previous, hmade⟩
    · exact ih hmore hmem

theorem map_fst_runStages {stages : List Stage} {results : List (Stage × MappingSet)}
    (h : runStages old new settings previous stages = .ok results) :
    results.map Prod.fst = stages := by
  induction stages generalizing previous results with
  | nil =>
    cases h
    rfl
  | cons first rest ih =>
    obtain ⟨made, more, -, hmore, rfl⟩ := runStages_cons_eq_ok_iff.1 h
    rw [List.map_cons, ih hmore]

theorem runPipeline_eq_ok_iff {r : PipelineResult} :
    runPipeline old new settings = .ok r ↔
      runStages old new settings none Stage.all = .ok r.stages := by
  refine bind_eq_ok_iff.trans ?_
  constructor
  · rintro ⟨results, hresults, hr⟩
    cases hr
    exact hresults
  · exact fun h => ⟨r.stages, h, rfl⟩

/-- A run has a mapping set for each stage, in their order. -/
theorem map_fst_runPipeline {r : PipelineResult} (h : runPipeline old new settings = .ok r) :
    r.stages.map Prod.fst = Stage.all :=
  map_fst_runStages (runPipeline_eq_ok_iff.1 h)

/-- Each stage of a run works on the result of the one before, the first on none. -/
theorem stages_of_runPipeline {r : PipelineResult} (h : runPipeline old new settings = .ok r) :
    ∃ naive strict inheritance unchanged,
      runStage .naive old new none settings = .ok naive ∧
      runStage .strict old new (some naive) settings = .ok strict ∧
      runStage .inheritance old new (some strict) settings = .ok inheritance ∧
      runStage .unchanged old new (some inheritance) settings = .ok unchanged ∧
      r.stages = [(.naive, naive), (.strict, strict), (.inheritance, inheritance),
        (.unchanged, unchanged)] := by
  obtain ⟨naive, _, hnaive, h₁, hr⟩ := runStages_cons_eq_ok_iff.1 (runPipeline_eq_ok_iff.1 h)
  obtain ⟨strict, _, hstrict, h₂, rfl⟩ := runStages_cons_eq_ok_iff.1 h₁
  obtain ⟨inheritance, _, hinheritance, h₃, rfl⟩ := runStages_cons_eq_ok_iff.1 h₂
  obtain ⟨unchanged, _, hunchanged, h₄, rfl⟩ := runStages_cons_eq_ok_iff.1 h₃
  cases h₄
  exact ⟨naive, strict, inheritance, unchanged, hnaive, hstrict, hinheritance, hunchanged, hr⟩

/-- The mapping of a run is the result of its last stage. -/
theorem exists_runStage_of_runPipeline {r : PipelineResult}
    (h : runPipeline old new settings = .ok r) :
    ∃ before, runStage .unchanged old new before settings = .ok r.mapping := by
  have hlast : r.stages.getLast?.map Prod.fst = some .unchanged := by
    rw [← List.getLast?_map, map_fst_runPipeline h]
    rfl
  obtain ⟨⟨_, set⟩, hget, rfl⟩ := Option.map_eq_some_iff.1 hlast
  rw [PipelineResult.mapping, hget]
  exact exists_runStage_of_mem (runPipeline_eq_ok_iff.1 h) (List.mem_of_getLast? hget)

theorem exists_runStages (hold : old.Coherent) (hnew : new.Coherent) (hold' : old.Unshared)
    (hnew' : new.Unshared) (hprevious : ∀ p, previous = some p → p.validate old new = .ok ())
    (stages : List Stage) (settings : Settings) :
    ∃ results, runStages old new settings previous stages = .ok results := by
  induction stages generalizing previous with
  | nil => exact ⟨[], rfl⟩
  | cons stage rest ih =>
    obtain ⟨set, hset⟩ := exists_runStage hold hnew hold' hnew' hprevious stage settings
    have hvalid : ∀ p, some set = some p → p.validate old new = .ok () := by
      rintro p ⟨⟩
      exact (runStage_eq_ok_iff.1 hset).2.2
    obtain ⟨more, hmore⟩ := ih hvalid
    exact ⟨_, runStages_cons_eq_ok_iff.2 ⟨set, more, hset, hmore, rfl⟩⟩

/-- A run between coherent snapshots that share nothing between containers succeeds. -/
theorem exists_runPipeline (hold : old.Coherent) (hnew : new.Coherent) (hold' : old.Unshared)
    (hnew' : new.Unshared) (settings : Settings) : ∃ r, runPipeline old new settings = .ok r := by
  have hnone : ∀ p, (none : Option MappingSet) = some p → p.validate old new = .ok () :=
    fun p hp => by cases hp
  obtain ⟨results, hresults⟩ := exists_runStages hold hnew hold' hnew' hnone Stage.all settings
  exact ⟨⟨results⟩, runPipeline_eq_ok_iff.2 hresults⟩

/-! ## Runs between documents -/

/-- A text describes a snapshot in which nothing is listed by two containers. -/
def Snapshot.ReadsUnshared (text : String) : Prop :=
  (Snapshot.read text).toOption.any (fun s => s.Unshared) = true

instance (text : String) : Decidable (Snapshot.ReadsUnshared text) :=
  inferInstanceAs (Decidable (_ = true))

theorem Snapshot.exists_of_readsUnshared {text : String} (h : ReadsUnshared text) :
    ∃ s, Snapshot.read text = .ok s ∧ s.Unshared := by
  obtain ⟨s, hs, hunshared⟩ := exists_eq_ok_of_any h
  exact ⟨s, hs, of_decide_eq_true hunshared⟩

/-- A run between two such texts succeeds. -/
theorem exists_runPipeline_of_read {oldText newText : String}
    (hold : Snapshot.ReadsUnshared oldText) (hnew : Snapshot.ReadsUnshared newText)
    (settings : Settings) :
    ∃ old new r, Snapshot.read oldText = .ok old ∧ Snapshot.read newText = .ok new ∧
      runPipeline old new settings = .ok r := by
  obtain ⟨old, hold, hold'⟩ := Snapshot.exists_of_readsUnshared hold
  obtain ⟨new, hnew, hnew'⟩ := Snapshot.exists_of_readsUnshared hnew
  obtain ⟨r, hr⟩ := exists_runPipeline (Snapshot.coherent_of_read hold)
    (Snapshot.coherent_of_read hnew) hold' hnew' settings
  exact ⟨old, new, r, hold, hnew, hr⟩

/-- A document of a class with an attribute. -/
def classWithAttribute : Json :=
  .object [("distribution", .text "lib"), ("package", .text "lib"), ("version", .text "1.0"),
    ("classes", .array [.object [("id", .text "lib/A"), ("qname", .text "lib.A"),
      ("attributes", .array [.text "lib/A/x"])]]),
    ("attributes", .array [.object [("id", .text "lib/A/x"), ("name", .text "x")]])]

/-- A document of that class without the attribute, and of a function. -/
def classAndFunction : Json :=
  .object [("distribution", .text "lib"), ("package", .text "lib"), ("version", .text "2.0"),
    ("classes", .array [.object [("id", .text "lib/A"), ("qname", .text "lib.A")]]),
    ("functions", .array [.object [("id", .text "lib/f"), ("qname", .text "lib.f")]])]

theorem readsUnshared_classWithAttribute : Snapshot.ReadsUnshared classWithAttribute.compact := by
  decide +kernel

theorem readsUnshared_classAndFunction : Snapshot.ReadsUnshared classAndFunction.compact := by
  decide +kernel

theorem exists_runPipeline_classAndFunction (settings : Settings) :
    ∃ old new r, Snapshot.read classWithAttribute.compact = .ok old ∧
      Snapshot.read classAndFunction.compact = .ok new ∧ runPipeline old new settings = .ok r :=
  exists_runPipeline_of_read readsUnshared_classWithAttribute readsUnshared_classAndFunction
    settings

/-- Between accepted documents in which nothing is listed by two containers no inconsistency comes
up. Whatever a score keeps, there is a mapping set and it fits; every stage succeeds, without a
mapping before or with one that fits, and so does the run. -/
theorem runs_succeed {oldText newText : String} {old new : Snapshot}
    (hold : Snapshot.read oldText = .ok old) (hnew : Snapshot.read newText = .ok new)
    (hold' : old.Unshared) (hnew' : new.Unshared) (settings : Settings) :
    (∀ score threshold, ∃ set, Matcher.matchSnapshots score threshold old new = .ok set ∧
      set.validate old new = .ok ()) ∧
    (∀ stage previous, (∀ p, previous = some p → p.validate old new = .ok ()) →
      ∃ set, runStage stage old new previous settings = .ok set) ∧
    ∃ r, runPipeline old new settings = .ok r ∧ r.stages.map Prod.fst = Stage.all := by
  have hcoherent := Snapshot.coherent_of_read hold
  have hcoherent' := Snapshot.coherent_of_read hnew
  refine ⟨?_, ?_, ?_⟩
  · intro score threshold
    obtain ⟨set, hset⟩ :=
      Matcher.exists_matchSnapshots hcoherent hcoherent' hold' hnew' score threshold
    exact ⟨set, hset, Matcher.validate_matchSnapshots hcoherent hcoherent' hset⟩
  · intro stage previous hprevious
    exact exists_runStage hcoherent hcoherent' hold' hnew' hprevious stage settings
  · obtain ⟨r, hr⟩ := exists_runPipeline hcoherent hcoherent' hold' hnew' settings
    exact ⟨r, hr, map_fst_runPipeline hr⟩

/-- The strict stage succeeds on what the naive stage has found, and the run does. -/
theorem runs_succeed_class :
    ∃ old new naive strict r, Snapshot.read classWithAttribute.compact = .ok old ∧
      Snapshot.read classAndFunction.compact = .ok new ∧ old.Unshared ∧ new.Unshared ∧
      runStage .naive old new none {} = .ok naive ∧ naive.validate old new = .ok () ∧
      runStage .strict old new (some naive) {} = .ok strict ∧ runPipeline old new {} = .ok r := by
  obtain ⟨old, hold, hold'⟩ := Snapshot.exists_of_readsUnshared readsUnshared_classWithAttribute
  obtain ⟨new, hnew, hnew'⟩ := Snapshot.exists_of_readsUnshared readsUnshared_classAndFunction
  obtain ⟨-, hstages, r, hr, -⟩ := runs_succeed hold hnew hold' hnew' {}
  obtain ⟨naive, hnaive⟩ := hstages .naive none (by simp)
  obtain ⟨-, -, hvalid⟩ := runStage_eq_ok_iff.1 hnaive
  obtain ⟨strict, hstrict⟩ := hstages .strict (some naive) (by simp [hvalid])
  exact ⟨old, new, naive, strict, r, hold, hnew, hold', hnew', hnaive, hvalid, hstrict, hr⟩

end ApiEvolution
