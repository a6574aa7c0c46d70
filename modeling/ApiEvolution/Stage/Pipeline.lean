import ApiEvolution.Settings
import ApiEvolution.Stage.Score

/-!
# Running the stages

`runStage` makes the mapping set of one stage; it checks the mapping before and its own result
against the two snapshots. `runPipeline` runs all stages, each on the result of the one before; the
result of the last is the mapping of the comparison.
-/

namespace ApiEvolution

open Similarity

/-- The mapping set of a stage. -/
def runStage (stage : Stage) (old new : Snapshot) (previous : Option MappingSet)
    (settings : Settings) : Outcome MappingSet := do
  match previous with
  | some set => set.validate old new
  | none => pure ()
  let c : Comparison := ⟨old, new, previous⟩
  let set ← Matcher.matchSnapshots (c.score settings.boost stage) (clampUnit settings.threshold)
    old new
  set.validate old new
  return set

/-- The mapping sets of some stages, run on the result of a stage before. -/
def runStages (old new : Snapshot) (settings : Settings) (previous : Option MappingSet) :
    List Stage → Outcome (List (Stage × MappingSet))
  | [] => return []
  | stage :: rest => do
    let set ← runStage stage old new previous settings
    return (stage, set) :: (← runStages old new settings (some set) rest)

/-- The mapping sets of all stages, in order. -/
structure PipelineResult where
  stages : List (Stage × MappingSet)

/-- The mapping set of the last stage. -/
def PipelineResult.mapping (r : PipelineResult) : MappingSet :=
  (r.stages.getLast?.map (·.2)).getD .empty

/-- Run all stages. -/
def runPipeline (old new : Snapshot) (settings : Settings) : Outcome PipelineResult := do
  return ⟨← runStages old new settings none Stage.all⟩

end ApiEvolution
