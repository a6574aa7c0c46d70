import ApiEvolution.Json.Reader
import ApiEvolution.Mapping.Basic

/-!
# Mapping reports

A `Report` lists what a comparison has found: the mappings, and the elements that were removed or
added. Its document is read by `Report.read` and written by `Report.write`.
-/

namespace ApiEvolution

open Json

/-- What identifies a snapshot. -/
structure SnapshotHeader where
  distribution : String
  package : String
  version : String
deriving DecidableEq, Repr

/-- A mapping as a report lists it. -/
structure MappingRecord where
  multiplicity : Multiplicity
  kind : ElementKind
  sources : List String
  targets : List String
  similarity : Float
deriving DecidableEq

/-- The findings of a comparison. -/
structure Report where
  old : SnapshotHeader
  new : SnapshotHeader
  mappings : List MappingRecord
  removed : List String
  added : List String
deriving DecidableEq

/-- The header of a snapshot. -/
def SnapshotHeader.ofSnapshot (s : Snapshot) : SnapshotHeader :=
  ⟨s.distribution, s.package, s.version⟩

/-- The record of a mapping. -/
def MappingRecord.ofMapping (m : Mapping) : MappingRecord :=
  ⟨m.multiplicity, m.kind, m.sources, m.targets, m.similarity⟩

namespace Report

/-- The report on two snapshots and the mappings between them. -/
def ofMappings (old new : Snapshot) (set : MappingSet) : Report where
  old := .ofSnapshot old
  new := .ofSnapshot new
  mappings := set.mappings.map .ofMapping
  removed := set.removed old
  added := set.added new

/-- The number of mappings of a multiplicity. -/
def count (r : Report) (multiplicity : Multiplicity) : Nat :=
  r.mappings.countP fun m => m.multiplicity = multiplicity

end Report

/-- The document of a header. -/
def SnapshotHeader.toJson (h : SnapshotHeader) : Json :=
  .object [("distribution", .text h.distribution), ("package", .text h.package),
    ("version", .text h.version)]

/-- The document of a record. -/
def MappingRecord.toJson (m : MappingRecord) : Json :=
  .object [("multiplicity", .text m.multiplicity.name), ("kind", .text m.kind.name),
    ("sources", Json.ofTexts m.sources), ("targets", Json.ofTexts m.targets),
    ("similarity", Json.ofFloat m.similarity)]

/-- The header in a document. -/
def SnapshotHeader.ofJson : Json → Reading SnapshotHeader :=
  asRecord "SnapshotHeader" ["distribution", "package", "version"] fun r => return {
    distribution := ← r.get "distribution" asText
    package := ← r.get "package" asText
    version := ← r.get "version" asText }

/-- The record in a document. -/
def MappingRecord.ofJson : Json → Reading MappingRecord :=
  asRecord "MappingRecord" ["multiplicity", "kind", "sources", "targets", "similarity"]
    fun r => return {
    multiplicity := ← r.get "multiplicity" (asConstant isNull Multiplicity.byName)
    kind := ← r.get "kind" (asConstant isNull ElementKind.byName)
    sources := ← r.get "sources" asTexts
    targets := ← r.get "targets" asTexts
    similarity := ← r.get "similarity" asFloat }

namespace Report

/-- The document of a report. -/
def toJson (r : Report) : Json :=
  .object [("old", r.old.toJson), ("new", r.new.toJson),
    ("mappings", .array (r.mappings.map MappingRecord.toJson)),
    ("removed", Json.ofTexts r.removed), ("added", Json.ofTexts r.added)]

/-- The text of a report. -/
def write (r : Report) : String :=
  r.toJson.pretty

/-- The report in a document. -/
def ofJson : Json → Reading Report :=
  asRecord "Report" ["old", "new", "mappings", "removed", "added"] fun r => return {
    old := ← r.get "old" SnapshotHeader.ofJson
    new := ← r.get "new" SnapshotHeader.ofJson
    mappings := ← r.get "mappings" (asList MappingRecord.ofJson)
    removed := ← r.get "removed" asTexts
    added := ← r.get "added" asTexts }

/-- The report that a text describes. -/
def read (text : String) : Outcome Report :=
  match Json.read? text with
  | some v => Outcome.ofReading (ofJson v)
  | none => .error .malformed

end Report

end ApiEvolution
