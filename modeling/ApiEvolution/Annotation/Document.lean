import ApiEvolution.Annotation.Fields
import ApiEvolution.Annotation.Ledger
import ApiEvolution.Error
import ApiEvolution.Json.Reader

/-!
# Annotation documents

A document of annotations has the version of its schema and, for each kind, an object that holds the
fields of each annotation under its target. Documents are written with all kinds and with all keys
sorted, so that ledgers with the same annotations have the same document.

A document without version is of the first one. Reading goes through the kinds in their order and
through the targets in document order, and adds each annotation to a ledger; so of two conflicting
annotations the one of the later kind is kept. An entry need not repeat its target.
-/

namespace ApiEvolution

open Json

namespace Ledger

/-- The version of the schema in which documents are written. -/
def schemaVersion : Int := 2

/-- The oldest version that is read. -/
def oldestSchemaVersion : Int := 1

/-- The key of the version. -/
def versionKey : String := "schemaVersion"

/-- The entries of a kind, sorted by target. -/
def kindToJson (l : Ledger) (kind : AnnotationKind) : Json :=
  sortedObject ((l.ofKind kind).map fun a => (a.target, a.fields))

/-- The document of a ledger. -/
def toJson (l : Ledger) : Json :=
  .object ((versionKey, .integer schemaVersion) ::
    sortMembers (AnnotationKind.all.map fun k => (k.storeKey, l.kindToJson k)))

/-- The text of a ledger's document. -/
def write (l : Ledger) : String :=
  l.toJson.pretty

/-! ## Reading -/

/-- The entries of a document by the key of their kind: every member other than the version has to
be an object. A repeated key keeps its first place and its last value. -/
def sections (members : List (String × Json)) :
    Reading (List (String × List (String × Json))) := do
  return latest (← (members.filter fun m => m.1 ≠ versionKey).mapM fun m =>
    (asMap .ok m.2).map fun entries => (m.1, entries))

/-- The version and the sections of a document. -/
def outline (v : Json) : Reading (Int × List (String × List (String × Json))) :=
  match v with
  | .object members => do
    match repeatedKey? [versionKey] members with
    | some k => throw (.repeatedField k)
    | none =>
      let version ← match lookup versionKey members with
        | some version => asSigned version
        | none => pure oldestSchemaVersion
      return (version, ← sections members)
  | v => .error (.wrongType v "a store")

/-- The kind of each section. -/
def kindSections (parts : List (String × List (String × Json))) :
    Outcome (List (AnnotationKind × List (String × Json))) :=
  parts.mapM fun s =>
    match AnnotationKind.ofStoreKey? s.1 with
    | some k => .ok (k, s.2)
    | none => .error (.invalidDocument (.unknownKindKey s.1))

/-- The fields with the target among them. -/
def withTarget (target : String) (members : List (String × Json)) : List (String × Json) :=
  if members.any fun m => m.1 = "target" then members
  else insertSorted "target" (.text target) members

/-- The annotation of an entry. -/
def readEntry (kind : AnnotationKind) (target : String) (v : Json) : Outcome Annotation :=
  match v.canonical with
  | .object members =>
    match Annotation.ofFields kind (.object (withTarget target members)) with
    | .error cause => .error (.invalidDocument (.entryMismatch kind target cause))
    | .ok a =>
      if a.target = target then .ok a
      else .error (.invalidDocument (.entryElsewhere kind target a.target))
  | _ => .error (.invalidDocument (.entryNotObject kind target))

/-- The annotations of a document in the order in which they are added. -/
def readEntries (parts : List (AnnotationKind × List (String × Json))) :
    Outcome (List Annotation) := do
  let groups ← AnnotationKind.all.mapM fun k =>
    match parts.find? fun s => s.1 = k with
    | some s => s.2.mapM fun e => readEntry k e.1 e.2
    | none => .ok []
  return groups.flatten

/-- The ledger that a document describes. -/
def ofJson (v : Json) : Outcome Ledger := do
  let (version, parts) ← Outcome.ofReading (outline v)
  if schemaVersion < version then throw (.unsupportedSchema version schemaVersion)
  else if version < oldestSchemaVersion then throw (.invalidDocument (.storeVersion version))
  else return ofList (← readEntries (← kindSections parts))

/-- The ledger that a text describes. All of the document is looked at, so no part of it may be
unusable or nested too deep. -/
def read (text : String) : Outcome Ledger :=
  match Json.read? text with
  | some v => if v.isReadable 0 then ofJson v else .error .malformed
  | none => .error .malformed

end Ledger

end ApiEvolution
