import ApiEvolution.Annotation.Kind
import ApiEvolution.Json.Record
import ApiEvolution.Snapshot.Kind

/-!
# Failures

Reading a type text and comparing elements never fail. What can fail is the reading of a document,
a mapping can turn out not to fit the mappings or the snapshots it is used with, and a sum of counts
can exceed a word. Each cause is a constructor; the wording is in the three `message` functions.
-/

namespace ApiEvolution

/-- The side of a mapping. -/
inductive Side where
  | source
  | target
deriving DecidableEq, Repr

/-- The name of a side. -/
def Side.name : Side → String
  | .source => "source"
  | .target => "target"

/-- Why a mapping does not fit. -/
inductive Inconsistency where
  /-- An identity is on the same side of another mapping. -/
  | mappedTwice (side : Side) (id : String)
  /-- An identity belongs to an element of another kind than the mapping's. -/
  | wrongKind (side : Side) (id : String) (found wanted : ElementKind)
  /-- An identity belongs to no element of the snapshot. -/
  | notPart (side : Side) (id distribution version : String)
deriving DecidableEq, Repr

/-- The wording of an inconsistency. -/
def Inconsistency.message : Inconsistency → String
  | .mappedTwice side id => side.name ++ " " ++ id ++ " appears in more than one mapping"
  | .wrongKind side id found wanted =>
    side.name ++ " " ++ id ++ " is a " ++ found.name ++ " but the mapping is over " ++ wanted.name
  | .notPart side id distribution version =>
    side.name ++ " " ++ id ++ " is not part of " ++ distribution ++ " " ++ version

/-- Why a document of the right shape is refused. -/
inductive DocumentFault where
  /-- Two elements of a snapshot have one identity. -/
  | repeatedIdentity (id : String)
  /-- A container lists an element that is not declared with the kind. -/
  | undeclaredChild (container : String) (kind : ElementKind) (child : String)
  /-- No store has this version. -/
  | storeVersion (version : Int)
  /-- A key of a store belongs to no kind of annotation. -/
  | unknownKindKey (key : String)
  /-- An entry of a store is no object. -/
  | entryNotObject (kind : AnnotationKind) (target : String)
  /-- An entry of a store does not have the fields of its kind. -/
  | entryMismatch (kind : AnnotationKind) (target : String) (cause : Json.Mismatch)
  /-- An entry of a store names another target than its key. -/
  | entryElsewhere (kind : AnnotationKind) (target actual : String)
  /-- More values than uses are counted for a parameter. -/
  | excessValues (parameter : String) (values uses : Nat)
  /-- A number stands for no kind of limit. -/
  | limitCode (code : Nat)

/-- The wording of a document's fault. -/
def DocumentFault.message : DocumentFault → String
  | .repeatedIdentity id => "identity " ++ id ++ " is declared more than once"
  | .undeclaredChild container kind child =>
    container ++ " lists " ++ kind.name ++ " " ++ child ++ ", which is not declared"
  | .storeVersion version =>
    "schemaVersion " ++ Decimal.integer version ++ " is not a valid annotation store version"
  | .unknownKindKey key => "unknown annotation kind key " ++ Text.quoted key
  | .entryNotObject kind target => kind.storeKey ++ " entry for " ++ target ++ " is not an object"
  | .entryMismatch kind target cause =>
    kind.storeKey ++ " entry for " ++ target ++ ": " ++ cause.message
  | .entryElsewhere kind target actual =>
    kind.storeKey ++ " entry keyed " ++ target ++ " targets " ++ actual
  | .excessValues parameter values uses =>
    parameter ++ " has " ++ Decimal.natural values ++ " value usages but only " ++
      Decimal.natural uses ++ " usages"
  | .limitCode code => (Json.Mismatch.limitCode code).message

/-- A failure. -/
inductive Error where
  /-- A mapping does not fit. -/
  | inconsistent (cause : Inconsistency)
  /-- A store was written by a later version. -/
  | unsupportedSchema (found supported : Int)
  /-- A document is refused. -/
  | invalidDocument (cause : DocumentFault)
  /-- A text is no document of the wanted shape. -/
  | malformed
  /-- A file cannot be read or written. -/
  | inaccessible
  /-- A sum exceeds a word. Unlike the other failures, this one is not reported to the caller: the
  program ends. -/
  | overflow

/-- The wording of a failure, where it has one of its own. -/
def Error.message : Error → String
  | .inconsistent cause => "Inconsistent mapping: " ++ cause.message
  | .unsupportedSchema found supported =>
    "Unsupported annotation schema version " ++ Decimal.integer found ++ " (supported up to " ++
      Decimal.integer supported ++ ")"
  | .invalidDocument cause => "Invalid document: " ++ cause.message
  | .malformed => "JSON error"
  | .inaccessible => "IO error"
  | .overflow => "attempt to add with overflow"

/-- A value, or the failure that prevents it. -/
abbrev Outcome (α : Type) := Except Error α

/-- The result of reading, with any mismatch of shape as a malformed document. -/
def Outcome.ofReading {α : Type} : Json.Reading α → Outcome α
  | .ok a => .ok a
  | .error _ => .error .malformed

end ApiEvolution
