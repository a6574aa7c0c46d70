import ApiEvolution.Error
import ApiEvolution.Json.Reader
import ApiEvolution.Snapshot.Element

/-!
# Usage counts

How often classes, functions and parameters are used, and for parameters how often each literal is
passed. Counts are words of 64 bits, and adding them up fails where the sum is no word
(`Error.overflow`).

`effectiveValues` are the values that a parameter has in the calls of its function: those that are
passed, and the default in the calls that pass none.
-/

namespace ApiEvolution

open Json

/-- The counts of some things, in the order in which they were given. -/
abbrev Counts := List (String × Nat)

namespace Counts

/-- The count of a thing, 0 if it is not among them. -/
def get (c : Counts) (name : String) : Nat :=
  ((c.find? fun e => e.1 = name).map (·.2)).getD 0

/-- The sum of two words, if it is a word. -/
def wordAdd (a b : Nat) : Outcome Nat :=
  if a + b < Nat.pow 2 64 then .ok (a + b) else .error .overflow

/-- The sum of all counts. -/
def sum (c : Counts) : Outcome Nat :=
  c.foldlM (fun n e => wordAdd n e.2) 0

/-- Count a thing some more times. A thing that is not among them comes at the end. -/
def increase (name : String) (n : Nat) : Counts → Outcome Counts
  | [] => .ok [(name, n)]
  | e :: rest =>
    if e.1 = name then (wordAdd e.2 n).map fun m => (e.1, m) :: rest
    else (increase name n rest).map (e :: ·)

end Counts

/-- Usage counts of the elements of a library. -/
structure UsageCounts where
  classes : Counts := []
  functions : Counts := []
  parameters : Counts := []
  values : List (String × Counts) := []
deriving DecidableEq, Repr

namespace UsageCounts

/-- The counts of the literals that are passed for a parameter. -/
def valuesOf (u : UsageCounts) (parameter : String) : Counts :=
  ((u.values.find? fun e => e.1 = parameter).map (·.2)).getD []

/-- Count the default of a parameter, if it has one, in the calls that pass no value. -/
def countOmitted (default : Option String) (omitted : Nat) (explicit : Counts) : Outcome Counts :=
  match default with
  | some literal => if 0 < omitted then explicit.increase literal omitted else .ok explicit
  | none => .ok explicit

/-- The values of a parameter with a default, if it has one, in some calls of its function, given
how often each literal is passed. -/
def effectiveCounts (explicit : Counts) (default : Option String) (calls : Nat) :
    Outcome Counts := do
  let passed ← explicit.sum
  let all ← countOmitted default (calls - passed) explicit
  return all.filter fun e => 0 < e.2

/-- The values that a parameter has in some calls of its function. -/
def effectiveValues (u : UsageCounts) (id : String) (default : Option String) (calls : Nat) :
    Outcome Counts :=
  effectiveCounts (u.valuesOf id) default calls

/-- Refuse a parameter for which more values are counted than uses. -/
def checkValues (u : UsageCounts) (parameter : String) (values : Counts) : Outcome Unit := do
  let passed ← values.sum
  let uses := u.parameters.get parameter
  if uses < passed then throw (.invalidDocument (.excessValues parameter passed uses))

/-- Check the values of all parameters, in order. -/
def check (u : UsageCounts) : Outcome Unit :=
  u.values.forM fun e => u.checkValues e.1 e.2

/-- Counts as a document has them. -/
def countsToJson (c : Counts) : Json :=
  .object (c.map fun e => (e.1, .integer e.2))

/-- The document of usage counts. -/
def toJson (u : UsageCounts) : Json :=
  .object [("class_usages", countsToJson u.classes), ("function_usages", countsToJson u.functions),
    ("parameter_usages", countsToJson u.parameters),
    ("value_usages", .object (u.values.map fun e => (e.1, countsToJson e.2)))]

/-- Usage counts of the right shape. -/
def ofJson : Json → Reading UsageCounts :=
  asRecord "UsageCounts" ["class_usages", "function_usages", "parameter_usages", "value_usages"]
    fun r => return {
    classes := ← r.getD "class_usages" (asMap asCount) []
    functions := ← r.getD "function_usages" (asMap asCount) []
    parameters := ← r.getD "parameter_usages" (asMap asCount) []
    values := ← r.getD "value_usages" (asMap (asMap asCount)) [] }

/-- The usage counts of a document, unless they contradict each other. -/
def ofDocument (v : Json) : Outcome UsageCounts := do
  let u ← Outcome.ofReading (ofJson v)
  u.check
  return u

/-- The usage counts that a text describes. -/
def read (text : String) : Outcome UsageCounts :=
  match Json.read? text with
  | some v => ofDocument v
  | none => .error .malformed

end UsageCounts

end ApiEvolution
