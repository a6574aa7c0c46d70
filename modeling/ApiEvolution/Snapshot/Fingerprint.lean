import ApiEvolution.Digest.Sha256
import ApiEvolution.Json.Printer
import ApiEvolution.Snapshot.Document

/-!
# Fingerprints of elements

The fingerprint of a class or function is the digest of its code, that of any other element the
digest of its record. The record is taken without what locates the element, its identity and
qualified name, and with its name instead.
-/

namespace ApiEvolution.Element

/-- The record of an element without its location. -/
def unlocated (e : Element) : Json :=
  Json.sortedObject ((e.members.filter fun m => m.1 ≠ "id" && m.1 ≠ "qname") ++
    [("name", .text e.name)])

/-- The text of which the fingerprint is taken. -/
def evidence (e : Element) : String :=
  match e.code with
  | some code => code
  | none => e.unlocated.canonical.compact

/-- The fingerprint of an element. -/
def fingerprint (e : Element) : Digest.State :=
  Digest.ofText e.evidence

end ApiEvolution.Element
