import ApiEvolution.Annotation.Fields
import ApiEvolution.Proofs.JsonText
import ApiEvolution.Proofs.Members
import ApiEvolution.Proofs.Outcome

/-!
# Fields of annotations read back

`Annotation.ofFields` reads what `Annotation.fields` writes, for annotations of every kind whose
numbers are finite (`ofFields_fields`). An infinite number, or one that is none, is written as null.
-/

namespace ApiEvolution

open Json

/-! ## Numbers -/

/-- The number of a default value, if it is one. -/
def DefaultValue.numbers : DefaultValue → List Float
  | .number x => [x]
  | _ => []

/-- The numbers in a payload. -/
def Payload.numbers : Payload → List Float
  | .optional d | .constant d => d.numbers
  | .boundary i => [i.lowerLimit, i.upperLimit]
  | _ => []

/-! ## Records -/

namespace Json

section

variable {α : Type} {members : List (String × Json)}

theorem asRecord_object (h : Distinct members) (shape : String) (names : List String)
    (read : Record → Reading α) :
    asRecord shape names read (.object members) = read ⟨shape, names.length, true, members⟩ := by
  rw [asRecord, h.repeatedKey?_eq_none]

theorem asRecord_sortMembers (shape : String) (names : List String) (read : Record → Reading α) :
    asRecord shape names read (.object (sortMembers members)) =
      read ⟨shape, names.length, true, sortMembers members⟩ :=
  asRecord_object (sorted_sortMembers members).distinct shape names read

/-- The fields of a record do not depend on the order of the members that it came from. -/
theorem Distinct.get?_sortMembers (h : Distinct members) (shape : String) (size : Nat)
    (name : String) (read : Json → Reading α) :
    Record.get? ⟨shape, size, true, sortMembers members⟩ name read =
      Record.get? ⟨shape, size, true, members⟩ name read := by
  rw [Record.get?, Record.get?, h.lookup_sortMembers]

end

theorem mapM_eq_ok {α β ε : Type} {f : α → Except ε β} {g : β → α} (h : ∀ b, f (g b) = .ok b)
    (bs : List β) : (bs.map g).mapM f = .ok bs :=
  mapM_eq_ok_iff.2 <| List.forall₂_map_left_iff.2 <| List.forall₂_same.2 fun b _ => h b

@[simp] theorem asTexts_ofTexts (texts : List String) :
    asTexts (Json.ofTexts texts) = .ok texts := by
  have hitem : ∀ s, asText (.text s) = .ok s := fun _ => rfl
  exact mapM_eq_ok hitem texts

end Json

@[simp] theorem ReviewResult.ofJson_text (r : ReviewResult) :
    ReviewResult.ofJson (.text r.text) = .ok r := by
  cases r <;> rfl

theorem LimitCode.ofJson_toNat (c : LimitCode) : LimitCode.ofJson (.integer c.toNat) = .ok c := by
  cases c <;> rfl

theorem EnumPair.ofJson_toJson (p : EnumPair) : EnumPair.ofJson p.toJson = .ok p := by
  rfl

theorem Interval.ofJson_toJson {i : Interval} (hlower : i.lowerLimit.isFinite = true)
    (hupper : i.upperLimit.isFinite = true) : Interval.ofJson i.toJson = .ok i := by
  have hlow : Json.ofFloat i.lowerLimit = .real i.lowerLimit := by simp [Json.ofFloat, hlower]
  have hhigh : Json.ofFloat i.upperLimit = .real i.upperLimit := by simp [Json.ofFloat, hupper]
  rw [Interval.toJson, hlow, hhigh, Interval.ofJson, asRecord_object (by simp [Distinct])]
  simp [Interval.ofRecord, Record.get?, lookup_cons, asBool, asFloat, LimitCode.ofJson_toNat,
    Record.need]
  rfl

namespace Annotation

variable {a : Annotation}

/-- The fields before they are sorted. -/
def members (a : Annotation) : List (String × Json) :=
  [("target", .text a.target), ("authors", Json.ofTexts a.authors),
    ("reviewers", Json.ofTexts a.reviewers), ("comment", .text a.comment),
    ("reviewResult", .text a.review.text)] ++ a.payload.members

theorem fields_eq (a : Annotation) : a.fields = .object (sortMembers a.members) :=
  rfl

/-- No field of a payload has the name of a common field. -/
theorem distinct_members (a : Annotation) : Distinct a.members := by
  cases a with | mk target authors reviewers comment review payload =>
  cases payload <;> simp [Distinct, members, Payload.members, DefaultValue.members]

/-- Reads the common fields back. -/
theorem ofRecord_members (a : Annotation) (shape : String) (size : Nat) :
    Annotation.ofRecord ⟨shape, size, true, sortMembers a.members⟩ = .ok fun payload =>
      ⟨a.target, a.authors, a.reviewers, a.comment, a.review, payload⟩ := by
  simp only [ofRecord, Record.getD, Record.get, a.distinct_members.get?_sortMembers]
  simp [members, Record.get?, lookup_cons, asText, Record.need]
  rfl

/-- The names of the common fields. -/
def commonNames : List String :=
  ["target", "authors", "reviewers", "comment", "reviewResult"]

section

variable {α : Type} {name s : String} {read : Json → Reading α} {v : Json} {b : α}

theorem lookup_members (h : name ∉ commonNames) :
    lookup name a.members = lookup name a.payload.members := by
  simp only [commonNames, List.mem_cons, not_or, List.not_mem_nil, not_false_eq_true,
    and_true] at h
  simp [members, lookup_cons, h, eq_comm]

theorem get?_fields (a : Annotation) (shape : String) (size : Nat) (hname : name ∉ commonNames)
    (hlookup : lookup name a.payload.members = some v) (hread : read v = .ok b) :
    Record.get? ⟨shape, size, true, sortMembers a.members⟩ name read = .ok (some b) := by
  rw [a.distinct_members.get?_sortMembers, Record.get?, lookup_members hname, hlookup]
  simp only [hread]
  rfl

theorem asField_fields (a : Annotation) (shape : String) (hname : name ∉ commonNames)
    (hlookup : lookup name a.payload.members = some v) (hread : read v = .ok b) :
    asField shape name read a.fields = .ok b := by
  rw [asField, fields_eq, asRecord_sortMembers, Record.get,
    get?_fields a shape _ hname hlookup hread]
  rfl

/-- A payload whose only field is a text. -/
theorem ofFields_text (a : Annotation) (shape : String) (payload : String → Payload)
    (hname : name ∉ commonNames) (h : a.payload.members = [(name, .text s)]) :
    (do return payload (← asField shape name asText a.fields)) = Except.ok (payload s) := by
  have hread : asField shape name asText a.fields = .ok s :=
    asField_fields a shape hname (by rw [h, lookup_cons, if_pos rfl]) rfl
  rw [hread]
  rfl

end

theorem ofFields_default {d : DefaultValue} (h : a.payload.members = d.members)
    (hfinite : ∀ x ∈ d.numbers, x.isFinite = true) : DefaultValue.ofFields a.fields = .ok d := by
  have htype : Record.get? ⟨"DefaultValue", 2, true, sortMembers a.members⟩ "defaultType" asText =
      .ok (some d.typeName) :=
    get?_fields a _ _ (by decide) (by rw [h]; rfl) rfl
  have hvalue : Record.get? ⟨"DefaultValue", 2, true, sortMembers a.members⟩ "defaultValue" .ok =
      .ok (some d.json) :=
    get?_fields a _ _ (by decide) (by rw [h]; rfl) rfl
  rw [DefaultValue.ofFields, fields_eq, asRecord_sortMembers]
  simp only [DefaultValue.ofRecord, Record.get, Record.getD, List.length_cons, List.length_nil,
    htype, hvalue]
  cases d with
  | number x =>
    have hx : x.isFinite = true := by simpa [DefaultValue.numbers] using hfinite
    rw [DefaultValue.json, Json.ofFloat, if_pos hx]
    rfl
  | text | boolean | absent => rfl

theorem ofFields_enumeration {name : String} {pairs : List EnumPair}
    (h : a.payload = .enumeration name pairs) :
    asRecord "Enum" ["enumName", "pairs"] Payload.enumerationOfRecord a.fields =
      .ok (.enumeration name pairs) := by
  have hname : Record.get? ⟨"Enum", 2, true, sortMembers a.members⟩ "enumName" asText =
      .ok (some name) :=
    get?_fields a _ _ (by decide) (by rw [h]; rfl) rfl
  have hlist : asList EnumPair.ofJson (.array (pairs.map EnumPair.toJson)) = .ok pairs :=
    mapM_eq_ok EnumPair.ofJson_toJson pairs
  have hpairs : Record.get? ⟨"Enum", 2, true, sortMembers a.members⟩ "pairs"
      (asList EnumPair.ofJson) = .ok (some pairs) :=
    get?_fields a _ _ (by decide) (by rw [h]; rfl) hlist
  rw [fields_eq, asRecord_sortMembers]
  simp only [Payload.enumerationOfRecord, Record.getD, List.length_cons, List.length_nil, hname,
    hpairs]
  rfl

theorem ofFields_group {name : String} {parameters : List String}
    (h : a.payload = .group name parameters) :
    asRecord "Group" ["groupName", "parameters"] Payload.groupOfRecord a.fields =
      .ok (.group name parameters) := by
  have hname : Record.get? ⟨"Group", 2, true, sortMembers a.members⟩ "groupName" asText =
      .ok (some name) :=
    get?_fields a _ _ (by decide) (by rw [h]; rfl) rfl
  have hparameters : Record.get? ⟨"Group", 2, true, sortMembers a.members⟩ "parameters" asTexts =
      .ok (some parameters) :=
    get?_fields a _ _ (by decide) (by rw [h]; rfl) (asTexts_ofTexts parameters)
  rw [fields_eq, asRecord_sortMembers]
  simp only [Payload.groupOfRecord, Record.getD, List.length_cons, List.length_nil, hname,
    hparameters]
  rfl

/-- The payload is read from the fields by the kind of the annotation. -/
theorem ofFields_payload (h : ∀ x ∈ a.payload.numbers, x.isFinite = true) :
    Payload.ofFields a.fields a.kind = .ok a.payload := by
  rw [kind]
  cases hpayload : a.payload with
  | remove | required | expert => rfl
  | optional d | constant d =>
    rw [hpayload] at h
    have hread : DefaultValue.ofFields a.fields = .ok d :=
      ofFields_default (by rw [hpayload]; rfl) h
    rw [Payload.kind, Payload.ofFields, hread]
    rfl
  | boundary i =>
    rw [hpayload] at h
    have hfinite : i.lowerLimit.isFinite = true ∧ i.upperLimit.isFinite = true := by
      simpa [Payload.numbers] using h
    have hread : asField "Boundary" "interval" Interval.ofJson a.fields = .ok i :=
      asField_fields a _ (by decide) (by rw [hpayload]; rfl)
        (Interval.ofJson_toJson hfinite.1 hfinite.2)
    rw [Payload.kind, Payload.ofFields, hread]
    rfl
  | enumeration => exact ofFields_enumeration hpayload
  | group => exact ofFields_group hpayload
  | move => exact ofFields_text a "Move" .move (by decide) (by rw [hpayload]; rfl)
  | rename => exact ofFields_text a "Rename" .rename (by decide) (by rw [hpayload]; rfl)
  | description =>
    exact ofFields_text a "Description" .description (by decide) (by rw [hpayload]; rfl)
  | todo => exact ofFields_text a "Todo" .todo (by decide) (by rw [hpayload]; rfl)
  | calledAfter =>
    exact ofFields_text a "CalledAfter" .calledAfter (by decide) (by rw [hpayload]; rfl)

/-- The fields of an annotation with finite numbers are read as this annotation. -/
theorem ofFields_fields (h : ∀ x ∈ a.payload.numbers, x.isFinite = true) :
    Annotation.ofFields a.kind a.fields = .ok a := by
  have hcommon : asRecord "Annotation" ["target", "authors", "reviewers", "comment", "reviewResult"]
      Annotation.ofRecord a.fields = .ok fun payload =>
        ⟨a.target, a.authors, a.reviewers, a.comment, a.review, payload⟩ := by
    rw [fields_eq, asRecord_sortMembers, ofRecord_members]
  rw [ofFields, hcommon, ofFields_payload h]
  rfl

end Annotation

/-! ## What is written -/

namespace Json

theorem isUsable_of_isPrintable {v : Json} (h : v.isPrintable = true) : v.isUsable = true := by
  induction v using inductionOn with
  | array items ih =>
    exact areUsable_iff.2 fun v hv => ih v hv (arePrintable_iff.1 h v hv)
  | object members ih =>
    exact membersAreUsable_iff.2 fun m hm => ih m hm (membersArePrintable_iff.1 h m hm)
  | unusable => cases h
  | null | bool | integer | real | text => rfl

theorem isUsable_of_isFaithful {v : Json} (h : v.isFaithful = true) : v.isUsable = true :=
  isUsable_of_isPrintable (isPrintable_of_isFaithful h).1

/-- A value whose objects are sorted, that can be printed and read back, and that is nested no
deeper than a number of levels. -/
structure IsNeat (levels : Nat) (v : Json) : Prop where
  canonical : v.canonical = v
  isFaithful : v.isFaithful = true
  depth_le : v.depth ≤ levels

theorem IsNeat.mono {levels more : Nat} {v : Json} (h : IsNeat levels v) (hle : levels ≤ more) :
    IsNeat more v :=
  ⟨h.canonical, h.isFaithful, h.depth_le.trans hle⟩

theorem isNeat_text (s : String) : IsNeat 0 (.text s) :=
  ⟨rfl, rfl, le_rfl⟩

theorem isNeat_array {levels : Nat} {items : List Json} (h : ∀ v ∈ items, IsNeat levels v) :
    IsNeat (levels + 1) (.array items) where
  canonical := canonical_array_eq_self fun v hv => (h v hv).canonical
  isFaithful := areFaithful_iff.2 fun v hv => (h v hv).isFaithful
  depth_le := Nat.succ_le_succ (itemsDepth_le_iff.2 fun v hv => (h v hv).depth_le)

theorem isNeat_object {levels : Nat} {members : List (String × Json)} (hsorted : Sorted members)
    (h : ∀ m ∈ members, IsNeat levels m.2) : IsNeat (levels + 1) (.object members) where
  canonical := canonical_object_eq_self hsorted fun m hm => (h m hm).canonical
  isFaithful := membersAreFaithful_iff.2 fun m hm => (h m hm).isFaithful
  depth_le := Nat.succ_le_succ (membersDepth_le_iff.2 fun m hm => (h m hm).depth_le)

theorem isNeat_ofTexts (texts : List String) : IsNeat 1 (Json.ofTexts texts) := by
  refine isNeat_array fun v hv => ?_
  obtain ⟨s, -, rfl⟩ := List.mem_map.1 hv
  exact isNeat_text s

theorem isNeat_ofFloat {x : Float} (h : readsBack x = true) : IsNeat 0 (Json.ofFloat x) := by
  unfold Json.ofFloat
  split
  · exact ⟨rfl, h, le_rfl⟩
  · exact ⟨rfl, rfl, le_rfl⟩

end Json

theorem DefaultValue.isNeat_json (d : DefaultValue) (h : ∀ x ∈ d.numbers, readsBack x = true) :
    IsNeat 0 d.json := by
  cases d with
  | text s => exact isNeat_text s
  | number x => exact isNeat_ofFloat (h x (List.mem_singleton_self x))
  | boolean | absent => exact ⟨rfl, rfl, le_rfl⟩

theorem EnumPair.isNeat_toJson (p : EnumPair) : IsNeat 1 p.toJson := by
  have hkeys : ["instanceName", "stringValue"].Pairwise (· < ·) := by decide
  refine isNeat_object (sorted_of_keys hkeys rfl) ?_
  simp [isNeat_text]

theorem Interval.isNeat_toJson {i : Interval} (hlower : readsBack i.lowerLimit = true)
    (hupper : readsBack i.upperLimit = true) : IsNeat 1 i.toJson := by
  have hbool (b : Bool) : IsNeat 0 (.bool b) := ⟨rfl, rfl, le_rfl⟩
  have hcode (c : LimitCode) : IsNeat 0 (.integer c.toNat) := by
    cases c <;> exact ⟨rfl, rfl, le_rfl⟩
  have hkeys : ["isDiscrete", "lowerIntervalLimit", "lowerLimitType", "upperIntervalLimit",
      "upperLimitType"].Pairwise (· < ·) := by decide
  refine isNeat_object (sorted_of_keys hkeys rfl) ?_
  simp [hbool, hcode, isNeat_ofFloat hlower, isNeat_ofFloat hupper]

namespace Annotation

theorem isNeat_payload {p : Payload} (h : ∀ x ∈ p.numbers, readsBack x = true) :
    ∀ m ∈ p.members, IsNeat 2 m.2 := by
  have htext (s : String) : IsNeat 2 (.text s) := (isNeat_text s).mono (by decide)
  have htexts (texts : List String) : IsNeat 2 (Json.ofTexts texts) :=
    (isNeat_ofTexts texts).mono (by decide)
  cases p with
  | remove | required | expert => simp [Payload.members]
  | optional d | constant d =>
    have hjson : IsNeat 2 d.json := (d.isNeat_json h).mono (by decide)
    simp [Payload.members, DefaultValue.members, htext, hjson]
  | boundary i =>
    have hlimits : readsBack i.lowerLimit = true ∧ readsBack i.upperLimit = true := by
      simpa [Payload.numbers] using h
    have hinterval : IsNeat 2 i.toJson :=
      (Interval.isNeat_toJson hlimits.1 hlimits.2).mono (by decide)
    simp [Payload.members, hinterval]
  | enumeration name pairs =>
    have hpairs : IsNeat 2 (.array (pairs.map EnumPair.toJson)) := by
      refine isNeat_array fun v hv => ?_
      obtain ⟨p, -, rfl⟩ := List.mem_map.1 hv
      exact p.isNeat_toJson
    simp [Payload.members, htext, hpairs]
  | group | move | rename | description | todo | calledAfter =>
    simp [Payload.members, htext, htexts]

/-- The fields of an annotation are sorted throughout, and they can be printed and read back if its
numbers can. -/
theorem isNeat_fields {a : Annotation} (h : ∀ x ∈ a.payload.numbers, readsBack x = true) :
    IsNeat 3 a.fields := by
  refine isNeat_object (sorted_sortMembers a.members) fun m hm => ?_
  have hmem : m ∈ a.members := a.distinct_members.perm_sortMembers.mem_iff.1 hm
  have htext (s : String) : IsNeat 2 (.text s) := (isNeat_text s).mono (by decide)
  have htexts (texts : List String) : IsNeat 2 (Json.ofTexts texts) :=
    (isNeat_ofTexts texts).mono (by decide)
  have hall : ∀ m ∈ a.members, IsNeat 2 m.2 := by
    rw [members, List.forall_mem_append]
    exact ⟨by simp [htext, htexts], isNeat_payload h⟩
  exact hall m hmem

end Annotation

end ApiEvolution
