import Mathlib.Data.List.Find
import ApiEvolution.Proofs.Acceptance
import ApiEvolution.Proofs.AnnotationFields
import ApiEvolution.Proofs.Reordering

/-!
# Documents of snapshots read back

The document of a snapshot is read as this snapshot, and so is every document that differs from it
in the types of its records only (`read_write_anyTypes`). No number has to be given back by its
digits for that: numbers occur only in types.

* `ofJson_withoutTypes`: the types of records are not read, in any document.
* `Element.ofJson_members`: the record of an element is read as this element.
* `ofJson_toJson`: the document of a snapshot has the snapshot's elements in their order, which is
  all that the indices of the snapshot depend on.
-/

namespace ApiEvolution

open Json

/-! ## Fields of objects -/

namespace Json

section

variable {α : Type} {members others : List (String × Json)} {name : String}
  {read : Json → Reading α}

theorem Record.get?_congr {r r' : Record}
    (h : (lookup name r.fields).map read = (lookup name r'.fields).map read) :
    r.get? name read = r'.get? name read := by
  unfold Record.get?
  cases hr : lookup name r.fields <;> cases hr' : lookup name r'.fields <;> simp_all

/-- A field that is absent from an object is reported by its name alone. -/
theorem Record.get_congr {shape : String} {size : Nat}
    (h : (lookup name members).map read = (lookup name others).map read) :
    Record.get ⟨shape, size, true, members⟩ name read =
      Record.get ⟨shape, size, true, others⟩ name read := by
  have hfield : Record.get? ⟨shape, size, true, members⟩ name read =
      Record.get? ⟨shape, size, true, others⟩ name read :=
    Record.get?_congr h
  rw [Record.get, Record.get, hfield]
  rfl

theorem lookup_filter_ne {key : String} (h : name ≠ key) :
    lookup name (members.filter fun m => m.1 ≠ key) = lookup name members := by
  rw [lookup, lookup, List.find?_filter]
  congr 1
  refine List.find?_congr fun m _ => ?_
  by_cases hm : m.1 = name <;> simp [hm, h]

theorem lookup_map (f : String → Json → Json) :
    lookup name (members.map fun m => (m.1, f m.1 m.2)) = (lookup name members).map (f name) := by
  induction members with
  | nil => rfl
  | cons m members ih =>
    rw [List.map_cons, lookup_cons, lookup_cons, ih]
    by_cases hm : m.1 = name <;> simp [hm]

/-- Which key is repeated can be said by how often each name is a key. -/
theorem repeatedKey?_congr {names : List String}
    (h : ∀ n ∈ names, (members.countP fun m => m.1 = n) = others.countP fun m => m.1 = n) :
    repeatedKey? names members = repeatedKey? names others :=
  List.find?_congr fun n hn => by rw [h n hn]

end

end Json

/-! ## Types are not read -/

namespace Json

section

variable {α : Type} {members : List (String × Json)}

/-- A record without its type. -/
def withoutType : Json → Json
  | .object members => .object (members.filter fun m => m.1 ≠ "type")
  | v => v

theorem countP_filter_ne {name key : String} (h : name ≠ key) :
    ((members.filter fun m => m.1 ≠ key).countP fun m => m.1 = name) =
      members.countP fun m => m.1 = name := by
  rw [List.countP_filter]
  refine List.countP_congr fun m _ => ?_
  by_cases hm : m.1 = name <;> simp [hm, h]

/-- A structure that has no field `type` is read the same without it. -/
theorem asRecord_withoutType {shape : String} {names : List String} {read : Record → Reading α}
    (h : "type" ∉ names)
    (hread : ∀ members, read ⟨shape, names.length, true, members.filter fun m => m.1 ≠ "type"⟩ =
      read ⟨shape, names.length, true, members⟩) (v : Json) :
    asRecord shape names read v.withoutType = asRecord shape names read v := by
  cases v with
  | object members =>
    have hkeys : repeatedKey? names (members.filter fun m => m.1 ≠ "type") =
        repeatedKey? names members :=
      repeatedKey?_congr fun n hn => countP_filter_ne fun heq => h (heq ▸ hn)
    rw [withoutType, asRecord, asRecord, hkeys, hread]
  | _ => rfl

variable {shape name : String} {size : Nat} {read : Json → Reading α}

theorem Record.get?_withoutType (h : name ≠ "type") :
    Record.get? ⟨shape, size, true, members.filter fun m => m.1 ≠ "type"⟩ name read =
      Record.get? ⟨shape, size, true, members⟩ name read :=
  Record.get?_congr (by rw [lookup_filter_ne h])

theorem Record.get_withoutType (h : name ≠ "type") :
    Record.get ⟨shape, size, true, members.filter fun m => m.1 ≠ "type"⟩ name read =
      Record.get ⟨shape, size, true, members⟩ name read :=
  Record.get_congr (by rw [lookup_filter_ne h])

end

end Json

theorem ClassDecl.ofJson_withoutType (v : Json) :
    ClassDecl.ofJson v.withoutType = ClassDecl.ofJson v :=
  asRecord_withoutType (by decide) (fun members => by
    simp (disch := decide) only [Record.getD, Record.get?_withoutType, Record.get_withoutType]) v

theorem FunctionDecl.ofJson_withoutType (v : Json) :
    FunctionDecl.ofJson v.withoutType = FunctionDecl.ofJson v :=
  asRecord_withoutType (by decide) (fun members => by
    simp (disch := decide) only [Record.getD, Record.get?_withoutType, Record.get_withoutType]) v

theorem ParameterDecl.ofJson_withoutType (v : Json) :
    ParameterDecl.ofJson v.withoutType = ParameterDecl.ofJson v :=
  asRecord_withoutType (by decide) (fun members => by
    simp (disch := decide) only [Record.getD, Record.getOption, Record.get?_withoutType,
      Record.get_withoutType]) v

theorem MemberDecl.ofJson_withoutType (shape : String) (v : Json) :
    MemberDecl.ofJson shape v.withoutType = MemberDecl.ofJson shape v :=
  asRecord_withoutType (by decide) (fun members => by
    simp (disch := decide) only [Record.getD, Record.getOption, Record.get?_withoutType,
      Record.get_withoutType]) v

theorem Element.ofJson_withoutType (kind : ElementKind) (v : Json) :
    Element.ofJson kind v.withoutType = Element.ofJson kind v := by
  cases kind <;>
    simp only [Element.ofJson, ClassDecl.ofJson_withoutType, FunctionDecl.ofJson_withoutType,
      ParameterDecl.ofJson_withoutType, MemberDecl.ofJson_withoutType]

namespace Snapshot

/-- What a document has under a key, where the records of a kind lose their types. -/
def sectionWithoutTypes (key : String) : Json → Json
  | .array items =>
    if key ∈ ElementKind.all.map ElementKind.documentKey then .array (items.map withoutType)
    else .array items
  | v => v

/-- A document without the types of its records. -/
def withoutTypes : Json → Json
  | .object members => .object (members.map fun m => (m.1, sectionWithoutTypes m.1 m.2))
  | v => v

theorem sectionWithoutTypes_of_not_mem {key : String}
    (h : key ∉ ElementKind.all.map ElementKind.documentKey) : sectionWithoutTypes key = id := by
  funext v
  cases v with
  | array items => exact if_neg h
  | _ => rfl

theorem asList_sectionWithoutTypes (kind : ElementKind) (v : Json) :
    asList (Element.ofJson kind) (sectionWithoutTypes kind.documentKey v) =
      asList (Element.ofJson kind) v := by
  cases v with
  | array items =>
    rw [sectionWithoutTypes, if_pos (List.mem_map_of_mem kind.mem_all), asList, asList,
      List.mapM_map]
    exact congrArg (items.mapM ·) (funext (Element.ofJson_withoutType kind))
  | _ => rfl

theorem Outline.ofRecord_withoutTypes (shape : String) (size : Nat)
    (members : List (String × Json)) :
    Outline.ofRecord ⟨shape, size, true, members.map fun m => (m.1, sectionWithoutTypes m.1 m.2)⟩ =
      Outline.ofRecord ⟨shape, size, true, members⟩ := by
  have hheader : ∀ name, name ∉ ElementKind.all.map ElementKind.documentKey →
      Record.get ⟨shape, size, true, members.map fun m => (m.1, sectionWithoutTypes m.1 m.2)⟩ name
        asText = Record.get ⟨shape, size, true, members⟩ name asText := by
    intro name hname
    refine Record.get_congr ?_
    rw [lookup_map, sectionWithoutTypes_of_not_mem hname, Option.map_id_fun, id]
  have hkinds : ∀ kind : ElementKind,
      Record.getD ⟨shape, size, true, members.map fun m => (m.1, sectionWithoutTypes m.1 m.2)⟩
          kind.documentKey (asList (Element.ofJson kind)) [] =
        Record.getD ⟨shape, size, true, members⟩ kind.documentKey (asList (Element.ofJson kind))
          [] := by
    intro kind
    rw [Record.getD, Record.getD]
    congr 1
    refine Record.get?_congr ?_
    rw [lookup_map, Option.map_map]
    exact congrArg (Option.map · _) (funext (asList_sectionWithoutTypes kind))
  simp (disch := decide) only [Outline.ofRecord, hheader, hkinds]

/-- What a document describes does not depend on the types in its records. -/
theorem ofJson_withoutTypes (v : Json) : Outline.ofJson (withoutTypes v) = Outline.ofJson v := by
  cases v with
  | object members =>
    have hkeys : ∀ names, repeatedKey? names
        (members.map fun m => (m.1, sectionWithoutTypes m.1 m.2)) = repeatedKey? names members :=
      fun names => repeatedKey?_congr fun n _ => by
        rw [List.countP_map]
        rfl
    rw [withoutTypes, Outline.ofJson, asRecord, asRecord, hkeys, Outline.ofRecord_withoutTypes]
  | _ => rfl

end Snapshot

/-! ## Records read back -/

theorem asOption_optionalText (text? : Option String) :
    asOption asText (optionalText text?) = .ok text? := by
  cases text? <;> rfl

theorem Assignment.asConstant_name (a : Assignment) :
    asConstant isNull Assignment.byName (.text a.name) = .ok a := by
  cases a <;> rfl

theorem ParameterDoc.ofJson_toJson (d : ParameterDoc) : ParameterDoc.ofJson d.toJson = .ok d := by
  rw [ParameterDoc.toJson, ParameterDoc.ofJson, asRecord_object (by simp [Distinct])]
  simp [Record.getD, Record.get?, lookup_cons, asText]
  rfl

theorem MemberDoc.ofJson_toJson (d : MemberDoc) : MemberDoc.ofJson d.toJson = .ok d := by
  rw [MemberDoc.toJson, MemberDoc.ofJson, asRecord_object (by simp [Distinct])]
  simp [Record.getD, Record.get?, lookup_cons, asText]
  rfl

theorem ClassDecl.ofJson_members (c : ClassDecl) :
    ClassDecl.ofJson (.object c.members) = .ok c := by
  rw [ClassDecl.ofJson, asRecord_object (by simp [Distinct, ClassDecl.members])]
  simp [ClassDecl.members, Record.get, Record.getD, Record.get?, Record.need, lookup_cons, asText,
    asBool]
  rfl

theorem FunctionDecl.ofJson_members (f : FunctionDecl) :
    FunctionDecl.ofJson (.object f.members) = .ok f := by
  rw [FunctionDecl.ofJson, asRecord_object (by simp [Distinct, FunctionDecl.members])]
  simp [FunctionDecl.members, Record.get, Record.getD, Record.get?, Record.need, lookup_cons,
    asText, asBool]
  rfl

/-- The type is computed anew, from what it was computed of before. -/
theorem ParameterDecl.ofJson_members (p : ParameterDecl) :
    ParameterDecl.ofJson (.object p.members) = .ok p := by
  obtain ⟨id, qname, defaultValue, assignedBy, isPublic, doc, typeHint, type, rfl⟩ := p
  rw [ParameterDecl.ofJson, asRecord_object (by simp [Distinct, ParameterDecl.members])]
  simp [ParameterDecl.members, Record.get, Record.getD, Record.getOption, Record.get?, Record.need,
    lookup_cons, asText, asBool, asOption_optionalText, Assignment.asConstant_name,
    ParameterDoc.ofJson_toJson]
  rfl

theorem MemberDecl.ofJson_members (shape : String) (m : MemberDecl) :
    MemberDecl.ofJson shape (.object m.members) = .ok m := by
  obtain ⟨id, name, doc, typeHint, type, rfl⟩ := m
  rw [MemberDecl.ofJson, asRecord_object (by simp [Distinct, MemberDecl.members])]
  simp [MemberDecl.members, Record.get, Record.getD, Record.getOption, Record.get?, Record.need,
    lookup_cons, asText, asOption_optionalText, MemberDoc.ofJson_toJson]
  rfl

theorem Element.ofJson_members (e : Element) :
    Element.ofJson e.kind (.object e.members) = .ok e := by
  cases e <;>
    simp only [Element.kind, Element.ofJson, Element.members, ClassDecl.ofJson_members,
      FunctionDecl.ofJson_members, ParameterDecl.ofJson_members, MemberDecl.ofJson_members] <;>
    rfl

/-! ## Documents read back -/

namespace Snapshot

variable (s : Snapshot)

theorem asList_elements (kind : ElementKind) :
    asList (Element.ofJson kind) (.array ((s.elements kind).map fun e => .object e.members)) =
      .ok (s.elements kind) := by
  refine asList_eq_ok_iff.2 ⟨_, rfl, ?_⟩
  rw [List.forall₂_map_left_iff, List.forall₂_same]
  intro e he
  rw [← kind_of_mem_elements he]
  exact Element.ofJson_members e

/-- The document of a snapshot has the header and all elements of the snapshot. -/
theorem ofJson_toJson :
    Outline.ofJson s.toJson = .ok ⟨s.distribution, s.package, s.version, s.allElements⟩ := by
  have hdistinct : Distinct ([("distribution", Json.text s.distribution),
      ("package", .text s.package), ("version", .text s.version)] ++ ElementKind.all.map fun k =>
        (k.documentKey, .array ((s.elements k).map fun e => .object e.members))) := by
    simp [Distinct, ElementKind.all, ElementKind.documentKey]
  have hgroups : ∀ kind : ElementKind, asList (Element.ofJson kind)
      (.array ((s.elements kind).map fun e => .object e.members)) = .ok (s.elements kind) :=
    s.asList_elements
  rw [toJson, Outline.ofJson, asRecord_object hdistinct]
  simp [Outline.ofRecord, Record.get, Record.getD, Record.get?, Record.need, lookup_cons, asText,
    ElementKind.all, ElementKind.documentKey, hgroups, allElements]
  rfl

end Snapshot

/-! ## Written texts -/

theorem isFaithful_ofTexts (texts : List String) : (Json.ofTexts texts).isFaithful = true := by
  refine areFaithful_iff.2 fun v hv => ?_
  obtain ⟨s, -, rfl⟩ := List.mem_map.1 hv
  rfl

theorem isFaithful_optionalText (text? : Option String) :
    (optionalText text?).isFaithful = true := by
  cases text? <;> rfl

theorem Limit.isPrintable_toJson (symbol : String) (l : Limit) :
    (l.toJson symbol).isPrintable = true := by
  have hfloat : ∀ x, (Json.ofFloat x).isPrintable = true := by
    intro x
    unfold Json.ofFloat
    split <;> rfl
  cases l with
  | unbounded => rfl
  | inclusive x => exact hfloat x
  | exclusive x => exact hfloat x

namespace ValueType

mutual

/-- The document of a type can be printed, for a limit that is no number is written as null. -/
theorem isPrintable_toJson : ∀ t : ValueType, t.toJson.isPrintable = true
  | .named _ => rfl
  | .enumeration values => by
    simp [toJson, isPrintable, membersArePrintable,
      (isPrintable_of_isFaithful (isFaithful_ofTexts values)).1]
  | .boundary b => by
    simp [toJson, Boundary.members, isPrintable, membersArePrintable, Limit.isPrintable_toJson]
  | .union ms => by
    simp [toJson, isPrintable, membersArePrintable, arePrintable_allToJson ms]

theorem arePrintable_allToJson : ∀ ts : List ValueType, arePrintable (allToJson ts) = true
  | [] => rfl
  | t :: rest => by
    simp [allToJson, arePrintable, isPrintable_toJson t, arePrintable_allToJson rest]

end

theorem isPrintable_optionToJson (t? : Option ValueType) :
    (optionToJson t?).isPrintable = true := by
  cases t? with
  | none => rfl
  | some t => exact t.isPrintable_toJson

end ValueType

namespace Element

/-- Only the type of a record may be read as something else than what is written. -/
theorem members_cases (e : Element) :
    ∀ m ∈ e.members, m.2.isFaithful = true ∨ m = ("type", ValueType.optionToJson e.type) := by
  cases e <;>
    simp [members, type, ClassDecl.members, FunctionDecl.members, ParameterDecl.members,
      MemberDecl.members, ParameterDoc.toJson, MemberDoc.toJson, isFaithful, membersAreFaithful,
      isFaithful_ofTexts, isFaithful_optionalText]

theorem isPrintable_members (e : Element) : (Json.object e.members).isPrintable = true := by
  refine membersArePrintable_iff.2 fun m hm => ?_
  rcases e.members_cases m hm with hfaithful | rfl
  · exact (isPrintable_of_isFaithful hfaithful).1
  · exact ValueType.isPrintable_optionToJson e.type

theorem withoutType_reread (e : Element) :
    (Json.object e.members).reread.withoutType = (Json.object e.members).withoutType := by
  have hkept : ∀ m ∈ e.members.filter fun m => m.1 ≠ "type", (m.1, m.2.reread) = m := by
    intro m hm
    obtain ⟨hmem, hkey⟩ := List.mem_filter.1 hm
    rcases e.members_cases m hmem with hfaithful | rfl
    · rw [(isPrintable_of_isFaithful hfaithful).2]
    · simp at hkey
  rw [reread, rereadMembers_eq, withoutType, withoutType, List.filter_map]
  exact congrArg Json.object ((List.map_congr_left hkept).trans (List.map_id' _))

end Element

namespace Snapshot

variable (s : Snapshot)

theorem exists_members_toJson {P : String × Json → Prop}
    (header : ∀ name ∈ ["distribution", "package", "version"], ∀ value, P (name, .text value))
    (kinds : ∀ kind, P (kind.documentKey,
      .array ((s.elements kind).map fun e => .object e.members))) :
    ∃ members, s.toJson = .object members ∧ ∀ m ∈ members, P m := by
  refine ⟨_, rfl, ?_⟩
  simp only [List.forall_mem_append, List.forall_mem_cons, List.forall_mem_map]
  exact ⟨⟨header _ (by simp) _, header _ (by simp) _, header _ (by simp) _, by simp⟩,
    fun kind _ => kinds kind⟩

theorem isPrintable_toJson : s.toJson.isPrintable = true := by
  obtain ⟨members, hmembers, hall⟩ := s.exists_members_toJson (P := fun m => m.2.isPrintable = true)
    (fun _ _ _ => rfl) fun kind => arePrintable_iff.2 (by simp [Element.isPrintable_members])
  rw [hmembers]
  exact membersArePrintable_iff.2 hall

/-- Printing and reading a document may change numbers, and only types have numbers. -/
theorem withoutTypes_reread : withoutTypes s.toJson.reread = withoutTypes s.toJson := by
  obtain ⟨members, hmembers, hall⟩ := s.exists_members_toJson
    (P := fun m => sectionWithoutTypes m.1 m.2.reread = sectionWithoutTypes m.1 m.2)
    (fun _ _ _ => rfl) fun kind => by
      have hkey := List.mem_map_of_mem (f := ElementKind.documentKey) kind.mem_all
      rw [reread, rereadItems_eq, sectionWithoutTypes, sectionWithoutTypes, if_pos hkey,
        if_pos hkey, List.map_map, List.map_map, List.map_map]
      exact congrArg Json.array (List.map_congr_left fun e _ => e.withoutType_reread)
  rw [hmembers, reread, rereadMembers_eq, withoutTypes, withoutTypes, List.map_map]
  exact congrArg Json.object (List.map_congr_left fun m hm => congrArg (Prod.mk m.1) (hall m hm))

variable {s}

/-- An accepted snapshot is read from every document that is its own apart from the types of the
records. Its own text is one of them. -/
theorem read_write_anyTypes {text : String} (h : read text = .ok s) :
    read s.write = .ok s ∧
      ∀ text' v, Json.read? text' = some v → withoutTypes v = withoutTypes s.toJson →
        read text' = .ok s := by
  have hread : ∀ text' v, Json.read? text' = some v → withoutTypes v = withoutTypes s.toJson →
      read text' = .ok s := by
    intro text' v hv hsame
    obtain ⟨_, o, -, -, hsound, rfl, helements⟩ := exists_outline_of_read h
    obtain ⟨hdistribution, hpackage, hversion⟩ := header_ofOutline (o := o)
    have houtline : Outline.ofJson v = .ok o := by
      rw [← ofJson_withoutTypes, hsame, ofJson_withoutTypes, ofJson_toJson, hdistribution,
        hpackage, hversion, helements]
    rw [read_of_outline hv houtline]
    exact ofOutline?_eq_ok_iff_sound.2 ⟨hsound, rfl⟩
  exact ⟨hread _ _ (read?_pretty_reread s.isPrintable_toJson) s.withoutTypes_reread, hread⟩

theorem read_write_anyTypes_smallLibrary :
    ∃ s, read smallLibrary.pretty = .ok s ∧ s.size = 5 ∧
      s.attributes.map (fun a => a.type.map ValueType.family) = [some .union] ∧
      read s.write = .ok s ∧
      ∀ text' v, Json.read? text' = some v → withoutTypes v = withoutTypes s.toJson →
        read text' = .ok s := by
  have hv : Json.read? smallLibrary.pretty = some smallLibrary := read?_pretty (by decide)
  have haccepted : (read smallLibrary.pretty).toOption.any (fun s => s.size = 5 ∧
      s.attributes.map (fun a => a.type.map ValueType.family) = [some .union]) = true := by
    rw [read, hv]
    decide +kernel
  obtain ⟨s, hs, h⟩ := exists_eq_ok_of_any haccepted
  obtain ⟨hsize, htype⟩ := of_decide_eq_true h
  exact ⟨s, hs, hsize, htype, read_write_anyTypes hs⟩

end Snapshot

end ApiEvolution
