import Mathlib.Tactic.Common
import ApiEvolution.Proofs.PrintedValues
import ApiEvolution.Proofs.TypeDocuments
import ApiEvolution.Proofs.WellFormedTypes
import ApiEvolution.Snapshot.Fingerprint

/-!
# What the evidence of a fingerprint keeps

The fingerprint of a parameter, an attribute or a result is taken of a text. Two elements of a kind
have the same text exactly if they agree in everything but what locates them
(`evidence_tells_content`): the identity and the qualified name leave no trace, and every other
field does, each optional text, each part of the documentation and the whole type.

The text is the compact form of a value, which it determines (`Json.compact_inj`). The value is an
object in canonical form, which is told by what is found under each key (`recordText_eq_iff`). What
is left is one key at a time: each field is told by the value under its key.
-/

namespace ApiEvolution

open Json

/-! ## Records -/

/-- The text of a record, given the name of the element. -/
def recordText (members : List (String × Json)) (name : String) : String :=
  (sortedObject ((members.filter fun m => m.1 ≠ "id" && m.1 ≠ "qname") ++
    [("name", .text name)])).canonical.compact

/-- The record of an element with another type in the place of its own. -/
def withType (type : Option ValueType) (members : List (String × Json)) : List (String × Json) :=
  put "type" (ValueType.optionToJson type) members

section Records

variable {members others : List (String × Json)} {name name' key : String}

/-- The keys of a record that are left out of its text or replaced there. -/
def locatingKeys : List String :=
  ["id", "qname", "name"]

theorem ne_of_not_mem_locatingKeys (h : key ∉ locatingKeys) :
    ¬ "id" = key ∧ ¬ "qname" = key ∧ ¬ "name" = key := by
  simp only [locatingKeys, List.mem_cons, List.not_mem_nil, or_false, not_or] at h
  exact ⟨Ne.symm h.1, Ne.symm h.2.1, Ne.symm h.2.2⟩

theorem lookup_located (h : key ∉ locatingKeys) (members : List (String × Json)) :
    lookup key (members.filter fun m => m.1 ≠ "id" && m.1 ≠ "qname") = lookup key members := by
  obtain ⟨hid, hqname, -⟩ := ne_of_not_mem_locatingKeys h
  rw [lookup, lookup, List.find?_filter]
  congr 1
  refine List.find?_congr fun m _ => ?_
  by_cases hm : m.1 = key <;> simp [hm, Ne.symm hid, Ne.symm hqname]

theorem lookup_sortMembers_located (h : Distinct members) (key : String) :
    lookup key (sortMembers ((members.filter fun m => m.1 ≠ "id" && m.1 ≠ "qname") ++
      [("name", .text name)])) =
      if key = "name" then some (.text name)
      else if key ∈ locatingKeys then none else lookup key members := by
  have hdistinct : Distinct (members.filter fun m => m.1 ≠ "id" && m.1 ≠ "qname") :=
    List.Nodup.sublist (List.filter_sublist.map _) h
  rw [lookup_sortMembers_concat, hdistinct.lookup_sortMembers]
  by_cases hname : key = "name"
  · rw [if_pos hname.symm, if_pos hname]
  rw [if_neg (Ne.symm hname), if_neg hname]
  split
  · next hkey =>
    have hfiltered : key = "id" ∨ key = "qname" := by
      simpa [locatingKeys, hname] using hkey
    rw [lookup, List.find?_filter, Option.map_eq_none_iff, List.find?_eq_none]
    intro m _
    rcases hfiltered with rfl | rfl <;> simp +contextual
  · next hkey => exact lookup_located hkey members

/-- Records have the same text exactly if the names are the same and so is what is found under every
key that is not left out. -/
theorem recordText_eq_iff (h : Distinct members) (hothers : Distinct others)
    (husable : ∀ m ∈ members, m.2.isUsable = true) (husable' : ∀ m ∈ others, m.2.isUsable = true) :
    recordText members name = recordText others name' ↔ name = name' ∧
      ∀ key ∉ locatingKeys,
        (lookup key members).map canonical = (lookup key others).map canonical := by
  have hrecord : ∀ {members : List (String × Json)} {name}, (∀ m ∈ members, m.2.isUsable = true) →
      (sortedObject ((members.filter fun m => m.1 ≠ "id" && m.1 ≠ "qname") ++
        [("name", .text name)])).canonical.isUsable = true := by
    intro members name hmembers
    refine isUsable_canonical (membersAreUsable_iff.2 fun m hm => ?_)
    rcases List.mem_append.1 (mem_of_mem_sortMembers hm) with hm | hm
    · exact hmembers m (List.mem_of_mem_filter hm)
    · obtain rfl := List.mem_singleton.1 hm
      rfl
  have hcanonical : recordText members name = recordText others name' ↔
      ∀ key, (if key = "name" then some (text name)
          else if key ∈ locatingKeys then none else lookup key members).map canonical =
        (if key = "name" then some (text name')
          else if key ∈ locatingKeys then none else lookup key others).map canonical := by
    simp only [← lookup_sortMembers_located h, ← lookup_sortMembers_located hothers]
    rw [← canonical_object_eq_iff (sorted_sortMembers _).distinct (sorted_sortMembers _).distinct]
    exact ⟨compact_inj (hrecord husable) (hrecord husable'), congrArg compact⟩
  rw [hcanonical]
  constructor
  · intro hkeys
    refine ⟨?_, fun key hkey => ?_⟩
    · simpa [canonical] using hkeys "name"
    · have hname : key ≠ "name" := by
        rintro rfl
        exact hkey (by decide)
      simpa [hname, hkey] using hkeys key
  · rintro ⟨rfl, hkeys⟩ key
    split
    · rfl
    · split
      · rfl
      · next hkey => exact hkeys key hkey

end Records

/-! ## Fields -/

theorem optionalText_canonical_inj {s t : Option String}
    (h : (optionalText s).canonical = (optionalText t).canonical) : s = t := by
  cases s <;> cases t <;> simp [optionalText, canonical] at h ⊢
  exact h

theorem Assignment.name_inj {a b : Assignment} (h : a.name = b.name) : a = b := by
  have ha := Assignment.asConstant_name a
  rw [h, Assignment.asConstant_name] at ha
  exact (Except.ok.inj ha).symm

theorem ParameterDoc.canonical_inj {d e : ParameterDoc}
    (h : d.toJson.canonical = e.toJson.canonical) : d = e := by
  rw [toJson, toJson, canonical_object_eq_iff (by simp [Distinct]) (by simp [Distinct])] at h
  have htype := h "type"
  have hdefault := h "default_value"
  have hdescription := h "description"
  simp [lookup_cons, canonical] at htype hdefault hdescription
  cases d
  cases e
  simp_all

theorem MemberDoc.canonical_inj {d e : MemberDoc}
    (h : d.toJson.canonical = e.toJson.canonical) : d = e := by
  rw [toJson, toJson, canonical_object_eq_iff (by simp [Distinct]) (by simp [Distinct])] at h
  have htype := h "type"
  have hdescription := h "description"
  simp [lookup_cons, canonical] at htype hdescription
  cases d
  cases e
  simp_all

theorem optionToJson_canonical_inj {t u : Option ValueType} (hlimits : ∀ x ∈ t, x.HasFiniteLimits)
    (h : (ValueType.optionToJson t).canonical = (ValueType.optionToJson u).canonical) : t = u := by
  cases t with
  | none =>
    cases u with
    | none => rfl
    | some u =>
      rw [ValueType.optionToJson, ValueType.optionToJson, ValueType.toJson_eq, canonical] at h
      cases h
  | some t =>
    cases u with
    | none =>
      rw [ValueType.optionToJson, ValueType.optionToJson, ValueType.toJson_eq, canonical] at h
      cases h
    | some u => rw [ValueType.toJson_canonical_inj (hlimits t rfl) h]

/-- A computed type has finite limits. -/
theorem ValueType.IsWellFormed.hasFiniteLimits {t : ValueType} (h : t.IsWellFormed) :
    t.HasFiniteLimits := by
  have hmember : ∀ m : ValueType, m.IsProperMember → m.HasFiniteLimits := by
    intro m hm
    cases m with
    | named | enumeration => exact List.forall_mem_singleton.2 nofun
    | boundary b =>
      refine List.forall_mem_singleton.2 ?_
      rintro _ ⟨⟩
      exact hm.finite
    | union ms => exact hm.elim
  cases t with
  | union ms => exact hasFiniteLimits_union_iff.2 fun m hm => hmember m (h.proper m hm)
  | _ => exact hmember _ (h.proper _ List.mem_cons_self)

/-! ## Elements -/

theorem Element.isUsable_withType (e : Element) (type : Option ValueType) :
    ∀ m ∈ withType type e.members, m.2.isUsable = true := by
  intro m hm
  rcases mem_of_mem_put hm with rfl | hm
  · exact isUsable_of_isPrintable (ValueType.isPrintable_optionToJson type)
  · exact isUsable_of_isPrintable (membersArePrintable_iff.1 e.isPrintable_members m hm)

namespace ParameterDecl

variable {type : Option ValueType}

theorem withType_type (p : ParameterDecl) : withType p.type p.members = p.members := by
  simp [withType, members, put]

theorem distinct_withType (p : ParameterDecl) : Distinct (withType type p.members) :=
  Distinct.put (by simp [Distinct, members])

theorem hasFiniteLimits (p : ParameterDecl) : ∀ t ∈ p.type, t.HasFiniteLimits := by
  intro t ht
  rw [p.type_eq] at ht
  exact (TypeText.isWellFormed_of_resolve ht).hasFiniteLimits

/-- What is found in the record of a parameter with some type. -/
theorem lookup_withType (p : ParameterDecl) (key : String) : lookup key (withType type p.members) =
    if "id" = key then some (.text p.id)
    else if "qname" = key then some (.text p.qname)
    else if "default_value" = key then some (optionalText p.defaultValue)
    else if "assigned_by" = key then some (.text p.assignedBy.name)
    else if "is_public" = key then some (.bool p.isPublic)
    else if "docstring" = key then some p.doc.toJson
    else if "type_hint" = key then some (optionalText p.typeHint)
    else if "type" = key then some (ValueType.optionToJson type)
    else none := by
  simp only [withType, members, put, String.reduceEq, if_false, if_true, lookup_cons]
  rfl

/-- Parameters with any types have the same text exactly if they have the same name and agree in
everything but the identity and the qualified name. -/
theorem recordText_withType_eq_iff (p q : ParameterDecl) {t u : Option ValueType}
    (hlimits : ∀ x ∈ t, x.HasFiniteLimits) :
    recordText (withType t p.members) p.name = recordText (withType u q.members) q.name ↔
      p.name = q.name ∧ p.defaultValue = q.defaultValue ∧ p.assignedBy = q.assignedBy ∧
        p.isPublic = q.isPublic ∧ p.doc = q.doc ∧ p.typeHint = q.typeHint ∧ t = u := by
  rw [recordText_eq_iff p.distinct_withType q.distinct_withType
    (Element.isUsable_withType (.ofParameter p) t) (Element.isUsable_withType (.ofParameter q) u)]
  simp only [lookup_withType]
  refine and_congr_right fun _ => ?_
  constructor
  · intro h
    have hdefault := Option.some.inj (h "default_value" (by decide))
    have hassigned := Option.some.inj (h "assigned_by" (by decide))
    have hpublic := Option.some.inj (h "is_public" (by decide))
    have hdoc := Option.some.inj (h "docstring" (by decide))
    have hhint := Option.some.inj (h "type_hint" (by decide))
    have htype := Option.some.inj (h "type" (by decide))
    exact ⟨optionalText_canonical_inj hdefault, Assignment.name_inj (Json.text.inj hassigned),
      Json.bool.inj hpublic, ParameterDoc.canonical_inj hdoc, optionalText_canonical_inj hhint,
      optionToJson_canonical_inj hlimits htype⟩
  · rintro ⟨hdefault, hassigned, hpublic, hdoc, hhint, rfl⟩ key hkey
    obtain ⟨hid, hqname, -⟩ := ne_of_not_mem_locatingKeys hkey
    rw [if_neg hid, if_neg hqname, if_neg hid, if_neg hqname, hdefault, hassigned, hpublic, hdoc,
      hhint]

end ParameterDecl

namespace MemberDecl

variable {type : Option ValueType}

theorem withType_type (m : MemberDecl) : withType m.type m.members = m.members := by
  simp [withType, members, put]

theorem distinct_withType (m : MemberDecl) : Distinct (withType type m.members) :=
  Distinct.put (by simp [Distinct, members])

theorem hasFiniteLimits (m : MemberDecl) : ∀ t ∈ m.type, t.HasFiniteLimits := by
  intro t ht
  rw [m.type_eq] at ht
  exact (TypeText.isWellFormed_of_resolve ht).hasFiniteLimits

/-- What is found in the record of an attribute or a result with some type. -/
theorem lookup_withType (m : MemberDecl) (key : String) : lookup key (withType type m.members) =
    if "id" = key then some (.text m.id)
    else if "name" = key then some (.text m.name)
    else if "docstring" = key then some m.doc.toJson
    else if "type_hint" = key then some (optionalText m.typeHint)
    else if "type" = key then some (ValueType.optionToJson type)
    else none := by
  simp only [withType, members, put, String.reduceEq, if_false, if_true, lookup_cons]
  rfl

/-- Attributes, and results, with any types have the same text exactly if they agree in everything
but the identity. -/
theorem recordText_withType_eq_iff (a b : MemberDecl) {t u : Option ValueType}
    (hlimits : ∀ x ∈ t, x.HasFiniteLimits) :
    recordText (withType t a.members) a.name = recordText (withType u b.members) b.name ↔
      a.name = b.name ∧ a.doc = b.doc ∧ a.typeHint = b.typeHint ∧ t = u := by
  rw [recordText_eq_iff a.distinct_withType b.distinct_withType
    (Element.isUsable_withType (.ofAttribute a) t) (Element.isUsable_withType (.ofAttribute b) u)]
  simp only [lookup_withType]
  refine and_congr_right fun _ => ?_
  constructor
  · intro h
    have hdoc := Option.some.inj (h "docstring" (by decide))
    have hhint := Option.some.inj (h "type_hint" (by decide))
    have htype := Option.some.inj (h "type" (by decide))
    exact ⟨MemberDoc.canonical_inj hdoc, optionalText_canonical_inj hhint,
      optionToJson_canonical_inj hlimits htype⟩
  · rintro ⟨hdoc, hhint, rfl⟩ key hkey
    obtain ⟨hid, -, hname⟩ := ne_of_not_mem_locatingKeys hkey
    rw [if_neg hid, if_neg hname, if_neg hid, if_neg hname, hdoc, hhint]

end MemberDecl

/-- The evidence tells the content of an element, and nothing of where it is. Parameters have the
same evidence exactly if they have the same simple name and agree in every field but the identity
and the qualified name; attributes, and likewise results, exactly if they agree in every field but
the identity. The types are the computed ones in the evidence of an element, but the records are
told apart with any types in their place, as long as the limits in one of them are finite. -/
theorem evidence_tells_content (t u : Option ValueType) (ht : ∀ x ∈ t, x.HasFiniteLimits) :
    (∀ p q : ParameterDecl,
      (recordText (withType t p.members) p.name = recordText (withType u q.members) q.name ↔
        p.name = q.name ∧ p.defaultValue = q.defaultValue ∧ p.assignedBy = q.assignedBy ∧
          p.isPublic = q.isPublic ∧ p.doc = q.doc ∧ p.typeHint = q.typeHint ∧ t = u) ∧
      ((Element.ofParameter p).evidence = (Element.ofParameter q).evidence ↔
        p.name = q.name ∧ p.defaultValue = q.defaultValue ∧ p.assignedBy = q.assignedBy ∧
          p.isPublic = q.isPublic ∧ p.doc = q.doc ∧ p.typeHint = q.typeHint ∧ p.type = q.type)) ∧
    (∀ a b : MemberDecl,
      (recordText (withType t a.members) a.name = recordText (withType u b.members) b.name ↔
        a.name = b.name ∧ a.doc = b.doc ∧ a.typeHint = b.typeHint ∧ t = u) ∧
      ((Element.ofAttribute a).evidence = (Element.ofAttribute b).evidence ↔
        a.name = b.name ∧ a.doc = b.doc ∧ a.typeHint = b.typeHint ∧ a.type = b.type) ∧
      ((Element.ofResult a).evidence = (Element.ofResult b).evidence ↔
        a.name = b.name ∧ a.doc = b.doc ∧ a.typeHint = b.typeHint ∧ a.type = b.type)) := by
  refine ⟨fun p q => ⟨p.recordText_withType_eq_iff q ht, ?_⟩,
    fun a b => ⟨a.recordText_withType_eq_iff b ht, ?_, ?_⟩⟩
  · have h := p.recordText_withType_eq_iff q (u := q.type) p.hasFiniteLimits
    rwa [p.withType_type, q.withType_type] at h
  · have h := a.recordText_withType_eq_iff b (u := b.type) a.hasFiniteLimits
    rwa [a.withType_type, b.withType_type] at h
  · have h := a.recordText_withType_eq_iff b (u := b.type) a.hasFiniteLimits
    rwa [a.withType_type, b.withType_type] at h

/-- A parameter, and a type for it up to a number. -/
def sampleParameter : ParameterDecl :=
  { id := "lib/lib/f/x", qname := "lib.f.x", defaultValue := some "0" }

/-- The numbers up to a limit. -/
def numbersUpTo (limit : Float) : ValueType :=
  .boundary ⟨.float, .unbounded, .inclusive limit⟩

/-- The sign of a zero among the limits counts, and the function to which the parameter belongs does
not. -/
theorem evidence_tells_content_sampleParameter :
    (∀ x ∈ some (numbersUpTo 0), x.HasFiniteLimits) ∧
      recordText (withType (some (numbersUpTo 0)) sampleParameter.members) sampleParameter.name ≠
        recordText (withType (some (numbersUpTo (-0))) sampleParameter.members)
          sampleParameter.name ∧
      (Element.ofParameter sampleParameter).evidence =
        (Element.ofParameter
          { sampleParameter with id := "lib/lib/g/x", qname := "lib.g.x" }).evidence := by
  have hzero : (0 : Float).isFinite = true := by decide +kernel
  have hlimits : ∀ x ∈ some (numbersUpTo 0), x.HasFiniteLimits := by
    rintro _ ⟨⟩
    simp [numbersUpTo, ValueType.HasFiniteLimits, ValueType.parts, Boundary.HasFiniteLimits,
      Limit.number?, hzero]
  have htells := (evidence_tells_content _ (some (numbersUpTo (-0))) hlimits).1 sampleParameter
  refine ⟨hlimits, ?_, ?_⟩
  · intro h
    have htype := ((htells sampleParameter).1.1 h).2.2.2.2.2.2
    have hlimit : (0 : Float) = -0 := by simpa [numbersUpTo] using htype
    exact absurd hlimit (by decide +kernel)
  · refine (htells _).2.2 ⟨?_, rfl, rfl, rfl, rfl, rfl, rfl⟩
    decide +kernel

end ApiEvolution
