import Mathlib.Tactic.Common
import ApiEvolution.Proofs.CanonicalForm
import ApiEvolution.Proofs.DisplayedRanges
import ApiEvolution.Proofs.SnapshotEncoding
import ApiEvolution.Proofs.TypeOrder

/-!
# Types read back from their documents

`ValueType.ofJson` reads what `ValueType.toJson` writes, for types of every depth. Two conditions
are about a type and the types inside it (`ValueType.parts`). The texts of the enumerations and the
members of the unions are sets in ascending order (`ValueType.HasSortedSets`), which is how a set is
kept and what the reader restores. The limits of the boundaries are finite
(`ValueType.HasFiniteLimits`): a limit that is not has no number in a document, and a type with such
a limit is not read at all.

The reader counts down from the depth of the document, so the argument is an induction over the
type for every count that is greater than the depth (`ValueType.ofJsonWithin_toJson`).
-/

namespace ApiEvolution

open Json

/-! ## The types inside a type -/

namespace ValueType

mutual

/-- A type and, at every level, the members of the unions in it. -/
def parts : ValueType → List ValueType
  | .union ms => .union ms :: partsOf ms
  | t => [t]

/-- The parts of all types in a list. -/
def partsOf : List ValueType → List ValueType
  | [] => []
  | t :: rest => parts t ++ partsOf rest

end

/-- Induction over a type: a union by its members. -/
@[elab_as_elim]
theorem inductionOn {P : ValueType → Prop} (t : ValueType) (named : ∀ name, P (.named name))
    (enumeration : ∀ values, P (.enumeration values)) (boundary : ∀ b, P (.boundary b))
    (union : ∀ ms, (∀ m ∈ ms, P m) → P (.union ms)) : P t := by
  refine @ValueType.rec P (fun ms => ∀ m ∈ ms, P m) named enumeration boundary union ?_ ?_ t
  · exact fun m hm => absurd hm List.not_mem_nil
  · exact fun m ms hm hms => List.forall_mem_cons.2 ⟨hm, hms⟩

theorem partsOf_eq (ms : List ValueType) : partsOf ms = ms.flatMap parts := by
  induction ms with
  | nil => rfl
  | cons m rest ih => rw [partsOf, ih, List.flatMap_cons]

theorem mem_parts_self (t : ValueType) : t ∈ t.parts := by
  cases t <;> exact List.mem_cons_self

/-- The parts of a union are the union itself and the parts of its members. -/
theorem forall_parts_union {p : ValueType → Prop} {ms : List ValueType} :
    (∀ u ∈ (union ms).parts, p u) ↔ p (union ms) ∧ ∀ m ∈ ms, ∀ u ∈ m.parts, p u := by
  rw [parts, partsOf_eq, List.forall_mem_cons]
  refine and_congr_right fun _ => ?_
  simp only [List.mem_flatMap, forall_exists_index, and_imp]
  exact forall_comm.trans (forall_congr' fun m => forall_comm)

theorem allToJson_eq (ms : List ValueType) : allToJson ms = ms.map toJson := by
  induction ms with
  | nil => rfl
  | cons m rest ih => rw [allToJson, ih, List.map_cons]

end ValueType

/-! ## Limits -/

/-- The sides that are bounded have finite limits. -/
def Boundary.HasFiniteLimits (b : Boundary) : Prop :=
  ∀ l ∈ [b.lower, b.upper], ∀ x ∈ l.number?, x.isFinite = true

/-- The boundaries in a type have finite limits. -/
def ValueType.HasFiniteLimits (t : ValueType) : Prop :=
  ∀ u ∈ t.parts, ∀ b, u = .boundary b → b.HasFiniteLimits

theorem ValueType.hasFiniteLimits_union_iff {ms : List ValueType} :
    (union ms).HasFiniteLimits ↔ ∀ m ∈ ms, m.HasFiniteLimits := by
  rw [HasFiniteLimits, forall_parts_union]
  exact and_iff_right nofun

/-- A number is written so that it can be read exactly if it is finite. -/
theorem Json.asFloat_ofFloat_eq_ok_iff {x y : Float} :
    asFloat (ofFloat x) = .ok y ↔ x.isFinite = true ∧ y = x := by
  by_cases hx : x.isFinite = true
  · rw [ofFloat, if_pos hx]
    constructor
    · rintro ⟨⟩
      exact ⟨hx, rfl⟩
    · rintro ⟨-, rfl⟩
      rfl
  · rw [ofFloat, if_neg hx]
    constructor
    · rintro ⟨⟩
    · exact fun h => absurd h.1 hx

theorem Limit.ofJson_ofFloat (symbol : String) (included : Bool) (x : Float) :
    Limit.ofJson symbol included (ofFloat x) = do
      let y ← asFloat (ofFloat x)
      return if included then .inclusive y else .exclusive y := by
  unfold ofFloat
  split <;> rfl

/-- A limit is read back exactly if it is finite or there is none. -/
theorem Limit.ofJson_toJson_eq_ok_iff {symbol : String} {l l' : Limit} :
    Limit.ofJson symbol l.isInclusive (l.toJson symbol) = .ok l' ↔
      (∀ x ∈ l.number?, x.isFinite = true) ∧ l' = l := by
  cases l with
  | unbounded =>
    rw [Limit.toJson, Limit.ofJson, if_pos rfl, Except.ok.injEq, eq_comm]
    simp [Limit.number?]
  | inclusive x | exclusive x =>
    rw [Limit.toJson, Limit.ofJson_ofFloat, bind_eq_ok_iff]
    simp only [asFloat_ofFloat_eq_ok_iff, Limit.isInclusive, Limit.number?, pure, Except.pure,
      Except.ok.injEq, Option.mem_def, Option.some_inj, forall_eq']
    constructor
    · rintro ⟨_, ⟨hx, rfl⟩, rfl⟩
      exact ⟨hx, rfl⟩
    · rintro ⟨hx, rfl⟩
      exact ⟨x, ⟨hx, rfl⟩, rfl⟩

theorem Boundary.ofJson_members (b : Boundary) :
    Boundary.ofJson (.object b.members) = do
      let lower ← Limit.ofJson lowerSymbol b.lower.isInclusive (b.lower.toJson lowerSymbol)
      let upper ← Limit.ofJson upperSymbol b.upper.isInclusive (b.upper.toJson upperSymbol)
      return ⟨b.base, lower, upper⟩ := by
  have hbase : NumberBase.ofJson (.text b.base.name) = .ok b.base := by
    cases b.base <;> rfl
  rw [Boundary.ofJson, asRecord_object (by simp [Distinct, Boundary.members])]
  simp [Boundary.ofRecord, Boundary.members, Record.get, Record.get?, Record.need, lookup_cons,
    asBool, hbase]
  rfl

/-- A boundary is read back exactly if its limits are finite. -/
theorem Boundary.ofJson_members_eq_ok_iff {b b' : Boundary} :
    Boundary.ofJson (.object b.members) = .ok b' ↔ b.HasFiniteLimits ∧ b' = b := by
  rw [Boundary.ofJson_members]
  simp only [bind_eq_ok_iff, Limit.ofJson_toJson_eq_ok_iff]
  constructor
  · rintro ⟨lower, ⟨hlower, rfl⟩, upper, ⟨hupper, rfl⟩, hb⟩
    exact ⟨by simpa [HasFiniteLimits] using ⟨hlower, hupper⟩, (Except.ok.inj hb).symm⟩
  · rintro ⟨hfinite, rfl⟩
    exact ⟨_, ⟨hfinite _ (by simp), rfl⟩, _, ⟨hfinite _ (by simp), rfl⟩, rfl⟩

/-! ## Sets -/

namespace ValueType

variable {t m : ValueType} {ms : List ValueType} {fuel : Nat} {inside : Bool}

/-- What a type itself holds as a set is in ascending order. -/
def IsSortedSet : ValueType → Prop
  | .enumeration values => SortedSet.Sorted Ord.compare values
  | .union members => SortedSet.Sorted compare members
  | _ => True

instance : DecidablePred IsSortedSet
  | .enumeration values => inferInstanceAs (Decidable (values.Pairwise _))
  | .union members => inferInstanceAs (Decidable (members.Pairwise _))
  | .named _ => inferInstanceAs (Decidable True)
  | .boundary _ => inferInstanceAs (Decidable True)

/-- The sets in a type are in ascending order. -/
def HasSortedSets (t : ValueType) : Prop :=
  ∀ u ∈ t.parts, u.IsSortedSet

instance (t : ValueType) : Decidable t.HasSortedSets :=
  inferInstanceAs (Decidable (∀ u ∈ t.parts, u.IsSortedSet))

theorem HasSortedSets.isSortedSet (h : t.HasSortedSets) : t.IsSortedSet :=
  h t (mem_parts_self t)

theorem hasSortedSets_union_iff :
    (union ms).HasSortedSets ↔ SortedSet.Sorted compare ms ∧ ∀ m ∈ ms, m.HasSortedSets :=
  forall_parts_union

/-! ## Documents written and read -/

/-- The member that names the variant is taken off the front. -/
theorem splitKind_object {name : String} {family : TypeFamily} {members : List (String × Json)}
    (hname : TypeFamily.ofJson inside (.text name) = .ok family)
    (hmembers : ∀ m ∈ members, m.1 ≠ "kind") :
    splitKind inside (.object (("kind", .text name) :: members)) =
      .ok (family, .object members) := by
  have hcount : members.countP (fun m => m.1 = "kind") = 0 := by
    rw [List.countP_eq_zero]
    intro m hm
    simpa using hmembers m hm
  have hfilter : members.filter (fun m => m.1 ≠ "kind") = members := by
    rw [List.filter_eq_self]
    intro m hm
    simpa using hmembers m hm
  have hkey : repeatedKey? ["kind"] (("kind", .text name) :: members) = none := by
    simp [repeatedKey?, hcount]
  rw [splitKind, hkey, lookup_cons, if_pos rfl]
  simp only [hname, List.filter_cons, hfilter]
  rfl

theorem asField_singleton {α : Type} (shape name : String) (read : Json → Reading α) (v : Json) :
    asField shape name read (.object [(name, v)]) = read v := by
  rw [asField, asRecord_object (by simp [Distinct])]
  simp only [Record.get, Record.get?, lookup_cons, if_pos]
  cases read v <;> rfl

theorem ofJsonWithin_named (name : String) :
    ofJsonWithin (fuel + 1) inside (named name).toJson = .ok (.named name) := by
  rw [toJson, ofJsonWithin, splitKind_object rfl (by simp)]
  rfl

theorem ofJsonWithin_enumeration {values : List String} (h : (enumeration values).HasSortedSets) :
    ofJsonWithin (fuel + 1) inside (enumeration values).toJson = .ok (.enumeration values) := by
  have hset : SortedSet.ofTexts values = values := SortedSet.Sorted.ofList_eq h.isSortedSet
  rw [toJson, ofJsonWithin, splitKind_object rfl (by simp)]
  simp only [pure, Except.pure, bind, Except.bind, asField_singleton, asTexts_ofTexts, hset]

theorem ofJsonWithin_boundary (b : Boundary) :
    ofJsonWithin (fuel + 1) inside (boundary b).toJson =
      (Boundary.ofJson (.object b.members)).map .boundary := by
  rw [toJson, ofJsonWithin, splitKind_object rfl (by simp [Boundary.members])]
  simp only [pure, Except.pure, bind, Except.bind]
  cases Boundary.ofJson (.object b.members) <;> rfl

theorem ofJsonWithin_union (ms : List ValueType) :
    ofJsonWithin (fuel + 1) inside (union ms).toJson =
      ((ms.map toJson).mapM (ofJsonWithin fuel true)).map fun ts => .union (setOf ts) := by
  rw [toJson, ofJsonWithin, splitKind_object rfl (by simp)]
  simp only [pure, Except.pure, bind, Except.bind, asField_singleton, asList, allToJson_eq]
  cases (ms.map toJson).mapM (ofJsonWithin fuel true) <;> rfl

theorem depth_member_lt (hm : m ∈ ms) : m.toJson.depth + 2 ≤ (union ms).toJson.depth := by
  have hitems : m.toJson.depth ≤ itemsDepth (allToJson ms) := by
    refine itemsDepth_le_iff.1 (Nat.le_refl _) m.toJson ?_
    rw [allToJson_eq]
    exact List.mem_map_of_mem hm
  simp only [toJson, depth, membersDepth]
  omega

/-- Where the count suffices, a type with finite limits and sorted sets is read back. -/
theorem ofJsonWithin_toJson (hsets : t.HasSortedSets) (hlimits : t.HasFiniteLimits)
    (hfuel : t.toJson.depth < fuel) : ofJsonWithin fuel inside t.toJson = .ok t := by
  induction t using inductionOn generalizing fuel inside with
  | named name =>
    obtain ⟨fuel, rfl⟩ := Nat.exists_eq_add_of_lt hfuel
    exact ofJsonWithin_named name
  | enumeration values =>
    obtain ⟨fuel, rfl⟩ := Nat.exists_eq_add_of_lt hfuel
    exact ofJsonWithin_enumeration hsets
  | boundary b =>
    obtain ⟨fuel, rfl⟩ := Nat.exists_eq_add_of_lt hfuel
    have hb : Boundary.ofJson (.object b.members) = .ok b :=
      Boundary.ofJson_members_eq_ok_iff.2 ⟨hlimits _ (mem_parts_self _) b rfl, rfl⟩
    rw [ofJsonWithin_boundary, hb]
    rfl
  | union ms ih =>
    cases fuel with
    | zero => cases hfuel
    | succ fuel =>
      rw [hasSortedSets_union_iff] at hsets
      rw [hasFiniteLimits_union_iff] at hlimits
      have hmembers : (ms.map toJson).mapM (ofJsonWithin fuel true) = .ok ms := by
        refine mapM_eq_ok_iff.2 (List.forall₂_map_left_iff.2 (List.forall₂_same.2 ?_))
        intro m hm
        have hdepth := depth_member_lt hm
        exact ih m hm (hsets.2 m hm) (hlimits m hm) (by omega)
      have hset : setOf ms = ms := SortedSet.Sorted.ofList_eq hsets.1
      rw [ofJsonWithin_union, hmembers]
      simp only [Except.map, hset]

/-- What is read from the document of a type has been written with finite limits. -/
theorem hasFiniteLimits_of_ofJsonWithin {u : ValueType}
    (h : ofJsonWithin fuel inside t.toJson = .ok u) : t.HasFiniteLimits := by
  induction t using inductionOn generalizing fuel inside u with
  | named name => exact List.forall_mem_singleton.2 nofun
  | enumeration values => exact List.forall_mem_singleton.2 nofun
  | boundary b =>
    refine List.forall_mem_singleton.2 ?_
    rintro _ ⟨⟩
    cases fuel with
    | zero => cases h
    | succ fuel =>
      rw [ofJsonWithin_boundary, map_eq_ok_iff] at h
      obtain ⟨c, hc, -⟩ := h
      exact (Boundary.ofJson_members_eq_ok_iff.1 hc).1
  | union ms ih =>
    cases fuel with
    | zero => cases h
    | succ fuel =>
      rw [ofJsonWithin_union, map_eq_ok_iff] at h
      obtain ⟨us, hus, -⟩ := h
      obtain ⟨read, hread, -⟩ := mapM_eq_ok_iff_map.1 hus
      refine hasFiniteLimits_union_iff.2 fun m hm => ?_
      exact ih m hm (hread m.toJson (List.mem_map_of_mem hm))

/-! ## What is read has sorted sets -/

theorem exists_of_asField {α : Type} {shape name : String} {read : Json → Reading α} {v : Json}
    {a : α} (h : asField shape name read v = .ok a) : ∃ w, read w = .ok a := by
  have hget : ∀ r : Record, r.get name read = .ok a → ∃ w, read w = .ok a := by
    intro r hr
    rw [Record.get, Record.get?] at hr
    cases hfield : lookup name r.fields with
    | none =>
      rw [hfield] at hr
      cases hr
    | some w =>
      rw [hfield] at hr
      obtain ⟨b?, hb, hneed⟩ := bind_eq_ok_iff.1 hr
      obtain ⟨b, hw, rfl⟩ := map_eq_ok_iff.1 hb
      cases hneed
      exact ⟨w, hw⟩
  cases v with
  | object members =>
    rw [asField, asRecord] at h
    split at h
    · cases h
    · exact hget _ h
  | array items =>
    rw [asField, asRecord] at h
    obtain ⟨b, hb, hlength⟩ := bind_eq_ok_iff.1 h
    split at hlength
    · cases hlength
      exact hget _ hb
    · cases hlength
  | _ => cases h

/-- The sets of a type that is read are in ascending order. -/
theorem hasSortedSets_of_ofJsonWithin {v : Json} (h : ofJsonWithin fuel inside v = .ok t) :
    t.HasSortedSets := by
  induction fuel generalizing inside v t with
  | zero => cases h
  | succ fuel ih =>
    rw [ofJsonWithin, bind_eq_ok_iff] at h
    obtain ⟨⟨family, payload⟩, -, h⟩ := h
    cases family with
    | named | boundary =>
      obtain ⟨_, -, ⟨⟩⟩ := bind_eq_ok_iff.1 h
      exact List.forall_mem_singleton.2 trivial
    | enumeration =>
      obtain ⟨_, -, ⟨⟩⟩ := bind_eq_ok_iff.1 h
      exact List.forall_mem_singleton.2 (SortedSet.sorted_ofList _)
    | union =>
      obtain ⟨ts, hts, ⟨⟩⟩ := bind_eq_ok_iff.1 h
      obtain ⟨w, hw⟩ := exists_of_asField hts
      refine hasSortedSets_union_iff.2 ⟨SortedSet.sorted_ofList _, fun m hm => ?_⟩
      have hmem : m ∈ ts := SortedSet.mem_ofList_iff.1 hm
      cases w with
      | array items =>
        obtain ⟨read, hread, rfl⟩ := mapM_eq_ok_iff_map.1 hw
        obtain ⟨item, hitem, rfl⟩ := List.mem_map.1 hmem
        exact ih (hread item hitem)
      | _ => cases hw

/-- Reading a document gives a type with sorted sets. -/
theorem hasSortedSets_of_ofJson {v : Json} (h : ofJson v = .ok t) : t.HasSortedSets :=
  hasSortedSets_of_ofJsonWithin h

/-! ## Documents in canonical form -/

/-- The members of the document of a type. -/
def documentMembers : ValueType → List (String × Json)
  | .named name => [("kind", .text "NamedType"), ("name", .text name)]
  | .enumeration values => [("kind", .text "EnumType"), ("values", Json.ofTexts values)]
  | .boundary b => ("kind", .text "BoundaryType") :: b.members
  | .union ms => [("kind", .text "UnionType"), ("types", .array (allToJson ms))]

theorem toJson_eq (t : ValueType) : t.toJson = .object t.documentMembers := by
  cases t <;> rfl

theorem distinct_documentMembers (t : ValueType) : Distinct t.documentMembers := by
  cases t <;> simp [Distinct, documentMembers, Boundary.members]

theorem canonical_ofTexts (texts : List String) :
    (Json.ofTexts texts).canonical = Json.ofTexts texts :=
  canonical_array_eq_self (List.forall_mem_map.2 fun _ _ => rfl)

theorem canonical_limit (symbol : String) (l : Limit) :
    (l.toJson symbol).canonical = l.toJson symbol := by
  cases l with
  | unbounded => rfl
  | inclusive x | exclusive x =>
    rw [Limit.toJson, ofFloat]
    split <;> rfl

theorem ofTexts_inj {texts others : List String} (h : Json.ofTexts texts = Json.ofTexts others) :
    texts = others := by
  have hmap : texts.map Json.text = others.map Json.text := Json.array.inj h
  exact List.map_injective_iff.2 (fun _ _ => Json.text.inj) hmap

theorem eq_of_map_eq {α β : Type} {f : α → β} {xs ys : List α}
    (hinj : ∀ x ∈ xs, ∀ y, f x = f y → x = y) (h : xs.map f = ys.map f) : xs = ys := by
  induction xs generalizing ys with
  | nil => exact (List.map_eq_nil_iff.1 h.symm).symm
  | cons x xs ih =>
    cases ys with
    | nil => cases h
    | cons y ys =>
      rw [List.forall_mem_cons] at hinj
      rw [List.map_cons, List.map_cons, List.cons.injEq] at h
      rw [hinj.1 y h.1, ih hinj.2 h.2]

theorem lookup_documentMembers_eq {t u : ValueType} (h : t.toJson.canonical = u.toJson.canonical)
    (key : String) : (lookup key t.documentMembers).map canonical =
      (lookup key u.documentMembers).map canonical := by
  rw [toJson_eq, toJson_eq] at h
  exact (canonical_object_eq_iff t.distinct_documentMembers u.distinct_documentMembers).1 h key

theorem members_eq_of_canonical {b c : Boundary}
    (h : (boundary b).toJson.canonical = (boundary c).toJson.canonical) :
    b.members = c.members := by
  have hbase := lookup_documentMembers_eq h "base_type"
  have hmin := lookup_documentMembers_eq h "min"
  have hmax := lookup_documentMembers_eq h "max"
  have hminIn := lookup_documentMembers_eq h "min_inclusive"
  have hmaxIn := lookup_documentMembers_eq h "max_inclusive"
  simp [documentMembers, Boundary.members, lookup_cons, canonical_limit] at hmin hmax
  simp [documentMembers, Boundary.members, lookup_cons, canonical] at hbase hminIn hmaxIn
  rw [Boundary.members, Boundary.members, hbase, hmin, hmax, hminIn, hmaxIn]

/-- A type with finite limits is told by the canonical form of its document. -/
theorem toJson_canonical_inj {t u : ValueType} (hlimits : t.HasFiniteLimits)
    (h : t.toJson.canonical = u.toJson.canonical) : t = u := by
  induction t using inductionOn generalizing u with
  | named name =>
    have hkind := lookup_documentMembers_eq h "kind"
    have hname := lookup_documentMembers_eq h "name"
    cases u with
    | named name' =>
      simp [documentMembers, lookup_cons, canonical] at hname
      rw [hname]
    | _ => simp [documentMembers, lookup_cons, canonical] at hkind
  | enumeration values =>
    have hkind := lookup_documentMembers_eq h "kind"
    have hvalues := lookup_documentMembers_eq h "values"
    cases u with
    | enumeration values' =>
      simp [documentMembers, lookup_cons, canonical_ofTexts] at hvalues
      rw [ofTexts_inj hvalues]
    | _ => simp [documentMembers, lookup_cons, canonical] at hkind
  | boundary b =>
    have hkind := lookup_documentMembers_eq h "kind"
    cases u with
    | boundary c =>
      -- a boundary with finite limits is what is read from its members
      have hread := Boundary.ofJson_members_eq_ok_iff.2 ⟨hlimits _ (mem_parts_self _) b rfl, rfl⟩
      rw [members_eq_of_canonical h] at hread
      rw [(Boundary.ofJson_members_eq_ok_iff.1 hread).2]
    | _ => simp [documentMembers, lookup_cons, canonical] at hkind
  | union ms ih =>
    have hkind := lookup_documentMembers_eq h "kind"
    have htypes := lookup_documentMembers_eq h "types"
    cases u with
    | union ms' =>
      rw [hasFiniteLimits_union_iff] at hlimits
      simp [documentMembers, lookup_cons, canonical, canonicalItems_eq, allToJson_eq] at htypes
      rw [eq_of_map_eq (fun m hm u hu => ih m hm (hlimits m hm) hu) htypes]
    | _ => simp [documentMembers, lookup_cons, canonical] at hkind

/-! ## The text of a document -/

/-- A type comes back from its document, whatever it is nested of, exactly if the limits in it are
finite. So it comes back from every text that is read as the document, as long as this is not nested
deeper than a text may be. -/
theorem ofJson_document (t : ValueType) (hsets : t.HasSortedSets) :
    (ofJson t.toJson = .ok t ↔ t.HasFiniteLimits) ∧
    (t.HasFiniteLimits → ∀ text, Json.read? text = some t.toJson → t.toJson.depth ≤ 127 →
      read? text = some t) := by
  have hread : t.HasFiniteLimits → ofJson t.toJson = .ok t :=
    fun hlimits => ofJsonWithin_toJson hsets hlimits (Nat.lt_succ_self _)
  refine ⟨⟨hasFiniteLimits_of_ofJsonWithin, hread⟩, ?_⟩
  intro hlimits text htext hdepth
  have hreadable : t.toJson.isReadable 0 = true := by
    simp [isReadable, isUsable_of_isPrintable (isPrintable_toJson t), hdepth]
  rw [read?, htext]
  simp [hreadable, hread hlimits, Except.toOption]

/-- A union of every variant, with unbounded sides, a negative zero and a union inside. -/
def sampleType : ValueType :=
  .union [.named "list", .enumeration ["", "\"a\"", "b"],
    .boundary ⟨.float, .unbounded, .exclusive (-0)⟩,
    .union [.named "None", .boundary ⟨.int, .inclusive 1, .unbounded⟩]]

theorem ofJson_document_sampleType :
    sampleType.HasSortedSets ∧ sampleType.HasFiniteLimits ∧
      ofJson sampleType.toJson = .ok sampleType := by
  have hsets : sampleType.HasSortedSets := by decide +kernel
  have hlimits : sampleType.HasFiniteLimits := by
    have hzero : (-0 : Float).isFinite = true := by decide +kernel
    have hone : (1 : Float).isFinite = true := by decide +kernel
    simp [sampleType, HasFiniteLimits, parts, partsOf, Boundary.HasFiniteLimits, Limit.number?,
      hzero, hone]
  exact ⟨hsets, hlimits, (ofJson_document sampleType hsets).1.2 hlimits⟩

end ValueType

end ApiEvolution
