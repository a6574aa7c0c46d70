import ApiEvolution.Proofs.DisplayedRanges
import ApiEvolution.Proofs.FiniteNumbers
import ApiEvolution.Proofs.TypeOrder

/-!
# Types that are read are well formed

Whatever a type text and a description say, the type that is read from them is well formed
(`isWellFormed_of_readType`). Its members come from the first value set, the range in the
description and the segments of the rest of the text, and each of the three readers yields members
of a certain form only:

* a range has finite limits that are in order (`isProper_rangeIn`, `isProper_rangeOf`);
* an enumeration has a value;
* a name is a segment, and so neither empty nor surrounded by blanks (`ends_of_mem_segments`), that
  no other reader takes.
-/

namespace ApiEvolution

open TypeText

/-! ## Well-formed types -/

/-- A text that is read as a name: there is something in it, there are no blanks around it, and it
is neither a value set nor the word "optional" nor a range. -/
structure IsProperName (name : String) : Prop where
  ne_empty : name ≠ ""
  head : ∀ c ∈ name.toList.head?, Text.isBlank c = false
  last : ∀ c ∈ name.toList.getLast?, Text.isBlank c = false
  no_brace : name.toList.head? ≠ some '{'
  no_keyword : name.toList.map Char.toLower ≠ "optional".toList
  no_range : ∀ base, rangeOf base name.toList = none

namespace ValueType

/-- A type that may be a member of a union. -/
def IsProperMember : ValueType → Prop
  | .named name => IsProperName name
  | .enumeration values => values ≠ []
  | .boundary b => b.IsProper
  | .union _ => False

/-- A type that is a proper member alone, or the union of a set of at least two. -/
structure IsWellFormed (t : ValueType) : Prop where
  proper : ∀ m ∈ t.members, m.IsProperMember
  nodup : t.members.Nodup
  several : t.family = .union → 2 ≤ t.members.length

theorem IsProperMember.family_ne {m : ValueType} (h : m.IsProperMember) : m.family ≠ .union := by
  cases m with
  | union ms => exact h.elim
  | _ => nofun

/-- The union of proper members. -/
theorem isWellFormed_of_union? {types : List ValueType} {t : ValueType}
    (h : ∀ u ∈ types, u.IsProperMember) (ht : union? types = some t) : t.IsWellFormed := by
  have hfamily : ∀ u ∈ types, u.family ≠ .union := fun u hu => (h u hu).family_ne
  obtain ⟨hset, hseveral⟩ := (union?_eq_some_iff hfamily).1 ht
  refine ⟨fun m hm => h m ((mem_members_of_union? hfamily ht).1 hm), ?_, hseveral⟩
  rw [hset]
  exact SortedSet.nodup_ofList _

end ValueType

/-! ## Ranges -/

namespace TypeText

variable {base : NumberBase} {b : Boundary}

theorem isFinite_toLimit? {token : LimitToken} {included : Bool} {l : Limit}
    (h : token.toLimit? included = some l) : ∀ x ∈ l.number?, x.isFinite = true := by
  intro x hx
  cases token with
  | infinite =>
    cases h
    cases hx
  | number text =>
    obtain ⟨y, hy, rfl⟩ := Option.map_eq_some_iff.1 h
    have hxy : x = y := by
      cases included <;> exact (Option.mem_some.1 hx).symm
    exact hxy ▸ Decimal.isFinite_read? hy

theorem isProper_toBoundary? {token : RangeToken} (h : token.toBoundary? base = some b) :
    b.IsProper := by
  obtain ⟨lower, hlower, h⟩ := Option.bind_eq_some_iff.1 h
  obtain ⟨upper, hupper, h⟩ := Option.bind_eq_some_iff.1 h
  split at h
  · cases h
  · next horder =>
    cases h
    have hlowerFinite := isFinite_toLimit? hlower
    have hupperFinite := isFinite_toLimit? hupper
    constructor
    · intro l hl
      rcases List.mem_cons.1 hl with rfl | hl
      · exact hlowerFinite
      · obtain rfl := List.mem_singleton.1 hl
        exact hupperFinite
    · intro x hx y hy
      have hnan : ∀ z : Float, z.isFinite = true → z.isNaN = false := fun z hz =>
        (Decimal.isNumber_of_isFinite hz).1
      have hvalue : ∀ (l : Limit) (z : Float), z ∈ l.number? →
          l.isUnbounded = false ∧ l.value = z := by
        intro l z hz
        cases l with
        | unbounded => cases hz
        | inclusive | exclusive => exact ⟨rfl, Option.mem_some.1 hz⟩
      obtain ⟨hboundedLower, rfl⟩ := hvalue _ _ hx
      obtain ⟨hboundedUpper, rfl⟩ := hvalue _ _ hy
      have hnot : ¬ upper.value < lower.value := by
        simpa [hboundedLower, hboundedUpper] using horder
      exact Similarity.number_le_of_not_lt (hnan _ (hupperFinite _ hy))
        (hnan _ (hlowerFinite _ hx)) hnot

theorem isProper_phrasedRange {afterWord : Bool} {text : List Char}
    (h : phrasedRange base afterWord text = some b) : b.IsProper := by
  induction text generalizing afterWord with
  | nil => cases h
  | cons c rest ih =>
    rcases Option.or_eq_some_iff.1 h with h | ⟨-, h⟩
    · split at h
      · cases h
      · obtain ⟨r, -, hr⟩ := Option.bind_eq_some_iff.1 h
        exact isProper_toBoundary? hr
    · exact ih h

theorem isProper_bareRange {text : List Char} (h : bareRange base text = some b) :
    b.IsProper := by
  induction text with
  | nil => cases h
  | cons c rest ih =>
    rcases Option.or_eq_some_iff.1 h with h | ⟨-, h⟩
    · obtain ⟨r, -, hr⟩ := Option.bind_eq_some_iff.1 h
      exact isProper_toBoundary? hr
    · exact ih h

/-- The range in a description is proper. -/
theorem isProper_rangeIn {description : List Char} (h : rangeIn base description = some b) :
    b.IsProper := by
  rcases Option.or_eq_some_iff.1 h with h | ⟨-, h⟩
  · exact isProper_phrasedRange h
  · exact isProper_bareRange h

/-- A range that is a whole segment is proper. -/
theorem isProper_rangeOf {segment : List Char} (h : rangeOf base segment = some b) :
    b.IsProper := by
  simp only [rangeOf, Option.bind_eq_bind, Option.bind_eq_some_iff] at h
  obtain ⟨r, -, h⟩ := h
  split at h
  · exact isProper_toBoundary? h
  · cases h

theorem toBoundary?_eq_none_iff {token : RangeToken} (base' : NumberBase) :
    token.toBoundary? base = none ↔ token.toBoundary? base' = none := by
  simp only [RangeToken.toBoundary?, Option.bind_eq_bind, Option.bind_eq_none_iff]
  refine forall₂_congr fun lower _ => forall₂_congr fun upper _ => ?_
  split <;> simp

/-- The base that is declared does not decide whether a segment is a range. -/
theorem rangeOf_eq_none_iff {segment : List Char} (base' : NumberBase) :
    rangeOf base segment = none ↔ rangeOf base' segment = none := by
  rw [rangeOf, rangeOf]
  cases hbase : scanBase (skipBlanks segment) with
  | some found => rfl
  | none =>
    simp only [Option.getD_none, Option.bind_eq_bind, Option.bind_eq_none_iff]
    refine forall₂_congr fun r _ => ?_
    split
    · exact toBoundary?_eq_none_iff base'
    · rfl

/-! ## Segments -/

/-- A segment is not empty, and there are no blanks around it. -/
theorem ends_of_mem_segments {text segment : List Char} (h : segment ∈ segments text) :
    segment ≠ [] ∧ (∀ c ∈ segment.head?, Text.isBlank c = false) ∧
      ∀ c ∈ segment.getLast?, Text.isBlank c = false := by
  obtain ⟨hpiece, hne⟩ := List.mem_filter.1 h
  obtain ⟨piece, -, rfl⟩ := List.mem_map.1 hpiece
  have hstrips := Text.strips_stripWhere Text.isBlank
    (Text.stripWhere (· = backquote) (Text.trim piece))
  exact ⟨by simpa using hne, hstrips.head, hstrips.last⟩

/-! ## Members -/

open ValueType

theorem isProperMember_of_enumerationOf {values : Option (List String)} {t : ValueType}
    (h : t ∈ enumerationOf values) : t.IsProperMember := by
  unfold enumerationOf at h
  split at h
  · obtain rfl := List.mem_singleton.1 h
    exact List.cons_ne_nil _ _
  · cases h

/-- A segment that no other reader takes is a name. -/
theorem isProperName_ofList {text segment : List Char} (hsegment : segment ∈ segments text)
    (hkeyword : ¬ isKeyword "optional" segment = true) (hbrace : ¬ segment.head? = some '{')
    (hrange : rangeOf base segment = none) : IsProperName (String.ofList segment) := by
  obtain ⟨hne, hhead, hlast⟩ := ends_of_mem_segments hsegment
  have hname : (String.ofList segment).toList = segment := String.toList_ofList
  constructor
  · intro hempty
    rw [hempty] at hname
    exact hne hname.symm
  · rwa [hname]
  · rwa [hname]
  · rwa [hname]
  · rw [hname]
    exact fun heq => hkeyword (decide_eq_true heq)
  · intro base'
    rw [hname]
    exact (rangeOf_eq_none_iff base').1 hrange

theorem isProperMember_of_segmentTypes {text segment : List Char} {t : ValueType}
    (hsegment : segment ∈ segments text) (h : t ∈ segmentTypes base segment) :
    t.IsProperMember := by
  rw [segmentTypes] at h
  split at h
  · cases h
  · next hkeyword =>
    split at h
    · next b hrange =>
      obtain rfl := List.mem_singleton.1 h
      exact isProper_rangeOf hrange
    · next hrange =>
      split at h
      · exact isProperMember_of_enumerationOf h
      · next hbrace =>
        obtain rfl := List.mem_singleton.1 h
        exact isProperName_ofList hsegment hkeyword hbrace hrange

theorem isProperMember_of_memberTypes {text description : List Char} {t : ValueType}
    (h : t ∈ memberTypes text description) : t.IsProperMember := by
  rw [memberTypes, List.mem_append, List.mem_append] at h
  rcases h with (h | h) | h
  · exact isProperMember_of_enumerationOf h
  · split at h
    · next hrange =>
      obtain rfl := List.mem_singleton.1 h
      exact isProper_rangeIn hrange
    · cases h
  · obtain ⟨segment, hsegment, ht⟩ := List.mem_flatMap.1 h
    exact isProperMember_of_segmentTypes hsegment ht

theorem isWellFormed_of_memberTypes {text description : List Char} {t : ValueType}
    (h : union? (memberTypes text description) = some t) : t.IsWellFormed :=
  isWellFormed_of_union? (fun _ hu => isProperMember_of_memberTypes hu) h

theorem exists_memberTypes_of_readType {typeText description : String} {t : ValueType}
    (h : readType typeText description = some t) :
    ∃ text, union? (memberTypes text description.toList) = some t := by
  rw [readType] at h
  split at h
  · cases h
  · exact ⟨_, h⟩

/-- A type that is read from a type text and a description is well formed, whatever they say. -/
theorem isWellFormed_of_readType {typeText description : String} {t : ValueType}
    (h : readType typeText description = some t) : t.IsWellFormed := by
  obtain ⟨text, htext⟩ := exists_memberTypes_of_readType h
  exact isWellFormed_of_memberTypes htext

/-- A type text with a value set, a range, a name and words that are no types. -/
def mixedTypeText : String :=
  "\x7b'auto', 'max'\x7d or int in [0, 5] or str, Optional, default 1"

/-- What is read from the text, with a range in the description. -/
def mixedType : ValueType :=
  .union [.named "str", .enumeration ["auto", "max"],
    .boundary ⟨.int, .inclusive 0, .inclusive 5⟩, .boundary ⟨.float, .exclusive 0.5, .unbounded⟩]

theorem isWellFormed_of_readType_mixed :
    readType mixedTypeText "A number in the range of (0.5, inf)." = some mixedType ∧
      mixedType.IsWellFormed := by
  have hread : (readType mixedTypeText "A number in the range of (0.5, inf).").any
      (fun t => t.compare mixedType = .eq) = true := by
    decide +kernel
  obtain ⟨t, ht, heq⟩ := (Option.any_eq_true _ _).1 hread
  obtain rfl : t = mixedType := compare_eq_iff.1 (of_decide_eq_true heq)
  exact ⟨ht, isWellFormed_of_readType ht⟩

/-- The type of an element is well formed, whether it is documented or hinted at. -/
theorem isWellFormed_of_resolve {typeText description : String} {hint : Option String}
    {t : ValueType} (h : resolve typeText hint description = some t) : t.IsWellFormed := by
  obtain ⟨source, hsource⟩ := exists_readType_of_resolve h
  obtain ⟨text, htext⟩ := exists_memberTypes_of_readType hsource
  exact isWellFormed_of_memberTypes htext

end TypeText

end ApiEvolution
