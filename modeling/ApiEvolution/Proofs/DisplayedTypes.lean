import ApiEvolution.Proofs.DisplayedRanges
import ApiEvolution.Proofs.PlainWords
import ApiEvolution.Proofs.TypeOrder

/-!
# Displayed types are read back

The text of a type is read as this type (`readType_display`). The names and values in it have to be
such that they are not taken for something else: no separator, no word that means something, and no
clause about a default.

The text of a union goes through four readers, and what each of them does to it is determined by the
texts of the members:

* Blanks and a clause about a default are left alone, since there are no blanks but single spaces
  (`IsDisplayable.tidy`) and no mention of a default.
* The first enumeration is taken out of the text, which leaves a gap between two separators
  (`memberTypes_intercalate`).
* The rest is cut into the texts of the other members, and the gap into nothing.
* The text of a member alone is read as this member (`segmentTypes_display`).

The members found stand in another order than in the union, which is a set.
-/

namespace ApiEvolution

/-! ## Members -/

namespace ValueType

open TypeText

/-- A type other than a union whose text can be read back. An enumeration is a set of values, kept
sorted, and has at least one. -/
def IsPlainMember : ValueType → Prop
  | .named name => IsPlainName name
  | .enumeration values =>
    values ≠ [] ∧ SortedSet.Sorted Ord.compare values ∧ ∀ v ∈ values, IsPlainValue v
  | .boundary b => b.IsProper
  | .union _ => False

instance (values : List String) : Decidable (SortedSet.Sorted Ord.compare values) :=
  inferInstanceAs (Decidable (List.Pairwise _ _))

instance : (m : ValueType) → Decidable m.IsPlainMember
  | .named name => inferInstanceAs (Decidable (IsPlainName name))
  | .enumeration values => inferInstanceAs (Decidable (values ≠ [] ∧
      SortedSet.Sorted Ord.compare values ∧ ∀ v ∈ values, IsPlainValue v))
  | .boundary b => inferInstanceAs (Decidable b.IsProper)
  | .union _ => .isFalse id

variable {m : ValueType}

theorem IsPlainMember.tidy (h : m.IsPlainMember) : Text.Tidy m.display.toList := by
  cases m with
  | named name => exact tidy_of_isPlain h.toList_ne_nil h.isPlain
  | enumeration values => exact tidy_displayValues h.1 fun v hv => (h.2.2 v hv).chars
  | boundary b => exact tidy_display h
  | union ms => exact h.elim

theorem IsPlainMember.passes (h : m.IsPlainMember) : Passes .start m.display.toList .start := by
  cases m with
  | named name => exact passes_of_isPlain h.isPlain 0
  | enumeration values => exact passes_displayValues fun v hv => (h.2.2 v hv).chars
  | boundary b => exact passes_display h
  | union ms => exact h.elim

theorem IsPlainMember.clean_eq (h : m.IsPlainMember) :
    clean m.display.toList = m.display.toList := by
  have hnone : ∀ text : List Char, (∀ c ∈ text, c ≠ backquote) →
      (∀ c ∈ text.head?, c ≠ backquote) ∧ ∀ c ∈ text.getLast?, c ≠ backquote := fun text htext =>
    ⟨fun c hc => htext c (List.mem_of_mem_head? hc),
      fun c hc => htext c (List.mem_of_mem_getLast? hc)⟩
  have hends : (∀ c ∈ m.display.toList.head?, c ≠ backquote) ∧
      ∀ c ∈ m.display.toList.getLast?, c ≠ backquote := by
    cases m with
    | named name => exact hnone _ h.ne_backquote
    | enumeration values =>
      rw [display, toList_displayValues]
      constructor
      · rintro c ⟨⟩
        decide
      · rw [← List.cons_append, List.getLast?_concat]
        rintro c ⟨⟩
        decide
    | boundary b =>
      refine hnone _ fun c hc heq => ?_
      have hchar := isRangeChar_of_mem_display h c hc
      rw [heq] at hchar
      exact absurd hchar (by decide)
    | union ms => exact h.elim
  exact TypeText.clean_eq h.tidy hends.1 hends.2

theorem toLower_ne_of_isRangeChar {c : Char} (h : isRangeChar c = true) : c.toLower ≠ 'd' := by
  have hcases : c.isDigit = true ∨ c ∈ "-.inf".toList ∨ c ∈ "intfloa [](),".toList := by
    simpa [isRangeChar, isLimitChar, or_assoc] using h
  rcases hcases with hdigit | hmember | hmember
  · have hcode : c.toNat ≤ 57 := by
      simp [Char.isDigit, UInt32.le_iff_toNat_le] at hdigit
      omega
    have hsame : c.toLower = c := by
      unfold Char.toLower
      rw [dif_neg]
      simp [UInt32.le_iff_toNat_le]
      omega
    rw [hsame]
    rintro rfl
    cases hdigit
  · have hall : ∀ d ∈ "-.inf".toList, d.toLower ≠ 'd' := List.all_iff_forall_prop.1 (by decide)
    exact hall c hmember
  · have hall : ∀ d ∈ "intfloa [](),".toList, d.toLower ≠ 'd' :=
      List.all_iff_forall_prop.1 (by decide)
    exact hall c hmember

theorem IsPlainMember.not_mentions (h : m.IsPlainMember) :
    ¬ Mentions defaultWord m.display.toList := by
  cases m with
  | named name => exact h.noDefault
  | enumeration values => exact not_mentions_displayValues h.2.2
  | boundary b =>
    intro hmentions
    have hmem : 'd' ∈ b.display.toList.map Char.toLower := hmentions.subset (by decide)
    obtain ⟨c, hc, hlower⟩ := List.mem_map.1 hmem
    exact toLower_ne_of_isRangeChar (isRangeChar_of_mem_display h c hc) hlower
  | union ms => exact h.elim

theorem IsPlainMember.brace_not_mem (h : m.IsPlainMember) (hfamily : m.family ≠ .enumeration) :
    '{' ∉ m.display.toList := by
  intro hmem
  cases m with
  | named name => exact absurd (h.isPlain _ hmem) (by decide)
  | enumeration values => exact hfamily rfl
  | boundary b => exact absurd (isRangeChar_of_mem_display h _ hmem) (by decide)
  | union ms => exact h

/-- The numbers of a type, which stand in its boundaries, are given back by their digits. -/
def ReadsBack (t : ValueType) : Prop :=
  ∀ m ∈ t.members, ∀ b ∈ m.boundary?, b.ReadsBack

instance (t : ValueType) : Decidable t.ReadsBack :=
  inferInstanceAs (Decidable (∀ m ∈ t.members, ∀ b ∈ m.boundary?, b.ReadsBack))

theorem rangeOf_brace (declared : NumberBase) (rest : List Char) :
    rangeOf declared ('{' :: rest) = none :=
  rfl

/-- The text of a member alone is read as this member. -/
theorem segmentTypes_display (base : NumberBase) (h : m.IsPlainMember) (hreads : m.ReadsBack) :
    segmentTypes base m.display.toList = [m] := by
  cases m with
  | named name =>
    have hoptional : isKeyword "optional" name.toList = false := by
      simp only [isKeyword, decide_eq_false_iff_not]
      exact fun heq => h.keyword (by simp [heq])
    have hopens : ∀ c ∈ name.toList.head?, c ∉ ['[', '(', backquote] := by
      intro c hc hmem
      have hc := List.mem_of_mem_head? hc
      have hmarks : ∀ d ∈ ['[', '(', backquote], d = backquote ∨ isPlain d = false :=
        List.all_iff_forall_prop.1 (by decide)
      rcases hmarks c hmem with hquote | hplain
      · exact h.ne_backquote c hc hquote
      · exact ne_of_isPlain (h.isPlain c hc) hplain rfl
    have hrange : rangeOf base name.toList = none :=
      rangeOf_eq_none_of_word (fun c hc => isBlank_of_isPlain (h.isPlain c hc)) hopens base
    have hbrace : name.toList.head? ≠ some '{' := fun hhead =>
      ne_of_isPlain (h.isPlain '{' (List.mem_of_mem_head? hhead)) (by decide) rfl
    rw [display, segmentTypes, hoptional, hrange]
    simp [hbrace]
  | enumeration values =>
    obtain ⟨hne, hsorted, hvalues⟩ := h
    have hset : valueSet? (displayValues values).toList = some values :=
      valueSet?_displayValues (fun v hv => (hvalues v hv).chars) hsorted
    obtain ⟨inside, hinside⟩ : ∃ inside, (displayValues values).toList = '{' :: inside :=
      ⟨_, toList_displayValues values⟩
    obtain ⟨v, rest, rfl⟩ := List.exists_cons_of_ne_nil hne
    rw [display, segmentTypes, hset, hinside, rangeOf_brace]
    rfl
  | boundary b =>
    have hoptional : isKeyword "optional" b.display.toList = false := by
      rw [toList_display]
      cases b.base <;> rfl
    rw [display, segmentTypes, hoptional, rangeOf_display base h (hreads _ List.mem_cons_self b rfl)]
    rfl
  | union ms => exact h.elim

/-! ## Joined members -/

theorem displayMembers_eq (ms : List ValueType) : displayMembers ms = ms.map display := by
  induction ms with
  | nil => rfl
  | cons m ms ih => rw [displayMembers, ih, List.map_cons]

/-- The texts of some members. -/
def texts (ms : List ValueType) : List (List Char) :=
  ms.map fun m => m.display.toList

theorem toList_display_eq (t : ValueType) :
    t.display.toList = orText.intercalate (texts t.members) := by
  cases t with
  | union ms =>
    rw [display, displayMembers_eq, String.toList_intercalate, List.map_map]
    rfl
  | _ => exact List.intercalate_singleton.symm

end ValueType

namespace TypeText

open ValueType

variable {ms : List ValueType}

/-- A joined text around one of the joined parts. -/
theorem intercalate_append_cons (sep part : List Char) (before after : List (List Char)) :
    sep.intercalate (before ++ part :: after) =
      (before.flatMap (· ++ sep)) ++ (part ++ after.flatMap (sep ++ ·)) := by
  induction before with
  | nil =>
    rw [List.nil_append, List.flatMap_nil, List.nil_append]
    induction after generalizing part with
    | nil => rw [List.intercalate_singleton, List.flatMap_nil, List.append_nil]
    | cons next after ih =>
      rw [List.intercalate_cons_cons, ih, List.flatMap_cons, List.append_assoc, List.append_assoc]
  | cons first before ih =>
    rw [List.cons_append, List.intercalate_cons_of_ne_nil (by simp), ih, List.flatMap_cons,
      List.append_assoc, List.append_assoc, List.append_assoc]

theorem forall_mem_texts {P : List Char → Prop} :
    (∀ text ∈ texts ms, P text) ↔ ∀ m ∈ ms, P m.display.toList :=
  List.forall_mem_map

/-- Joined members and gaps are cut into the members. -/
theorem segments_parts {parts : List (List Char)} (hne : parts ≠ [])
    (h : ∀ part ∈ parts, part = [] ∨ ∃ m : ValueType, m.IsPlainMember ∧ part = m.display.toList) :
    segments (orText.intercalate parts) = parts.filter fun part => !part.isEmpty := by
  refine segments_intercalate hne (fun part hpart => ?_) fun part hpart => ?_
  · rcases h part hpart with rfl | ⟨m, hm, rfl⟩
    · exact .nil _
    · exact hm.passes
  · rcases h part hpart with rfl | ⟨m, hm, rfl⟩
    · rfl
    · exact hm.clean_eq

theorem filter_texts (h : ∀ m ∈ ms, m.IsPlainMember) :
    (texts ms).filter (fun part => !part.isEmpty) = texts ms :=
  List.filter_eq_self.2 <| forall_mem_texts.2 fun m hm => by simpa using (h m hm).tidy.ne_nil

theorem flatMap_segmentTypes (base : NumberBase) (h : ∀ m ∈ ms, m.IsPlainMember)
    (hreads : ∀ m ∈ ms, m.ReadsBack) : (texts ms).flatMap (segmentTypes base) = ms := by
  induction ms with
  | nil => rfl
  | cons m ms ih =>
    obtain ⟨hm, hms⟩ := List.forall_mem_cons.1 h
    obtain ⟨hmreads, hmsreads⟩ := List.forall_mem_cons.1 hreads
    have hrest := ih hms hmsreads
    rw [texts] at hrest
    rw [texts, List.map_cons, List.flatMap_cons, segmentTypes_display base hm hmreads, hrest]
    rfl

theorem brace_not_mem_flatMap (h : ∀ m ∈ ms, m.IsPlainMember)
    (hfamily : ∀ m ∈ ms, m.family ≠ .enumeration) :
    '{' ∉ (texts ms).flatMap (· ++ orText) := by
  intro hmem
  obtain ⟨text, htext, hmem⟩ := List.mem_flatMap.1 hmem
  obtain ⟨m, hm, rfl⟩ := List.mem_map.1 htext
  rcases List.mem_append.1 hmem with hmember | hor
  · exact (h m hm).brace_not_mem (hfamily m hm) hmember
  · exact absurd hor (by decide)

/-- Without a member, two separators in a row are left, and the others are still cut apart. -/
theorem segments_gap {before after : List ValueType} (hbefore : ∀ m ∈ before, m.IsPlainMember)
    (hafter : ∀ m ∈ after, m.IsPlainMember) :
    segments ((texts before).flatMap (· ++ orText) ++ (texts after).flatMap (orText ++ ·)) =
      texts (before ++ after) := by
  have hjoined := intercalate_append_cons orText [] (texts before) (texts after)
  have hparts : ∀ part ∈ texts before ++ [] :: texts after,
      part = [] ∨ ∃ m : ValueType, m.IsPlainMember ∧ part = m.display.toList :=
    List.forall_mem_append.2 ⟨
      forall_mem_texts.2 fun m hm => .inr ⟨m, hbefore m hm, rfl⟩,
      List.forall_mem_cons.2 ⟨.inl rfl, forall_mem_texts.2 fun m hm => .inr ⟨m, hafter m hm, rfl⟩⟩⟩
  rw [List.nil_append] at hjoined
  rw [← hjoined, segments_parts (by simp) hparts, List.filter_append,
    List.filter_cons_of_neg (by simp), filter_texts hbefore, filter_texts hafter]
  exact List.map_append.symm

theorem not_mentions_texts (h : ∀ m ∈ ms, m.IsPlainMember) :
    ¬ Mentions defaultWord (orText.intercalate (texts ms)) :=
  not_mentions_intercalate (forall_mem_texts.2 fun m hm => (h m hm).not_mentions)

theorem rangeIn_nil (base : NumberBase) : rangeIn base [] = none :=
  rfl

theorem memberTypes_of_no_enumeration (hne : ms ≠ []) (h : ∀ m ∈ ms, m.IsPlainMember)
    (hreads : ∀ m ∈ ms, m.ReadsBack) (hfamily : ∀ m ∈ ms, m.family ≠ .enumeration) :
    memberTypes (orText.intercalate (texts ms)) [] = ms := by
  have hspan : firstSpan (orText.intercalate (texts ms)) = none := by
    have hbrace : ∀ text ∈ texts ms, '{' ∉ text :=
      forall_mem_texts.2 fun m hm => (h m hm).brace_not_mem (hfamily m hm)
    refine firstSpan_eq_none fun hmem => ?_
    rcases Text.mem_intercalate hmem with hor | ⟨text, htext, hmember⟩
    · exact absurd hor (by decide)
    · exact hbrace text htext hmember
  have hsegments : segments (orText.intercalate (texts ms)) = texts ms := by
    rw [segments_parts (by simpa [texts] using hne)
      (forall_mem_texts.2 fun m hm => .inr ⟨m, h m hm, rfl⟩), filter_texts h]
  rw [memberTypes, dropDefault_eq_self (not_mentions_texts h)]
  simp only [hspan, hsegments, rangeIn_nil, flatMap_segmentTypes _ h hreads]
  rfl

/-- The first enumeration is read before everything else. -/
theorem memberTypes_of_enumeration {before after : List ValueType} {values : List String}
    (h : ∀ m ∈ before ++ .enumeration values :: after, m.IsPlainMember)
    (hreads : ∀ m ∈ before ++ .enumeration values :: after, m.ReadsBack)
    (hfamily : ∀ m ∈ before, m.family ≠ .enumeration) :
    memberTypes (orText.intercalate (texts (before ++ .enumeration values :: after))) [] =
      .enumeration values :: (before ++ after) := by
  have hmentions := not_mentions_texts h
  simp only [List.forall_mem_append, List.forall_mem_cons] at h hreads
  obtain ⟨hbefore, ⟨hne, hsorted, hvalues⟩, hafter⟩ := h
  have hothers := List.forall_mem_append.2 ⟨hbefore, hafter⟩
  have hothersRead := List.forall_mem_append.2 ⟨hreads.1, hreads.2.2⟩
  have hchars : ∀ v ∈ values, ∀ c ∈ v.toList, isValueChar c = true := fun v hv =>
    (hvalues v hv).chars
  have hset := valueSet?_displayValues hchars hsorted
  have hspan := firstSpan_displayValues hchars (brace_not_mem_flatMap hbefore hfamily)
    ((texts after).flatMap (orText ++ ·))
  have htext : orText.intercalate (texts (before ++ .enumeration values :: after)) =
      (texts before).flatMap (· ++ orText) ++ ((displayValues values).toList ++
        (texts after).flatMap (orText ++ ·)) := by
    rw [← intercalate_append_cons, texts, List.map_append, List.map_cons]
    rfl
  obtain ⟨v, rest, rfl⟩ := List.exists_cons_of_ne_nil hne
  rw [memberTypes, dropDefault_eq_self hmentions]
  simp only [htext, hspan, segments_gap hbefore hafter, rangeIn_nil, hset, Option.bind_some,
    flatMap_segmentTypes _ hothers hothersRead, enumerationOf, List.append_nil,
    List.singleton_append]

/-- The members of a joined text are the joined types, the first enumeration before all others. -/
theorem memberTypes_intercalate (hne : ms ≠ []) (h : ∀ m ∈ ms, m.IsPlainMember)
    (hreads : ∀ m ∈ ms, m.ReadsBack) :
    (memberTypes (orText.intercalate (texts ms)) []).Perm ms := by
  cases hfind : ms.find? fun m => decide (m.family = .enumeration) with
  | none =>
    rw [memberTypes_of_no_enumeration hne h hreads (by simpa using List.find?_eq_none.1 hfind)]
  | some e =>
    obtain ⟨he, before, after, rfl, hbefore⟩ := List.find?_eq_some_iff_append.1 hfind
    cases e with
    | enumeration values =>
      rw [memberTypes_of_enumeration h hreads (by simpa using hbefore)]
      exact List.perm_middle.symm
    | named | boundary | union => cases he

end TypeText

/-! ## Types -/

namespace ValueType

open TypeText

/-- A type whose text can be read back: a plain member, or the union of at least two. The members of
a union are a set, kept sorted. -/
structure IsDisplayable (t : ValueType) : Prop where
  plain : ∀ m ∈ t.members, m.IsPlainMember
  sorted : SortedSet.Sorted compare t.members
  several : t.family = .union → 2 ≤ t.members.length

instance (t : ValueType) : Decidable t.IsDisplayable :=
  decidable_of_iff ((∀ m ∈ t.members, m.IsPlainMember) ∧
    t.members.Pairwise (fun a b => compare a b = .lt) ∧
    (t.family = .union → 2 ≤ t.members.length))
    ⟨fun h => ⟨h.1, h.2.1, h.2.2⟩, fun h => ⟨h.1, h.2, h.3⟩⟩

variable {t : ValueType}

theorem IsPlainMember.family_ne {m : ValueType} (h : m.IsPlainMember) : m.family ≠ .union := by
  cases m with
  | union ms => exact h.elim
  | _ => nofun

theorem IsPlainMember.members_eq {m : ValueType} (h : m.IsPlainMember) : m.members = [m] :=
  ValueType.members_eq h.family_ne

namespace IsDisplayable

theorem members_ne_nil (h : t.IsDisplayable) : t.members ≠ [] := by
  cases t with
  | union ms =>
    rintro rfl
    exact absurd (h.several rfl) (by decide)
  | _ => exact List.cons_ne_nil _ _

theorem tidy (h : t.IsDisplayable) : Text.Tidy t.display.toList := by
  have hor : Text.Tidy ['o', 'r'] := tidy_of_isPlain (by decide) (List.all_eq_true.1 rfl)
  rw [toList_display_eq]
  exact Text.tidy_intercalate hor (by simpa [texts] using h.members_ne_nil)
    (forall_mem_texts.2 fun m hm => (h.plain m hm).tidy)

/-- A union is made of its members in whatever order they come. -/
theorem union?_eq (h : t.IsDisplayable) {types : List ValueType} (hperm : types.Perm t.members) :
    union? types = some t :=
  (union?_eq_some_iff fun m hm => (h.plain m (hperm.mem_iff.1 hm)).family_ne).2
    ⟨(h.sorted.ofList_eq_of_perm hperm).symm, h.several⟩

end IsDisplayable

/-- The text of a type is read as this type. -/
theorem readType_display (h : t.IsDisplayable) (hreads : t.ReadsBack) :
    readType t.display "" = some t := by
  have htext : Text.collapse (Text.trim t.display.toList) = t.display.toList := by
    rw [h.tidy.trim_eq, h.tidy.collapse_eq]
  have hmembers : ∀ m ∈ t.members, m.ReadsBack := by
    intro m hm m' hm'
    rw [(h.plain m hm).members_eq, List.mem_singleton] at hm'
    exact hm' ▸ hreads m hm
  have hnonempty : t.display.toList.isEmpty = false := by simpa using h.tidy.ne_nil
  have hperm := memberTypes_intercalate h.members_ne_nil h.plain hmembers
  rw [← toList_display_eq] at hperm
  simp only [readType, htext, hnonempty, String.toList_empty, Bool.false_eq_true, if_false]
  exact h.union?_eq hperm

/-- A union of members of all kinds, with several enumerations and several boundaries. -/
def mixedUnion : ValueType :=
  .union [.named "None", .named "np.ndarray_2", .enumeration ["\"\x7d", "a,b"],
    .enumeration ["auto", "it's(["], .boundary ⟨.int, .inclusive 0, .unbounded⟩,
    .boundary ⟨.float, .exclusive (-0.5), .inclusive 1.5⟩, .boundary ⟨.float, .unbounded, .unbounded⟩]

theorem readType_display_mixedUnion :
    mixedUnion.IsDisplayable ∧ mixedUnion.ReadsBack ∧
      readType mixedUnion.display "" = some mixedUnion := by
  have hdisplayable : mixedUnion.IsDisplayable := by decide +kernel
  have hreads : mixedUnion.ReadsBack := by decide +kernel
  exact ⟨hdisplayable, hreads, readType_display hdisplayable hreads⟩

end ValueType

end ApiEvolution
