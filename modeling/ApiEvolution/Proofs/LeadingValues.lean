import ApiEvolution.Proofs.BraceSpans
import ApiEvolution.Proofs.TypeSegments
import ApiEvolution.Proofs.WellFormedTypes

/-!
# The values at the front of a type text

A type text that begins with a brace lists the values of the parameter first. The clause about the
default is cut off before the values are looked for, and the cut does not heed quotes and braces:
it is where the first clause begins, which may be within the values. Where none begins there, the
values are a member of the type that is read (`readType_values`).

* `beforeDefault_append`: what no clause begins in is kept.
* `exists_memberTypes_eq`: the values come first among the members.
-/

namespace ApiEvolution.TypeText

/-! ## Where a clause begins -/

/-- Whether a text begins with a clause about the default: a comma or a blank, blanks, and the word.
-/
def startsClause : List Char → Bool
  | [] => false
  | c :: rest => (c = ',' || Text.isBlank c) && startsDefault (skipBlanks rest)

theorem beforeDefault_cons {c : Char} {rest : List Char} (h : startsClause (c :: rest) = false) :
    beforeDefault (c :: rest) = c :: beforeDefault rest := by
  unfold startsClause at h
  simp [beforeDefault, h]

/-- What no clause begins in is kept, whatever is cut off of what comes after it. -/
theorem beforeDefault_append {front rest : List Char}
    (h : ∀ i < front.length, startsClause ((front ++ rest).drop i) = false) :
    beforeDefault (front ++ rest) = front ++ beforeDefault rest := by
  induction front with
  | nil => rfl
  | cons c front ih =>
    have hfirst : startsClause (c :: (front ++ rest)) = false := h 0 (by simp)
    have hrest : ∀ i < front.length, startsClause ((front ++ rest).drop i) = false := by
      intro i hi
      exact h (i + 1) (by simpa using hi)
    show beforeDefault (c :: (front ++ rest)) = c :: (front ++ beforeDefault rest)
    rw [beforeDefault_cons hfirst, ih hrest]

theorem isPrefix_beforeDefault (text : List Char) : beforeDefault text <+: text := by
  induction text with
  | nil => exact List.prefix_refl []
  | cons c rest ih =>
    unfold beforeDefault
    split
    · exact List.nil_prefix
    · exact (List.prefix_cons_inj c).2 ih

/-! ## The values among the members -/

open ValueType

variable {text : List Char} {s : Span} {values : List String}

/-- The pair of braces with which a text begins is left as it is. -/
theorem dropDefault_eq (hspan : firstSpan text = some s) (hbefore : s.before = [])
    (hclause : ∀ i < s.inside.length, startsClause (text.drop i) = false) :
    dropDefault text = s.inside ++ beforeDefault s.after := by
  obtain ⟨htext, -, hhead⟩ := firstSpan_parts hspan
  rw [hbefore, List.nil_append] at htext
  rw [htext] at hclause
  -- no clause is at the very front, where there is a brace
  have hfront : startsDefault (skipBlanks (s.inside ++ s.after)) = false := by
    obtain ⟨more, hmore⟩ := List.head?_eq_some_iff.1 hhead
    rw [hmore]
    rfl
  rw [htext, dropDefault, hfront, if_neg (by decide), beforeDefault_append hclause]

/-- The values come first among the members that a text has. -/
theorem exists_memberTypes_eq (hhead : text.head? = some '{')
    (hvalues : valueSet? text = some values) (hne : values ≠ [])
    (hclause : ∀ s ∈ firstSpan text, ∀ i < s.inside.length, startsClause (text.drop i) = false)
    (description : List Char) :
    ∃ others, memberTypes text description = .enumeration values :: others := by
  obtain ⟨s, hspan, hbody⟩ := Option.map_eq_some_iff.1 hvalues
  have hbefore : s.before = [] := by
    obtain ⟨n, -, rfl⟩ := firstSpan_eq_some_iff.1 hspan
    obtain ⟨more, rfl⟩ := List.head?_eq_some_iff.1 hhead
    rfl
  have hdrop := dropDefault_eq hspan hbefore (hclause s hspan)
  -- what is left begins with the same braces, and their values are those of the text
  have hleft := firstSpan_append hspan (isPrefix_beforeDefault s.after)
  have hinside := (valueSet?_inside hspan).trans hvalues
  obtain ⟨v, vs, rfl⟩ := List.exists_cons_of_ne_nil hne
  rw [memberTypes, hdrop, hleft, Option.bind_some, hinside]
  exact ⟨_, rfl⟩

/-- A type that is read from a text that begins with the braces of some values has these values as
a member, unless a clause about the default begins within the braces. -/
theorem readType_values {typeText description : String} {values : List String}
    (htidy : Text.Tidy typeText.toList) (hhead : typeText.toList.head? = some '{')
    (hvalues : valueSet? typeText.toList = some values) (hne : values ≠ [])
    (hclause : ∀ s ∈ firstSpan typeText.toList, ∀ i < s.inside.length,
      startsClause (typeText.toList.drop i) = false) :
    ∃ t, readType typeText description = some t ∧ .enumeration values ∈ t.members := by
  obtain ⟨others, hmembers⟩ :=
    exists_memberTypes_eq hhead hvalues hne hclause description.toList
  have hfamily : ∀ m ∈ memberTypes typeText.toList description.toList, m.family ≠ .union := by
    intro m hm
    exact (isProperMember_of_memberTypes hm).family_ne
  have htext : typeText.toList.isEmpty = false := by simpa using htidy.ne_nil
  unfold readType
  simp only [htidy.trim_eq, htidy.collapse_eq, htext, Bool.false_eq_true, if_false]
  rw [hmembers] at hfamily ⊢
  obtain ⟨t, ht⟩ := exists_union? hfamily (List.cons_ne_nil _ _)
  exact ⟨t, ht, (mem_members_of_union? hfamily ht).2 List.mem_cons_self⟩

/-- A type text with a brace within a value and a clause about the default after the values. -/
def bracedTypeText : String :=
  "\x7b'a\x7db', 'default'\x7d or str, default='c'"

theorem readType_values_braced :
    (Text.Tidy bracedTypeText.toList ∧ bracedTypeText.toList.head? = some '{' ∧
      valueSet? bracedTypeText.toList = some ["a\x7db", "default"] ∧
      ∀ s ∈ firstSpan bracedTypeText.toList, ∀ i < s.inside.length,
        startsClause (bracedTypeText.toList.drop i) = false) ∧
      ∃ t, readType bracedTypeText "" = some t ∧ .enumeration ["a\x7db", "default"] ∈ t.members := by
  have htidy : Text.Tidy bracedTypeText.toList := by decide +kernel
  have hhead : bracedTypeText.toList.head? = some '{' := rfl
  have hvalues : valueSet? bracedTypeText.toList = some ["a\x7db", "default"] := by decide +kernel
  have hclause : ∀ s ∈ firstSpan bracedTypeText.toList, ∀ i < s.inside.length,
      startsClause (bracedTypeText.toList.drop i) = false := by decide +kernel
  exact ⟨⟨htidy, hhead, hvalues, hclause⟩,
    readType_values htidy hhead hvalues (List.cons_ne_nil _ _) hclause⟩

/-- A type text with the word within a value, which is taken for a clause. -/
def quotedDefaultText : String :=
  "\x7b'by default', 'never'\x7d"

/-- The condition on clauses is needed: without it all values can be lost, and the type with them.
-/
theorem readType_quotedDefaultText :
    (Text.Tidy quotedDefaultText.toList ∧ quotedDefaultText.toList.head? = some '{' ∧
      valueSet? quotedDefaultText.toList = some ["by default", "never"]) ∧
      readType quotedDefaultText "" = none := by
  refine ⟨⟨?_, rfl, ?_⟩, ?_⟩ <;> decide +kernel

end ApiEvolution.TypeText
