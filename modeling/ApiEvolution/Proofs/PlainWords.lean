import Mathlib.Data.List.Infix
import ApiEvolution.Proofs.ValueSets
import ApiEvolution.TypeText.Reader

/-!
# Names and values that stand for themselves

A type text is read with an eye to words that mean something. A name or a value is read as itself if
it is none of these words and does not mention a default (`IsPlainName`, `IsPlainValue`):

* `dropDefault_eq_self`: without a mention of a default there is no clause about it. Characters
  that are not in the word keep its mentions apart (`Mentions.of_append_cons`).
* `rangeOf_eq_none_of_word`: a word without blanks is no range, also if it begins with a base.
* `not_mentions_displayValues`: quoting values does not make them mention a default.
-/

namespace ApiEvolution

namespace TypeText

/-! ## Mentions of a word -/

/-- Whether a word occurs in a text, the case of the text's letters set aside. -/
def Mentions (word text : List Char) : Prop :=
  word <:+: text.map Char.toLower

instance (word text : List Char) : Decidable (Mentions word text) :=
  inferInstanceAs (Decidable (List.IsInfix _ _))

variable {word text a b : List Char} {c : Char}

theorem Mentions.cons (h : Mentions word text) : Mentions word (c :: text) :=
  List.infix_cons_iff.2 (.inr h)

/-- A character that is not in the word keeps apart what is before and after it. -/
theorem Mentions.of_append_cons (h : Mentions word (a ++ c :: b)) (hc : c.toLower ∉ word) :
    Mentions word a ∨ Mentions word b := by
  have hfront : ∀ part, part <+: c.toLower :: b.map Char.toLower → c.toLower ∉ part → part = [] := by
    intro part hpart hnot
    rcases List.prefix_cons_iff.1 hpart with rfl | ⟨_, rfl, -⟩
    · rfl
    · exact absurd List.mem_cons_self hnot
  rw [Mentions, List.map_append, List.map_cons, List.infix_append_iff] at h
  rcases h with hbefore | hafter | ⟨first, last, rfl, hfirst, hlast⟩
  · exact .inl hbefore
  · rcases List.infix_cons_iff.1 hafter with hhead | hbody
    · rw [Mentions, hfront word hhead hc]
      exact .inl List.nil_infix
    · exact .inr hbody
  · rw [hfront last hlast fun hmem => hc (List.mem_append_right _ hmem), List.append_nil]
    exact .inl hfirst.isInfix

theorem Mentions.of_cons (h : Mentions word (c :: text)) (hc : c.toLower ∉ word) :
    Mentions word text :=
  (Mentions.of_append_cons (a := []) h hc).elim (·.trans List.nil_infix) id

/-- The word that begins a clause about a default. -/
def defaultWord : List Char :=
  ['d', 'e', 'f', 'a', 'u', 'l', 't']

theorem toList_default : "default".toList = defaultWord := by
  simp [defaultWord]

theorem mentions_of_startsDefault (h : startsDefault text = true) : Mentions defaultWord text := by
  have htake : (text.take defaultWord.length).map Char.toLower = defaultWord := by
    rw [startsDefault, toList_default, dropWord?] at h
    by_contra hne
    rw [if_neg hne] at h
    cases h
  have hfront : text.take defaultWord.length <+: text := List.take_prefix _ _
  rw [Mentions, ← htake]
  exact (hfront.map Char.toLower).isInfix

theorem not_startsDefault_skipBlanks (h : ¬ Mentions defaultWord text) :
    startsDefault (skipBlanks text) = false := by
  refine Bool.eq_false_iff.2 fun hstarts => h ?_
  have hsuffix : skipBlanks text <:+ text := List.dropWhile_suffix _
  exact (mentions_of_startsDefault hstarts).trans ((hsuffix.isInfix).map Char.toLower)

theorem beforeDefault_eq_self (h : ¬ Mentions defaultWord text) : beforeDefault text = text := by
  induction text with
  | nil => rfl
  | cons c text ih =>
    have htext : ¬ Mentions defaultWord text := fun hmentions => h hmentions.cons
    rw [beforeDefault, not_startsDefault_skipBlanks htext, Bool.and_false, if_neg (by decide),
      ih htext]

/-- A text that mentions no default is left as it is. -/
theorem dropDefault_eq_self (h : ¬ Mentions defaultWord text) : dropDefault text = text := by
  rw [dropDefault, not_startsDefault_skipBlanks h, if_neg (by decide), beforeDefault_eq_self h]

theorem not_mentions_intercalate {texts : List (List Char)}
    (h : ∀ t ∈ texts, ¬ Mentions defaultWord t) :
    ¬ Mentions defaultWord (orText.intercalate texts) := by
  refine Text.intercalate_induction (P := fun _ joined => ¬ Mentions defaultWord joined)
    (by decide) h ?_
  intro t ht _ _ joined ih hmentions
  have hsplit : orText ++ joined = ' ' :: 'o' :: 'r' :: ' ' :: joined := rfl
  rw [hsplit] at hmentions
  rcases hmentions.of_append_cons (by decide) with hfirst | hrest
  · exact h t ht hfirst
  · exact ih (((hrest.of_cons (by decide)).of_cons (by decide)).of_cons (by decide))

/-! ## Names -/

/-- Whether a character is a letter or a digit of ASCII, an underscore or a point. -/
def isNameChar (c : Char) : Bool :=
  c.isAlphanum || c == '_' || c == '.'

/-- A name that is not taken for anything else: it consists of letters and digits of ASCII, of
underscores and points, it is no word with a meaning, and it does not mention a default. -/
structure IsPlainName (name : String) : Prop where
  nonempty : name ≠ ""
  chars : ∀ c ∈ name.toList, isNameChar c = true
  keyword : name.toList.map Char.toLower ∉ ["or".toList, "optional".toList]
  noDefault : ¬ Mentions defaultWord name.toList

instance (name : String) : Decidable (IsPlainName name) :=
  decidable_of_iff (name ≠ "" ∧ name.toList.all isNameChar = true ∧
    name.toList.map Char.toLower ∉ ["or".toList, "optional".toList] ∧
    ¬ Mentions defaultWord name.toList)
    ⟨fun h => ⟨h.1, List.all_eq_true.1 h.2.1, h.2.2.1, h.2.2.2⟩,
      fun h => ⟨h.1, List.all_eq_true.2 h.2, h.3, h.4⟩⟩

namespace IsPlainName

variable {name : String}

theorem toList_ne_nil (h : IsPlainName name) : name.toList ≠ [] := by
  simpa using h.nonempty

theorem isPlain (h : IsPlainName name) : ∀ c ∈ name.toList, isPlain c = true := by
  intro c hc
  have hname := h.chars c hc
  have hcode : 46 ≤ c.toNat ∧ c.toNat ≤ 122 := by
    simp only [isNameChar, Bool.or_eq_true, beq_iff_eq] at hname
    rcases hname with (halnum | rfl) | rfl
    · unfold Char.isAlphanum Char.isAlpha Char.isUpper Char.isLower Char.isDigit at halnum
      simp [UInt32.le_iff_toNat_le] at halnum
      omega
    · decide
    · decide
  exact isPlain_of_class (by decide) hname (by omega) (by omega)

theorem ne_backquote (h : IsPlainName name) : ∀ c ∈ name.toList, c ≠ backquote := by
  rintro c hc rfl
  exact absurd (h.chars _ hc) (by decide)

end IsPlainName

theorem scanRange_eq_none {text : List Char}
    (h : ∀ c ∈ text.head?, c ∉ ['[', '(', backquote]) : scanRange text = none := by
  cases text with
  | nil => rfl
  | cons c rest =>
    have hc := h c rfl
    simp only [List.mem_cons, not_or] at hc
    simp [scanRange, skipBackquote, hc]

/-- A word without blanks is no range, also if it begins with a base. -/
theorem rangeOf_eq_none_of_word {text : List Char} (hblank : ∀ c ∈ text, Text.isBlank c = false)
    (hhead : ∀ c ∈ text.head?, c ∉ ['[', '(', backquote]) (declared : NumberBase) :
    rangeOf declared text = none := by
  have hskip : skipBlanks text = text :=
    Text.dropWhile_eq_self fun c hc => hblank c (List.mem_of_mem_head? hc)
  have hafter : ∀ word rest, dropWord? word text = some rest → skipBlanks? rest = none := by
    intro word rest hword
    rw [dropWord?] at hword
    split at hword
    · cases hword
      cases hdrop : text.drop word.length with
      | nil => rfl
      | cons c more =>
        have hmem : c ∈ text := List.mem_of_mem_drop (hdrop ▸ List.mem_cons_self)
        rw [skipBlanks?, hblank c hmem]
        rfl
    · cases hword
  have hbase : scanBase text = none := by
    rw [scanBase]
    cases hint : dropWord? "int".toList text with
    | some rest => simp [hafter _ _ hint]
    | none =>
      cases hfloat : dropWord? "float".toList text with
      | some rest => simp [hafter _ _ hfloat]
      | none => rfl
  rw [rangeOf, hskip, hbase]
  simp [scanRange_eq_none hhead]

/-! ## Values -/

/-- A value that is not taken for anything else, once it is quoted: its characters are printed in
ASCII, there is no space and no backslash among them, and it does not mention a default. -/
structure IsPlainValue (value : String) : Prop where
  chars : ∀ c ∈ value.toList, isValueChar c = true
  noDefault : ¬ Mentions defaultWord value.toList

instance (value : String) : Decidable (IsPlainValue value) :=
  decidable_of_iff (value.toList.all isValueChar = true ∧ ¬ Mentions defaultWord value.toList)
    ⟨fun h => ⟨List.all_eq_true.1 h.1, h.2⟩, fun h => ⟨List.all_eq_true.2 h.1, h.2⟩⟩

/-- Escaping adds backslashes, which are in no word. -/
theorem not_mentions_escaped {value : String} (h : IsPlainValue value) :
    ¬ Mentions defaultWord (value.toList.flatMap Text.escape) := by
  have hmentions : (∀ part, (∀ c ∈ part, c.isAlpha = true) →
        part <+: (value.toList.flatMap Text.escape).map Char.toLower →
        part <+: value.toList.map Char.toLower) ∧
      (Mentions defaultWord (value.toList.flatMap Text.escape) →
        Mentions defaultWord value.toList) := by
    refine escaped_induction (P := fun value text =>
      (∀ part : List Char, (∀ c ∈ part, c.isAlpha = true) → part <+: text.map Char.toLower →
        part <+: value.map Char.toLower) ∧
      (Mentions defaultWord text → Mentions defaultWord value)) h.chars ?_ ?_ ?_
    · exact ⟨fun _ _ hpart => hpart, id⟩
    · intro value text ih
      refine ⟨fun part halpha hpart => ?_, fun hmentions => ?_⟩
      · rcases List.prefix_cons_iff.1 hpart with rfl | ⟨rest, rfl, -⟩
        · exact List.nil_prefix
        · exact absurd (halpha _ List.mem_cons_self) (by decide)
      · exact (ih.2 ((hmentions.of_cons (by decide)).of_cons (by decide))).cons
    · intro c value text _ _ ih
      have hfront : ∀ part : List Char, (∀ c ∈ part, c.isAlpha = true) →
          part <+: (c :: text).map Char.toLower → part <+: (c :: value).map Char.toLower := by
        intro part halpha hpart
        rcases List.prefix_cons_iff.1 hpart with rfl | ⟨rest, rfl, hrest⟩
        · exact List.nil_prefix
        · exact List.cons_prefix_cons.2
            ⟨rfl, ih.1 rest (fun d hd => halpha d (List.mem_cons_of_mem _ hd)) hrest⟩
      refine ⟨hfront, fun hmentions => ?_⟩
      rcases List.infix_cons_iff.1 hmentions with hhead | hbody
      · exact (hfront _ (List.all_eq_true.1 (by decide)) hhead).isInfix
      · exact (ih.2 hbody).cons
  exact fun hescaped => h.noDefault (hmentions.2 hescaped)

theorem not_mentions_displayValues {values : List String}
    (h : ∀ v ∈ values, IsPlainValue v) :
    ¬ Mentions defaultWord (ValueType.displayValues values).toList := by
  have hquoted : ∀ {v}, IsPlainValue v → ∀ {rest}, ¬ Mentions defaultWord rest →
      ¬ Mentions defaultWord ((Text.quoted v).toList ++ rest) := by
    intro v hv rest hrest hmentions
    rw [toList_quoted, List.cons_append, List.append_assoc] at hmentions
    rcases (hmentions.of_cons (by decide)).of_append_cons (by decide) with hvalue | hafter
    · exact not_mentions_escaped hv hvalue
    · exact hrest hafter
  have hinside : ¬ Mentions defaultWord (valuesText values ++ ['}']) := by
    refine valuesText_induction (P := fun _ text => ¬ Mentions defaultWord (text ++ ['}']))
      (by decide) ?_ ?_
    · exact fun v hv => hquoted (h v hv) (by decide)
    · intro v hv _ _ text ih
      rw [List.append_assoc]
      refine hquoted (h v hv) fun hmentions => ih ?_
      exact (hmentions.of_cons (by decide)).of_cons (by decide)
  rw [toList_displayValues]
  exact fun hmentions => hinside (hmentions.of_cons (by decide))

end TypeText

end ApiEvolution
