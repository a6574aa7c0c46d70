import ApiEvolution.Proofs.QuotedValues
import ApiEvolution.ValueType.Basic

/-!
# Displayed enumerations are read back

The text of an enumeration is a stretch between braces that a reader finds as it is, wherever it
stands (`firstSpan_displayValues`), and its values are those of the enumeration
(`valueSet?_displayValues`). Quotes within values are escaped, so that braces and commas within them
are not taken for those of the enumeration.

A value is displayed between double quotes, and for values of simple characters this is how values
are written between braces (`displayValues_eq_inBraces`). The cursor of the segments goes over a
quoted value as well; the induction is on the characters of the value, a quote being two characters
of the text.
-/

namespace ApiEvolution.TypeText

/-! ## Quoted values -/

/-- Whether a character may occur in a value: it is printed in ASCII, and it is neither a space nor a
backslash. -/
def isValueChar (c : Char) : Bool :=
  33 ≤ c.toNat && c.toNat ≤ 126 && c ≠ '\\'

theorem escape_eq {c : Char} (h : isValueChar c = true) :
    Text.escape c = if c = '"' then ['\\', '"'] else [c] := by
  simp only [isValueChar, Bool.and_eq_true, decide_eq_true_eq] at h
  obtain ⟨⟨hlow, hhigh⟩, hslash⟩ := h
  have hne : ∀ d : Char, d.toNat < 33 → c ≠ d := by
    rintro d hd rfl
    omega
  have hvisible : Text.isVisible c = true := by
    simp only [Text.isVisible, if_pos (show c.toNat < 128 by omega), Bool.and_eq_true,
      decide_eq_true_eq]
    omega
  have hzero : c.toNat ≠ 0 := by omega
  by_cases hquote : c = '"'
  · subst hquote
    rfl
  · simp [Text.escape, hquote, hslash, hne '\n' (by decide), hne '\r' (by decide),
      hne '\t' (by decide), hzero, hvisible]

theorem isBlank_of_isValueChar {c : Char} (h : isValueChar c = true) : Text.isBlank c = false := by
  simp only [isValueChar, Bool.and_eq_true, decide_eq_true_eq] at h
  exact Text.isBlank_of_printed h.1.1 h.1.2

/-- A property of the escaped form of a value, one character at a time: a quote is escaped, and every
other character stands for itself. -/
@[elab_as_elim]
theorem escaped_induction {P : List Char → List Char → Prop} {value : List Char}
    (h : ∀ c ∈ value, isValueChar c = true) (nil : P [] [])
    (quote : ∀ value text, P value text → P ('"' :: value) ('\\' :: '"' :: text))
    (plain : ∀ c value text, isValueChar c = true → c ≠ '"' → P value text →
      P (c :: value) (c :: text)) :
    P value (value.flatMap Text.escape) := by
  induction value with
  | nil => exact nil
  | cons c value ih =>
    obtain ⟨hc, hvalue⟩ := List.forall_mem_cons.1 h
    rw [List.flatMap_cons, escape_eq hc]
    split
    · next hquote =>
      subst hquote
      exact quote _ _ (ih hvalue)
    · next hquote => exact plain c _ _ hc hquote (ih hvalue)

theorem ne_backslash_of_isValueChar {c : Char} (h : isValueChar c = true) : c ≠ '\\' := by
  rintro rfl
  cases h

theorem toList_quoted (value : String) :
    (Text.quoted value).toList = '"' :: (value.toList.flatMap Text.escape ++ ['"']) :=
  String.toList_ofList

/-- The values of an enumeration as they stand between its braces. -/
def valuesText (values : List String) : List Char :=
  ", ".toList.intercalate (values.map fun v => (Text.quoted v).toList)

theorem toList_displayValues (values : List String) :
    (ValueType.displayValues values).toList = '{' :: (valuesText values ++ ['}']) := by
  simp [ValueType.displayValues, valuesText, Function.comp_def]

variable {value : String} {values : List String}

/-- A property of the values between the braces, one value at a time. -/
theorem valuesText_induction {P : List String → List Char → Prop} (nil : P [] [])
    (one : ∀ v ∈ values, P [v] (Text.quoted v).toList)
    (more : ∀ v ∈ values, ∀ w rest text, P (w :: rest) text →
      P (v :: w :: rest) ((Text.quoted v).toList ++ (',' :: ' ' :: text))) :
    P values (valuesText values) :=
  Text.intercalate_map_induction nil one more

/-! ## The first pair of braces -/

theorem isQuotable_of_isValueChar (h : ∀ c ∈ value.toList, isValueChar c = true) :
    IsQuotable ('"', value) where
  quote := rfl
  noBackslash hmem := ne_backslash_of_isValueChar (h _ hmem) rfl

theorem quoted_eq_enquote (h : ∀ c ∈ value.toList, isValueChar c = true) :
    (Text.quoted value).toList = enquote '"' value.toList := by
  have hescape : value.toList.flatMap Text.escape = value.toList.flatMap (escapeQuote '"') := by
    rw [List.flatMap_def, List.flatMap_def]
    refine congrArg List.flatten (List.map_congr_left fun c hc => ?_)
    rw [escape_eq (h c hc), escapeQuote]
    split
    · next hquote => rw [hquote]
    · rfl
  rw [toList_quoted, hescape, enquote]

/-- Values are displayed between double quotes. -/
theorem displayValues_eq_inBraces (h : ∀ v ∈ values, ∀ c ∈ v.toList, isValueChar c = true) :
    (ValueType.displayValues values).toList = inBraces (values.map fun v => ('"', v)) := by
  rw [toList_displayValues, inBraces, valuesText, listed, List.map_map]
  rw [List.map_congr_left fun v hv => quoted_eq_enquote (h v hv)]
  rfl

theorem isQuotable_of_values (h : ∀ v ∈ values, ∀ c ∈ v.toList, isValueChar c = true) :
    ∀ v ∈ values.map fun v => ('"', v), IsQuotable v :=
  List.forall_mem_map.2 fun v hv => isQuotable_of_isValueChar (h v hv)

theorem firstSpan_eq_none {text : List Char} (h : '{' ∉ text) : firstSpan text = none := by
  have hbody : text.dropWhile (· ≠ '{') = [] := by
    refine List.dropWhile_eq_nil_iff.2 fun c hc => ?_
    simpa using fun heq : c = '{' => h (heq ▸ hc)
  simp only [firstSpan, hbody]
  rfl

/-- The first enumeration in a text is found between what is before it and what is after it. -/
theorem firstSpan_displayValues (h : ∀ v ∈ values, ∀ c ∈ v.toList, isValueChar c = true)
    {before : List Char} (hbefore : '{' ∉ before) (after : List Char) :
    firstSpan (before ++ ((ValueType.displayValues values).toList ++ after)) =
      some ⟨before, (ValueType.displayValues values).toList, after⟩ := by
  rw [displayValues_eq_inBraces h]
  exact firstSpan_inBraces (isQuotable_of_values h) hbefore after

/-- The values of a displayed enumeration are read back. -/
theorem valueSet?_displayValues (h : ∀ v ∈ values, ∀ c ∈ v.toList, isValueChar c = true)
    (hsorted : SortedSet.Sorted compare values) :
    valueSet? (ValueType.displayValues values).toList = some values := by
  have hvalues := valueSet?_eq_ofTexts (isQuotable_of_values h) (List.not_mem_nil (a := '{')) []
  rw [List.nil_append, List.append_nil, ← displayValues_eq_inBraces h, List.map_map] at hvalues
  rw [hvalues]
  refine congrArg some (hsorted.ofList_eq_of_perm ?_)
  rw [show Prod.snd ∘ (fun v : String => ('"', v)) = id from rfl, List.map_id]

/-! ## Displayed enumerations among segments -/

theorem passes_escaped (h : ∀ c ∈ value.toList, isValueChar c = true) (depth : Nat) :
    Passes ⟨depth, some '"', false⟩ (value.toList.flatMap Text.escape)
      ⟨depth, some '"', false⟩ := by
  refine escaped_induction (P := fun _ text =>
    Passes ⟨depth, some '"', false⟩ text ⟨depth, some '"', false⟩) h (.nil _) ?_ ?_
  · intro _ _ ih
    refine .cons (by simp [Cursor.isOutside]) (.cons ?_ ?_)
    · simp [Cursor.isOutside, Cursor.step]
    · simpa [Cursor.step] using ih
  · intro c _ _ hc hquote ih
    refine .cons (by simp [Cursor.isOutside]) ?_
    simpa [Cursor.step, hquote, ne_backslash_of_isValueChar hc] using ih

theorem passes_quoted (h : ∀ c ∈ value.toList, isValueChar c = true) (depth : Nat) :
    Passes ⟨depth, none, false⟩ (Text.quoted value).toList ⟨depth, none, false⟩ := by
  have hclose : Passes ⟨depth, some '"', false⟩ ['"'] ⟨depth, none, false⟩ :=
    .cons (by simp [Cursor.isOutside]) (.nil _)
  rw [toList_quoted]
  exact .cons (by simp) ((passes_escaped h depth).append hclose)

/-- An enumeration is no place to cut a text. -/
theorem passes_displayValues (h : ∀ v ∈ values, ∀ c ∈ v.toList, isValueChar c = true) :
    Passes .start (ValueType.displayValues values).toList .start := by
  have hcomma : Passes ⟨1, none, false⟩ [',', ' '] ⟨1, none, false⟩ :=
    passes_of_not_marks (by simp [marks]) (by simp)
  have hinside : Passes ⟨1, none, false⟩ (valuesText values) ⟨1, none, false⟩ := by
    refine valuesText_induction
      (P := fun _ text => Passes ⟨1, none, false⟩ text ⟨1, none, false⟩) (.nil _) ?_ ?_
    · exact fun v hv => passes_quoted (h v hv) 1
    · exact fun v hv _ _ _ ih => (passes_quoted (h v hv) 1).append (hcomma.append ih)
  rw [toList_displayValues]
  exact passes_bracketed (by decide) (by decide) hinside

theorem tidy_quoted (h : ∀ c ∈ value.toList, isValueChar c = true) :
    Text.Tidy (Text.quoted value).toList := by
  have hescaped : ∀ c ∈ value.toList.flatMap Text.escape, Text.isBlank c = false := by
    refine escaped_induction (P := fun _ text => ∀ c ∈ text, Text.isBlank c = false) h (by simp)
      ?_ ?_
    · exact fun _ _ ih => List.forall_mem_cons.2 ⟨by decide, List.forall_mem_cons.2 ⟨by decide, ih⟩⟩
    · exact fun c _ _ hc _ ih => List.forall_mem_cons.2 ⟨isBlank_of_isValueChar hc, ih⟩
  rw [toList_quoted]
  refine .of_forall (List.cons_ne_nil _ _) ?_
  simp only [List.forall_mem_cons, List.forall_mem_append]
  exact ⟨by decide, hescaped, by decide, by simp⟩

/-- The spaces in an enumeration are those after the commas. -/
theorem tidy_displayValues (hne : values ≠ [])
    (h : ∀ v ∈ values, ∀ c ∈ v.toList, isValueChar c = true) :
    Text.Tidy (ValueType.displayValues values).toList := by
  have hinside : Text.Tidy (valuesText values) := by
    refine valuesText_induction (P := fun values text => values ≠ [] → Text.Tidy text) ?_ ?_ ?_ hne
    · exact fun hnil => absurd rfl hnil
    · exact fun v hv _ => tidy_quoted (h v hv)
    · intro v hv w rest text ih _
      have hcomma := (tidy_quoted (h v hv)).append (Text.Tidy.singleton (c := ',') (by decide))
      have hrest := hcomma.spaced (ih (List.cons_ne_nil w rest))
      rwa [List.append_assoc] at hrest
  rw [toList_displayValues]
  exact (Text.Tidy.singleton (c := '{') (by decide)).append
    (hinside.append (.singleton (c := '}') (by decide)))

end ApiEvolution.TypeText
