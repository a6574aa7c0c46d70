import ApiEvolution.Proofs.BraceSpans
import ApiEvolution.Proofs.SortedSet
import ApiEvolution.Proofs.TypeSegments

/-!
# Quoted values are read back

Texts without backslashes are written as values between braces, each between quotes of either kind
and with a backslash before every quote of its own kind. Wherever the braces stand, the values that
are read are these texts (`valueSet?_inBraces`).

Two readers go over a quoted value: the one that looks for the closing brace (`skips_enquote`) and
the one that collects values (`valuesFrom_enquote`). For each of them the induction is on the
characters of the value, a quote of its own kind being two characters of the text. The readers agree
on where a value ends, so that braces, commas and other quotes within it mean nothing to either.
-/

namespace ApiEvolution.TypeText

/-! ## Quoting -/

/-- A character of a value as it is written between quotes. -/
def escapeQuote (q c : Char) : List Char :=
  if c = q then ['\\', c] else [c]

/-- A value between quotes. -/
def enquote (q : Char) (value : List Char) : List Char :=
  q :: (value.flatMap (escapeQuote q) ++ [q])

/-- Values with commas between them, each with the quote between which it is written. -/
def listed (values : List (Char × String)) : List Char :=
  ", ".toList.intercalate (values.map fun v => enquote v.1 v.2.toList)

/-- Values between braces. -/
def inBraces (values : List (Char × String)) : List Char :=
  '{' :: (listed values ++ ['}'])

/-- A value that can be written: it has no backslash, and it is given with a quote. -/
structure IsQuotable (v : Char × String) : Prop where
  quote : isQuote v.1 = true
  noBackslash : '\\' ∉ v.2.toList

instance (v : Char × String) : Decidable (IsQuotable v) :=
  decidable_of_iff (isQuote v.1 = true ∧ '\\' ∉ v.2.toList)
    ⟨fun h => ⟨h.1, h.2⟩, fun h => ⟨h.quote, h.noBackslash⟩⟩

variable {q : Char} {value : List Char} {values : List (Char × String)}

theorem ne_backslash_of_isQuote (h : isQuote q = true) : q ≠ '\\' := by
  rintro rfl
  cases h

/-- A property of a value and of what is written for it, one character at a time: a quote of its own
kind becomes two characters, and every other character stands for itself. -/
@[elab_as_elim]
theorem escapeQuote_induction {P : List Char → List Char → Prop} (h : '\\' ∉ value) (nil : P [] [])
    (quote : ∀ value text, P value text → P (q :: value) ('\\' :: q :: text))
    (plain : ∀ c value text, c ≠ '\\' → c ≠ q → P value text → P (c :: value) (c :: text)) :
    P value (value.flatMap (escapeQuote q)) := by
  induction value with
  | nil => exact nil
  | cons c value ih =>
    obtain ⟨hc, hvalue⟩ := not_or.1 (mt List.mem_cons.2 h)
    rw [List.flatMap_cons, escapeQuote]
    split
    · next hquote =>
      subst hquote
      exact quote _ _ (ih hvalue)
    · next hquote => exact plain c _ _ (Ne.symm hc) hquote (ih hvalue)

/-- A property of values with commas between them, one value at a time. -/
theorem listed_induction {P : List (Char × String) → List Char → Prop} (nil : P [] [])
    (one : ∀ v ∈ values, P [v] (enquote v.1 v.2.toList))
    (more : ∀ v ∈ values, ∀ w rest text, P (w :: rest) text →
      P (v :: w :: rest) (enquote v.1 v.2.toList ++ (',' :: ' ' :: text))) :
    P values (listed values) :=
  Text.intercalate_map_induction nil one more

/-! ## The closing brace -/

/-- Between the braces, reading a text leads from one state of the quotes to another. -/
def Skips (quote : Option Char) (text : List Char) (quote' : Option Char) : Prop :=
  ∀ rest, balanced true 1 quote false (text ++ rest) =
    (balanced true 1 quote' false rest).map (· + text.length)

theorem Skips.append {q q' q'' : Option Char} {a b : List Char} (ha : Skips q a q')
    (hb : Skips q' b q'') : Skips q (a ++ b) q'' := by
  intro rest
  rw [List.append_assoc, ha, hb, Option.map_map, List.length_append]
  congr 1
  funext n
  simp only [Function.comp_apply]
  omega

theorem skips_escapeQuote (hq : isQuote q = true) (h : '\\' ∉ value) :
    Skips (some q) (value.flatMap (escapeQuote q)) (some q) := by
  have hne := ne_backslash_of_isQuote hq
  refine escapeQuote_induction (P := fun _ text => Skips (some q) text (some q)) h ?_ ?_ ?_
  · intro rest
    simp
  · intro _ text ih rest
    simp [balanced, ih rest, hne, hne.symm, Function.comp_def, Nat.add_assoc]
  · intro c _ text hc hquote ih rest
    simp [balanced, hquote, hc, ih rest, Function.comp_def, Nat.add_assoc]

theorem skips_enquote (hq : isQuote q = true) (h : '\\' ∉ value) :
    Skips none (enquote q value) none := by
  have hne := ne_backslash_of_isQuote hq
  have hopen : Skips none [q] (some q) := fun rest => by simp [balanced, hq, hne]
  have hclose : Skips (some q) [q] none := fun rest => by simp [balanced, hne]
  exact hopen.append ((skips_escapeQuote hq h).append hclose)

theorem skips_listed (h : ∀ v ∈ values, IsQuotable v) : Skips none (listed values) none := by
  have hcomma : Skips none [',', ' '] none := fun rest => by
    simp [balanced, isQuote, Function.comp_def, Nat.add_assoc]
  have hvalue : ∀ v ∈ values, Skips none (enquote v.1 v.2.toList) none := fun v hv =>
    skips_enquote (h v hv).quote (h v hv).noBackslash
  refine listed_induction (P := fun _ text => Skips none text none) ?_ hvalue ?_
  · intro rest
    simp
  · exact fun v hv _ _ _ ih => (hvalue v hv).append (hcomma.append ih)

theorem balanced_inBraces (h : ∀ v ∈ values, IsQuotable v) (after : List Char) :
    balanced true 0 none false (inBraces values ++ after) = some (inBraces values).length := by
  have hinside := skips_listed h ('}' :: after)
  rw [inBraces, List.cons_append, balanced]
  simp [isQuote, hinside, balanced, Nat.add_comm]

/-- The first values between braces are found between what is before them and what is after them. -/
theorem firstSpan_inBraces (h : ∀ v ∈ values, IsQuotable v) {before : List Char}
    (hbefore : '{' ∉ before) (after : List Char) :
    firstSpan (before ++ (inBraces values ++ after)) = some ⟨before, inBraces values, after⟩ := by
  refine firstSpan_of_spanLength? hbefore rfl ?_
  rw [spanLength?, balanced_inBraces h after]
  rfl

/-! ## The values -/

theorem unescape_cons_of_ne {c : Char} {rest : List Char} (h : c ≠ '\\') :
    unescape q (c :: rest) = c :: unescape q rest := by
  cases rest with
  | nil => rfl
  | cons d rest => rw [unescape, if_neg fun hc => h hc.1]

theorem unescape_eq_self (h : '\\' ∉ value) : unescape q value = value := by
  induction value with
  | nil => rfl
  | cons c value ih =>
    obtain ⟨hc, hvalue⟩ := not_or.1 (mt List.mem_cons.2 h)
    rw [unescape_cons_of_ne (Ne.symm hc), ih hvalue]

theorem unescape_escapeQuote_self (h : '\\' ∉ value) :
    unescape q (value.flatMap (escapeQuote q)) = value := by
  refine escapeQuote_induction (P := fun value text => unescape q text = value) h rfl ?_ ?_
  · intro _ _ ih
    rw [unescape, if_pos ⟨rfl, rfl⟩, ih]
  · intro c _ _ hc _ ih
    rw [unescape_cons_of_ne hc, ih]

/-- The backslashes that are written are all before quotes of one kind. -/
theorem unescape_escapeQuote_of_ne {r : Char} (hq : q ≠ '\\') (hr : q ≠ r) (h : '\\' ∉ value) :
    unescape r (value.flatMap (escapeQuote q)) = value.flatMap (escapeQuote q) := by
  refine escapeQuote_induction (P := fun _ text => unescape r text = text) h rfl ?_ ?_
  · intro _ _ ih
    rw [unescape, if_neg fun hboth => hr hboth.2, unescape_cons_of_ne hq, ih]
  · intro c _ _ hc _ ih
    rw [unescape_cons_of_ne hc, ih]

/-- Dropping the backslashes before quotes of both kinds undoes what was written. -/
theorem unescape_unescape (hq : isQuote q = true) (h : '\\' ∉ value) :
    unescape '\'' (unescape '"' (value.flatMap (escapeQuote q))) = value := by
  have hkinds : q = '"' ∨ q = '\'' := by simpa [isQuote] using hq
  rcases hkinds with rfl | rfl
  · rw [unescape_escapeQuote_self h, unescape_eq_self h]
  · rw [unescape_escapeQuote_of_ne (by decide) (by decide) h, unescape_escapeQuote_self h]

theorem valuesFrom_escapeQuote (hq : isQuote q = true) (h : '\\' ∉ value) (read rest : List Char) :
    valuesFrom (some q) false read (value.flatMap (escapeQuote q) ++ q :: rest) =
      unescape '\'' (unescape '"' (read.reverse ++ value.flatMap (escapeQuote q))) ::
        valuesFrom none false [] rest := by
  have hne := ne_backslash_of_isQuote hq
  refine escapeQuote_induction (P := fun _ text => ∀ read,
    valuesFrom (some q) false read (text ++ q :: rest) =
      unescape '\'' (unescape '"' (read.reverse ++ text)) :: valuesFrom none false [] rest)
    h ?_ ?_ ?_ read
  · intro read
    simp [valuesFrom, hne]
  · intro _ text ih read
    simp [valuesFrom, hne, hne.symm, ih]
  · intro c _ text hc hquote ih read
    simp [valuesFrom, hquote, hc, ih]

theorem valuesFrom_enquote (hq : isQuote q = true) (h : '\\' ∉ value) (rest : List Char) :
    valuesFrom none false [] (enquote q value ++ rest) =
      value :: valuesFrom none false [] rest := by
  have hne := ne_backslash_of_isQuote hq
  have hvalue := valuesFrom_escapeQuote hq h [] rest
  rw [List.reverse_nil, List.nil_append, unescape_unescape hq h] at hvalue
  rw [enquote, List.cons_append, List.append_assoc, valuesFrom]
  simpa [hq, hne] using hvalue

theorem valuesFrom_listed (h : ∀ v ∈ values, IsQuotable v) :
    valuesFrom none false [] (listed values) = values.map fun v => v.2.toList := by
  have hcomma : ∀ rest, valuesFrom none false [] (',' :: ' ' :: rest) =
      valuesFrom none false [] rest := fun rest => by simp [valuesFrom, isQuote]
  refine listed_induction
    (P := fun values text => valuesFrom none false [] text = values.map fun v => v.2.toList) rfl
    ?_ ?_
  · intro v hv
    have hvalue := valuesFrom_enquote (h v hv).quote (h v hv).noBackslash []
    rwa [List.append_nil] at hvalue
  · intro v hv w rest text ih
    rw [valuesFrom_enquote (h v hv).quote (h v hv).noBackslash, hcomma, ih]
    rfl

theorem quotedValues_listed (h : ∀ v ∈ values, IsQuotable v) :
    quotedValues (listed values) = SortedSet.ofTexts (values.map Prod.snd) := by
  rw [quotedValues, valuesFrom_listed h, List.map_map]
  simp [Function.comp_def]

theorem valueSet?_eq_ofTexts (h : ∀ v ∈ values, IsQuotable v) {before : List Char}
    (hbefore : '{' ∉ before) (after : List Char) :
    valueSet? (before ++ (inBraces values ++ after)) =
      some (SortedSet.ofTexts (values.map Prod.snd)) := by
  have hbody : Span.body ⟨before, inBraces values, after⟩ = listed values := by
    simp [Span.body, inBraces]
  rw [valueSet?, firstSpan_inBraces h hbefore, Option.map_some, hbody, quotedValues_listed h]

/-- Values that are written between braces are read back: what is read is the set of them. -/
theorem valueSet?_inBraces (h : ∀ v ∈ values, IsQuotable v) {before : List Char}
    (hbefore : '{' ∉ before) (after : List Char) :
    ∃ found, valueSet? (before ++ (inBraces values ++ after)) = some found ∧
      SortedSet.Sorted compare found ∧ ∀ text, text ∈ found ↔ ∃ v ∈ values, v.2 = text := by
  refine ⟨_, valueSet?_eq_ofTexts h hbefore after, SortedSet.sorted_ofList _, fun text => ?_⟩
  rw [SortedSet.ofTexts, SortedSet.mem_ofList_iff, List.mem_map]

/-- Values with braces, commas and quotes of both kinds at their ends. -/
def foreignQuotes : List (Char × String) :=
  [('"', "a\"\x7d"), ('\'', "\x7b, \"'")]

theorem valueSet?_inBraces_foreignQuotes :
    ((∀ v ∈ foreignQuotes, IsQuotable v) ∧ '{' ∉ "one of ".toList) ∧
      ∃ found, valueSet? ("one of ".toList ++ (inBraces foreignQuotes ++ "\x7d, \x7b'b'".toList)) =
        some found ∧ SortedSet.Sorted compare found ∧
          ∀ text, text ∈ found ↔ ∃ v ∈ foreignQuotes, v.2 = text := by
  have hquotable : ∀ v ∈ foreignQuotes, IsQuotable v := by decide
  have hbefore : '{' ∉ "one of ".toList := by decide
  exact ⟨⟨hquotable, hbefore⟩, valueSet?_inBraces hquotable hbefore _⟩

end ApiEvolution.TypeText
