import Mathlib.Data.Bool.AllAny
import ApiEvolution.Proofs.NumberText
import ApiEvolution.Proofs.TypeSegments
import ApiEvolution.Proofs.UnitScores
import ApiEvolution.TypeText.Range

/-!
# Displayed ranges are read back

The text of a boundary is a base, the word "in" and an interval. A reader of segments takes it for
this boundary (`rangeOf_display`), if the limits are finite, not in the wrong order, and given back
by their digits. Every kind of limit stands next to every other, so the argument is about one limit
at a time (`scanLimit_limitText`).
-/

namespace ApiEvolution

/-! ## Limits -/

/-- The number of a limit, if it has one. -/
def Limit.number? : Limit → Option Float
  | .unbounded => none
  | .inclusive x => some x
  | .exclusive x => some x

namespace Boundary

/-- The limits are finite, and where there are two, the lower one is not greater. -/
structure IsProper (b : Boundary) : Prop where
  finite : ∀ l ∈ [b.lower, b.upper], ∀ x ∈ l.number?, x.isFinite = true
  ordered : ∀ x ∈ b.lower.number?, ∀ y ∈ b.upper.number?, x ≤ y

instance (b : Boundary) : Decidable b.IsProper :=
  decidable_of_iff ((∀ l ∈ [b.lower, b.upper], ∀ x ∈ l.number?, x.isFinite = true) ∧
    ∀ x ∈ b.lower.number?, ∀ y ∈ b.upper.number?, x ≤ y) ⟨fun h => ⟨h.1, h.2⟩, fun h => ⟨h.1, h.2⟩⟩

/-- The limits of a proper range are not in the wrong order. -/
theorem IsProper.not_lt {b : Boundary} (h : b.IsProper) (hlower : b.lower.isUnbounded = false)
    (hupper : b.upper.isUnbounded = false) : ¬ b.upper.value < b.lower.value := by
  have hnumber : ∀ l : Limit, l.isUnbounded = false → l.value ∈ l.number? := by
    intro l hl
    cases l with
    | unbounded => cases hl
    | inclusive | exclusive => rfl
  have hnan : ∀ l ∈ [b.lower, b.upper], l.isUnbounded = false → l.value.isNaN = false :=
    fun l hl hbounded =>
      (Decimal.isNumber_of_isFinite (h.finite l hl l.value (hnumber l hbounded))).1
  exact Similarity.not_lt_of_number_le (hnan _ (by simp) hlower) (hnan _ (by simp) hupper)
    (h.ordered _ (hnumber _ hlower) _ (hnumber _ hupper))

/-- The limits are given back by their digits. -/
def ReadsBack (b : Boundary) : Prop :=
  ∀ l ∈ [b.lower, b.upper], ∀ x ∈ l.number?, Decimal.read? (Decimal.prose x).toList = some x

instance (b : Boundary) : Decidable b.ReadsBack :=
  inferInstanceAs (Decidable (∀ l ∈ [b.lower, b.upper], ∀ x ∈ l.number?, _ = some x))

end Boundary

namespace TypeText

open Decimal (IsDigits IsWhole IsFraction prose)

/-! ## Numbers -/

variable {whole fraction rest : List Char} {c : Char}

theorem scanDigits_append {digits : List Char} (h : ∀ c ∈ digits, c.isDigit = true)
    (hrest : ∀ c ∈ rest.head?, Text.isDigit c = false) :
    scanDigits (digits ++ rest) = (digits, rest) := by
  have hdigits : ∀ c ∈ digits, Text.isDigit c = true := fun c hc =>
    Text.isDigit_of_isDigit (h c hc)
  rw [scanDigits, List.takeWhile_append_of_pos hdigits, List.dropWhile_append_of_pos hdigits]
  cases rest with
  | nil => simp
  | cons c rest => simp [hrest c rfl]

/-- Whether a character may follow a number in the text of a range. -/
def endsNumber (c : Char) : Bool :=
  c = ',' || c = ']' || c = ')'

theorem scanExponent_of_endsNumber (h : endsNumber c = true) (rest : List Char) :
    scanExponent (c :: rest) = ([], c :: rest) := by
  have hmark : (c = 'e' || c = 'E') = false := by
    simp only [endsNumber, Bool.or_eq_true, decide_eq_true_eq] at h
    rcases h with (rfl | rfl) | rfl <;> rfl
  simp [scanExponent, hmark]

theorem scanUnsigned_decimal (hwhole : IsWhole whole) (hfraction : IsFraction fraction)
    (hc : endsNumber c = true) (rest : List Char) :
    scanUnsigned (whole ++ (fraction ++ c :: rest)) = some (whole ++ fraction, c :: rest) := by
  have hend : Text.isDigit c = false ∧ c ≠ '.' := by
    simp only [endsNumber, Bool.or_eq_true, decide_eq_true_eq] at hc
    rcases hc with (rfl | rfl) | rfl <;> decide
  have hnot : whole.isEmpty = false := by simpa using hwhole.1.1
  have hexponent := scanExponent_of_endsNumber hc rest
  rcases hfraction with rfl | ⟨digits, rfl, hdigits⟩
  · have hscan : scanDigits (whole ++ c :: rest) = (whole, c :: rest) :=
      scanDigits_append hwhole.1.2 (by simpa using hend.1)
    simp [scanUnsigned, hscan, hend.2, hnot, hexponent]
  · have hscan : scanDigits (whole ++ '.' :: (digits ++ c :: rest)) =
        (whole, '.' :: (digits ++ c :: rest)) :=
      scanDigits_append hwhole.1.2 fun d hd => by cases hd; decide
    have hmore : scanDigits (digits ++ c :: rest) = (digits, c :: rest) :=
      scanDigits_append hdigits.2 (by simpa using hend.1)
    rw [List.cons_append, scanUnsigned, hscan]
    simp [hnot, hmore, hexponent]

/-- A number is read to its end. -/
theorem scanNumber_prose {x : Float} (hx : x.isFinite = true) (hc : endsNumber c = true)
    (rest : List Char) :
    scanNumber ((prose x).toList ++ c :: rest) = some ((prose x).toList, c :: rest) := by
  obtain ⟨whole, fraction, htext, hwhole, hfraction⟩ := Decimal.exists_decimal_prose hx
  have hunsigned := scanUnsigned_decimal hwhole hfraction hc rest
  rw [htext]
  split
  · rw [List.singleton_append, List.cons_append, List.append_assoc, scanNumber, hunsigned]
    rfl
  · obtain ⟨d, digits, rfl⟩ := List.exists_cons_of_ne_nil hwhole.1.1
    have hd : d.isDigit = true := hwhole.1.2 d List.mem_cons_self
    rw [List.nil_append, List.append_assoc]
    rw [List.cons_append] at hunsigned ⊢
    unfold scanNumber
    split
    · next heq => cases heq; cases hd
    · next heq => cases heq; cases hd
    · exact hunsigned

/-! ## Texts of limits -/

/-- A limit as a reader takes it apart. -/
def limitToken (l : Limit) : LimitToken :=
  match l.number? with
  | none => .infinite
  | some x => .number (prose x).toList

/-- The text of a limit, given the name of infinity on its side. -/
def limitText (infinity : String) (l : Limit) : List Char :=
  match l.number? with
  | none => infinity.toList
  | some x => (prose x).toList

/-- The bracket that opens an interval. -/
def openingBracket (l : Limit) : Char :=
  if l.isInclusive then '[' else '('

/-- The bracket that closes an interval. -/
def closingBracket (l : Limit) : Char :=
  if l.isInclusive then ']' else ')'

theorem toList_openingText (l : Limit) :
    (Boundary.openingText l).toList = openingBracket l :: limitText "-inf" l := by
  cases l <;>
    simp [Boundary.openingText, openingBracket, limitText, Limit.number?, Limit.isInclusive]

theorem toList_closingText (l : Limit) :
    (Boundary.closingText l).toList = limitText "inf" l ++ [closingBracket l] := by
  cases l <;>
    simp [Boundary.closingText, closingBracket, limitText, Limit.number?, Limit.isInclusive]

theorem openingBracket_cases (l : Limit) :
    openingBracket l = '[' ∧ l.isInclusive = true ∨
      openingBracket l = '(' ∧ l.isInclusive = false := by
  cases l <;> simp [openingBracket, Limit.isInclusive]

theorem closingBracket_cases (l : Limit) :
    closingBracket l = ']' ∧ l.isInclusive = true ∨
      closingBracket l = ')' ∧ l.isInclusive = false := by
  cases l <;> simp [closingBracket, Limit.isInclusive]

theorem openingBracket_induction {P : Char → Prop} (square : P '[') (round : P '(') (l : Limit) :
    P (openingBracket l) := by
  rcases openingBracket_cases l with ⟨hopen, -⟩ | ⟨hopen, -⟩ <;> rwa [hopen]

theorem closingBracket_induction {P : Char → Prop} (square : P ']') (round : P ')') (l : Limit) :
    P (closingBracket l) := by
  rcases closingBracket_cases l with ⟨hclose, -⟩ | ⟨hclose, -⟩ <;> rwa [hclose]

variable {l : Limit} {infinity : String}

/-- A limit is read to its end, if the name of infinity is. -/
theorem scanLimit_limitText {infinities : List (List Char)} (hc : endsNumber c = true)
    (hinfinity : scanLimit infinities (infinity.toList ++ c :: rest) = some (.infinite, c :: rest))
    (h : ∀ x ∈ l.number?, x.isFinite = true) :
    scanLimit infinities (limitText infinity l ++ c :: rest) = some (limitToken l, c :: rest) := by
  unfold limitText limitToken
  split
  · exact hinfinity
  · next x hx => rw [scanLimit, scanNumber_prose (h x hx) hc]

theorem toLimit?_limitToken
    (h : ∀ x ∈ l.number?, Decimal.read? (prose x).toList = some x) :
    (limitToken l).toLimit? l.isInclusive = some l := by
  cases l with
  | unbounded => rfl
  | inclusive x | exclusive x =>
    simp [limitToken, Limit.number?, LimitToken.toLimit?, h x rfl, Limit.isInclusive]

/-- Whether a character may occur in the text of a limit. -/
def isLimitChar (c : Char) : Bool :=
  c.isDigit || "-.inf".toList.contains c

theorem isPlain_of_isLimitChar (h : isLimitChar c = true) : isPlain c = true := by
  have hcode : 33 ≤ c.toNat ∧ c.toNat ≤ 126 := by
    have hcases : c.isDigit = true ∨ c ∈ "-.inf".toList := by simpa [isLimitChar] using h
    rcases hcases with hdigit | hmember
    · have hdigit : 48 ≤ c.toNat ∧ c.toNat ≤ 57 := by
        simpa [Char.isDigit, UInt32.le_iff_toNat_le] using hdigit
      omega
    · have hmembers : ∀ d ∈ "-.inf".toList, 33 ≤ d.toNat ∧ d.toNat ≤ 126 :=
        List.all_iff_forall_prop.1 (by decide)
      exact hmembers c hmember
  exact isPlain_of_class (by decide) h hcode.1 hcode.2

/-- What the text of a limit consists of. -/
structure IsLimitText (text : List Char) : Prop where
  ne_nil : text ≠ []
  chars : ∀ c ∈ text, isLimitChar c = true

namespace IsLimitText

variable {text : List Char}

theorem isPlain (h : IsLimitText text) : ∀ c ∈ text, isPlain c = true := fun c hc =>
  isPlain_of_isLimitChar (h.chars c hc)

theorem tidy (h : IsLimitText text) : Text.Tidy text :=
  tidy_of_isPlain h.ne_nil h.isPlain

theorem not_marks (h : IsLimitText text) : ∀ c ∈ text, c ∉ marks := fun c hc hmark =>
  not_mem_of_isPlain (h.isPlain c hc) (List.mem_cons_of_mem _ hmark)

theorem skipBlanks_append (h : IsLimitText text) (rest : List Char) :
    skipBlanks (text ++ rest) = text ++ rest := by
  refine Text.dropWhile_eq_self fun c hc => ?_
  rw [List.head?_append_of_ne_nil _ h.ne_nil] at hc
  exact isBlank_of_isPlain (h.isPlain c (List.mem_of_mem_head? hc))

end IsLimitText

theorem isLimitText_prose {x : Float} (hx : x.isFinite = true) :
    IsLimitText (prose x).toList := by
  obtain ⟨whole, fraction, htext, hwhole, hfraction⟩ := Decimal.exists_decimal_prose hx
  have hdigits : ∀ {digits : List Char}, IsDigits digits → ∀ c ∈ digits, isLimitChar c = true :=
    fun h c hc => by simp [isLimitChar, h.2 c hc]
  rw [htext]
  refine ⟨by simp [hwhole.1.1], List.forall_mem_append.2 ⟨?_, List.forall_mem_append.2 ⟨?_, ?_⟩⟩⟩
  · split
    · exact List.forall_mem_singleton.2 rfl
    · exact List.forall_mem_nil _
  · exact hdigits hwhole.1
  · rcases hfraction with rfl | ⟨digits, rfl, hmore⟩
    · simp
    · exact List.forall_mem_cons.2 ⟨by decide, hdigits hmore⟩

theorem isLimitText_limitText (hinfinity : IsLimitText infinity.toList)
    (h : ∀ x ∈ l.number?, x.isFinite = true) : IsLimitText (limitText infinity l) := by
  unfold limitText
  split
  · exact hinfinity
  · next x hx => exact isLimitText_prose (h x hx)

/-! ## Texts of ranges -/

/-- What a boundary's text has between its brackets. -/
def limitsText (b : Boundary) : List Char :=
  limitText "-inf" b.lower ++ (',' :: ' ' :: limitText "inf" b.upper)

/-- A boundary's text after its base. -/
def intervalText (b : Boundary) : List Char :=
  openingBracket b.lower :: (limitsText b ++ [closingBracket b.upper])

theorem toList_display (b : Boundary) :
    b.display.toList = b.base.name.toList ++ (' ' :: 'i' :: 'n' :: ' ' :: intervalText b) := by
  simp [Boundary.display, toList_openingText, toList_closingText, intervalText, limitsText]

variable {b : Boundary}

theorem isLimitText_lower (h : b.IsProper) : IsLimitText (limitText "-inf" b.lower) :=
  isLimitText_limitText ⟨by decide, List.all_eq_true.1 rfl⟩ (h.finite b.lower (by simp))

theorem isLimitText_upper (h : b.IsProper) : IsLimitText (limitText "inf" b.upper) :=
  isLimitText_limitText ⟨by decide, List.all_eq_true.1 rfl⟩ (h.finite b.upper (by simp))

/-- An interval is read as its limits and brackets. -/
theorem scanRange_intervalText (h : b.IsProper) :
    scanRange (intervalText b) = some (⟨b.lower.isInclusive, limitToken b.lower,
      limitToken b.upper, b.upper.isInclusive⟩, []) := by
  have hreadLower : ∀ rest, scanLimit lowerInfinities
      (skipBlanks (limitText "-inf" b.lower ++ ',' :: rest)) =
        some (limitToken b.lower, ',' :: rest) := by
    intro rest
    rw [(isLimitText_lower h).skipBlanks_append]
    exact scanLimit_limitText (by decide) rfl (h.finite b.lower (by simp))
  have hreadUpper : scanLimit upperInfinities
      (skipBlanks (' ' :: (limitText "inf" b.upper ++ [closingBracket b.upper]))) =
        some (limitToken b.upper, [closingBracket b.upper]) := by
    have hspace : ∀ rest, skipBlanks (' ' :: rest) = skipBlanks rest := fun _ => rfl
    rw [hspace, (isLimitText_upper h).skipBlanks_append]
    refine scanLimit_limitText ?_ ?_ (h.finite b.upper (by simp)) <;>
      rcases closingBracket_cases b.upper with ⟨hclose, -⟩ | ⟨hclose, -⟩ <;>
        rw [hclose] <;> rfl
  have hcomma : ∀ rest, skipBlanks (',' :: rest) = ',' :: rest := fun _ => rfl
  have hsquare : skipBlanks [']'] = [']'] := rfl
  have hround : skipBlanks [')'] = [')'] := rfl
  have hplain : '[' ≠ backquote ∧ '(' ≠ backquote := by decide
  rw [intervalText, limitsText, List.append_assoc, List.cons_append, List.cons_append, scanRange]
  rcases openingBracket_cases b.lower with ⟨hopen, hlowerIn⟩ | ⟨hopen, hlowerIn⟩ <;>
    rcases closingBracket_cases b.upper with ⟨hclose, hupperIn⟩ | ⟨hclose, hupperIn⟩ <;>
    · rw [hclose] at hreadUpper
      simp [hopen, hclose, hlowerIn, hupperIn, skipBackquote, hplain, hreadLower, hreadUpper,
        hcomma, hsquare, hround]

theorem toBoundary?_tokens (h : b.IsProper) (hreads : b.ReadsBack) :
    RangeToken.toBoundary? b.base ⟨b.lower.isInclusive, limitToken b.lower, limitToken b.upper,
      b.upper.isInclusive⟩ = some b := by
  have hlower := toLimit?_limitToken (hreads b.lower (by simp))
  have hupper := toLimit?_limitToken (hreads b.upper (by simp))
  rw [RangeToken.toBoundary?, hlower, hupper]
  simpa using h.not_lt

/-- The base in front of an interval is read with the word after it. -/
theorem scanBase_name (base : NumberBase) {c : Char} (hc : Text.isBlank c = false)
    (rest : List Char) :
    scanBase (base.name.toList ++ (' ' :: 'i' :: 'n' :: ' ' :: c :: rest)) =
      some (base, c :: rest) := by
  have hskip : skipBlanks (c :: rest) = c :: rest := by simp [skipBlanks, hc]
  have hword : dropWord? "in".toList ('i' :: 'n' :: ' ' :: c :: rest) = some (' ' :: c :: rest) :=
    rfl
  have hafter : skipBlanks? (' ' :: c :: rest) = some (c :: rest) :=
    congrArg some hskip
  have hbefore : skipBlanks? (' ' :: 'i' :: 'n' :: ' ' :: c :: rest) =
      some ('i' :: 'n' :: ' ' :: c :: rest) :=
    rfl
  have hbase : ∀ rest, ((dropWord? "int".toList (base.name.toList ++ rest)).map
        fun r => (NumberBase.int, r)).or
      ((dropWord? "float".toList (base.name.toList ++ rest)).map
        fun r => (NumberBase.float, r)) = some (base, rest) := by
    intro rest
    cases base <;> rfl
  rw [scanBase, hbase]
  simp only [Option.bind_eq_bind, Option.bind_some, hbefore, hword, hafter, Option.getD_some]

/-- The text of a boundary is read as this boundary, whatever base is declared. -/
theorem rangeOf_display (declared : NumberBase) (h : b.IsProper) (hreads : b.ReadsBack) :
    rangeOf declared b.display.toList = some b := by
  have hskip : skipBlanks b.display.toList = b.display.toList := by
    refine Text.dropWhile_eq_self fun c hc => ?_
    rw [toList_display] at hc
    cases hbase : b.base <;> rw [hbase] at hc <;> cases hc <;> decide
  have hbase : scanBase b.display.toList = some (b.base, intervalText b) := by
    rw [toList_display]
    exact scanBase_name b.base
      (openingBracket_induction (P := fun c => Text.isBlank c = false) rfl rfl b.lower) _
  rw [rangeOf, hskip, hbase]
  have hend : (skipBlanks []).isEmpty = true := rfl
  simp only [Option.getD_some, scanRange_intervalText h, Option.bind_eq_bind, Option.bind_some, hend,
    if_true]
  exact toBoundary?_tokens h hreads

/-! ## Displayed ranges among segments -/

theorem isPlain_of_mem_name (base : NumberBase) : ∀ c ∈ base.name.toList, isPlain c = true :=
  List.all_eq_true.1 (by cases base <;> decide)

/-- A boundary's text is no place to cut: its comma is within brackets. -/
theorem passes_display (h : b.IsProper) : Passes .start b.display.toList .start := by
  have hlimits : ∀ c ∈ limitsText b, c ∉ marks := by
    simp only [limitsText, List.forall_mem_append, List.forall_mem_cons]
    exact ⟨(isLimitText_lower h).not_marks, by decide, by decide, (isLimitText_upper h).not_marks⟩
  have hinterval : Passes .start (intervalText b) .start := by
    refine passes_bracketed ?_ ?_ (passes_of_not_marks hlimits (by simp))
    · exact openingBracket_induction (P := (· ∈ ['(', '[', '{'])) (by decide) (by decide) b.lower
    · exact closingBracket_induction (P := (· ∈ [')', ']', '}'])) (by decide) (by decide) b.upper
  have hspace : ∀ d rest, d ≠ 'o' → Passes .start (d :: rest) .start →
      Passes .start (' ' :: d :: rest) .start := fun d rest hd hrest =>
    .cons (fun _ => ⟨by decide, fun _ => ⟨d, rfl, hd⟩⟩) hrest
  have hbracket : openingBracket b.lower ≠ 'o' :=
    openingBracket_induction (P := (· ≠ 'o')) (by decide) (by decide) b.lower
  have hin : Passes .start ['i', 'n'] .start := passes_of_isPlain (List.all_eq_true.1 rfl) 0
  rw [toList_display]
  exact (passes_of_isPlain (isPlain_of_mem_name b.base) 0).append
    (hspace _ _ (by decide) (hin.append (hspace _ _ hbracket hinterval)))

theorem tidy_display (h : b.IsProper) : Text.Tidy b.display.toList := by
  have hopen : Text.isBlank (openingBracket b.lower) = false :=
    openingBracket_induction (P := fun c => Text.isBlank c = false) rfl rfl b.lower
  have hclose : Text.isBlank (closingBracket b.upper) = false :=
    closingBracket_induction (P := fun c => Text.isBlank c = false) rfl rfl b.upper
  have hinterval : Text.Tidy (intervalText b) := by
    have hlower := (Text.Tidy.singleton hopen).append
      ((isLimitText_lower h).tidy.append (.singleton (c := ',') (by decide)))
    have hupper := (isLimitText_upper h).tidy.append (.singleton hclose)
    simpa [intervalText, limitsText] using hlower.spaced hupper
  have hname : Text.Tidy b.base.name.toList :=
    tidy_of_isPlain (by cases b.base <;> decide) (isPlain_of_mem_name b.base)
  have hin : Text.Tidy ['i', 'n'] := tidy_of_isPlain (by decide) (List.all_eq_true.1 rfl)
  rw [toList_display]
  exact hname.spaced (hin.spaced hinterval)

/-- Whether a character may occur in the text of a boundary. -/
def isRangeChar (c : Char) : Bool :=
  isLimitChar c || "intfloa [](),".toList.contains c

theorem isRangeChar_of_mem_display (h : b.IsProper) :
    ∀ c ∈ b.display.toList, isRangeChar c = true := by
  have hlimit : ∀ {text}, IsLimitText text → ∀ c ∈ text, isRangeChar c = true :=
    fun htext c hc => by simp [isRangeChar, htext.chars c hc]
  have hname : ∀ c ∈ b.base.name.toList, isRangeChar c = true :=
    List.all_eq_true.1 (by cases b.base <;> decide)
  have hopen : isRangeChar (openingBracket b.lower) = true :=
    openingBracket_induction (P := fun c => isRangeChar c = true) rfl rfl b.lower
  have hclose : isRangeChar (closingBracket b.upper) = true :=
    closingBracket_induction (P := fun c => isRangeChar c = true) rfl rfl b.upper
  rw [toList_display]
  simp only [intervalText, limitsText, List.forall_mem_append, List.forall_mem_cons]
  exact ⟨hname, by decide, by decide, by decide, by decide, hopen,
    ⟨hlimit (isLimitText_lower h), by decide, by decide, hlimit (isLimitText_upper h)⟩, hclose,
    by simp⟩

end TypeText

end ApiEvolution
