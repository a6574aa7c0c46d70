import Mathlib.Data.List.Basic
import Mathlib.Data.List.TakeWhile
import Mathlib.Tactic.Common
import ApiEvolution.Json.Printer
import ApiEvolution.Json.Reader
import ApiEvolution.Proofs.NumberText

/-!
# Printed numbers read back

A number is read from the front of a text, and what follows is left over; only here this depends on
what follows, which must not go on with the number (`Stops`). Integers of 64 bits are read back from
their digits (`scanNumber_integer`).

The digits of a double are always read as a number to their end (`scanNumber_number`), which need
not be the double itself: the reader computes in doubles and may be off by one step. Whether it is
can be asked of each double (`readsBack`).
-/

namespace ApiEvolution.Json

/-- What follows does not go on with a number. -/
def Stops (rest : List Char) : Prop :=
  ∀ c ∈ rest.head?, c.isDigit = false ∧ c ≠ '.' ∧ c ≠ 'e' ∧ c ≠ 'E'

theorem stops_nil : Stops [] := by
  intro c hc
  cases hc

theorem stops_comma (rest : List Char) : Stops (',' :: rest) := by
  intro c hc
  cases hc
  decide

theorem stops_newLine (level : Nat) (rest : List Char) :
    Stops ((newLine level).toList ++ rest) := by
  intro c hc
  rw [newLine, String.toList_append] at hc
  cases hc
  decide

section Scanning

variable {cs rest more : List Char} {p : Char → Bool}

theorem takeWhile_append_of_head (h : ∀ c ∈ rest.head?, p c = false) (cs : List Char) :
    (cs ++ rest).takeWhile p = cs.takeWhile p := by
  induction cs with
  | nil =>
    cases rest with
    | nil => rfl
    | cons c rest => simp [h c rfl]
  | cons c cs ih =>
    cases hc : p c with
    | true => simp [hc, ih]
    | false => simp [hc]

theorem dropWhile_append_of_head (h : ∀ c ∈ rest.head?, p c = false) (cs : List Char) :
    (cs ++ rest).dropWhile p = cs.dropWhile p ++ rest := by
  induction cs with
  | nil =>
    cases rest with
    | nil => rfl
    | cons c rest => simp [h c rfl]
  | cons c cs ih =>
    cases hc : p c with
    | true => simp [hc, ih]
    | false => simp [hc]

theorem Stops.takeWhile_digits (h : Stops rest) (cs : List Char) :
    (cs ++ rest).takeWhile Char.isDigit = cs.takeWhile Char.isDigit :=
  takeWhile_append_of_head (fun c hc => (h c hc).1) cs

theorem Stops.dropWhile_digits (h : Stops rest) (cs : List Char) :
    (cs ++ rest).dropWhile Char.isDigit = cs.dropWhile Char.isDigit ++ rest :=
  dropWhile_append_of_head (fun c hc => (h c hc).1) cs

theorem scanFraction_of_head (h : ∀ c ∈ cs.head?, c ≠ '.') :
    scanFraction cs = some (none, cs) := by
  unfold scanFraction
  split
  · exact absurd rfl (h '.' rfl)
  · rfl

theorem scanFraction_append (h : Stops rest) {fraction : Option (List Char)}
    (hscan : scanFraction cs = some (fraction, more)) :
    scanFraction (cs ++ rest) = some (fraction, more ++ rest) := by
  match cs with
  | [] =>
    cases hscan
    exact scanFraction_of_head fun c hc => (h c hc).2.1
  | c :: cs =>
    by_cases hc : c = '.'
    · subst hc
      simp only [scanFraction] at hscan
      simp only [List.cons_append, scanFraction, h.takeWhile_digits, h.dropWhile_digits]
      split at hscan
      · cases hscan
      · next hdigits =>
        cases hscan
        rw [if_neg hdigits]
    · rw [scanFraction_of_head (by simpa using hc)] at hscan
      cases hscan
      exact scanFraction_of_head (by simpa using hc)

theorem splitSign_append (h : cs ≠ []) :
    Decimal.splitSign (cs ++ rest) =
      ((Decimal.splitSign cs).1, (Decimal.splitSign cs).2 ++ rest) := by
  match cs with
  | [] => exact absurd rfl h
  | c :: cs =>
    simp only [List.cons_append, Decimal.splitSign]
    split <;> split <;> simp_all

theorem scanExponent_append (h : Stops rest) {exponent : Option Int}
    (hscan : scanExponent cs = some (exponent, more)) :
    scanExponent (cs ++ rest) = some (exponent, more ++ rest) := by
  match cs with
  | [] =>
    cases hscan
    match rest with
    | [] => rfl
    | c :: rest =>
      obtain ⟨-, -, he, hE⟩ := h c rfl
      simp [scanExponent, he, hE]
  | c :: cs =>
    rw [scanExponent] at hscan
    rw [List.cons_append, scanExponent]
    split at hscan
    · next hmark =>
      have hne : cs ≠ [] := by
        rintro rfl
        simp [Decimal.splitSign] at hscan
      simp only [hmark, if_true, splitSign_append hne, h.takeWhile_digits, h.dropWhile_digits]
      dsimp only at hscan
      split at hscan
      · cases hscan
      · next hdigits =>
        cases hscan
        rw [if_neg hdigits]
    · next hmark =>
      cases hscan
      rw [if_neg hmark]
      rfl

/-- The number at the front of a text after its sign. -/
def scanUnsigned (negative : Bool) (cs : List Char) : Option (Json × List Char) := do
  let whole := cs.takeWhile Char.isDigit
  if whole.isEmpty || (whole.head? = some '0' && whole.length > 1) then none
  else
    let (fraction, rest) ← scanFraction (cs.dropWhile Char.isDigit)
    let (exponent, rest) ← scanExponent rest
    match fraction, exponent with
    | none, none => some (integerOf negative whole, rest)
    | _, _ => some (realOf negative whole (fraction.getD []) (exponent.getD 0), rest)

theorem scanNumber_minus (cs : List Char) : scanNumber ('-' :: cs) = scanUnsigned true cs :=
  rfl

theorem scanNumber_of_head (h : ∀ c ∈ cs.head?, c ≠ '-') :
    scanNumber cs = scanUnsigned false cs := by
  unfold scanNumber
  split
  next negative more hsign =>
    split at hsign
    · exact absurd rfl (h '-' rfl)
    · cases hsign
      rfl

theorem scanUnsigned_append (h : Stops rest) {negative : Bool} {v : Json}
    (hscan : scanUnsigned negative cs = some (v, more)) :
    scanUnsigned negative (cs ++ rest) = some (v, more ++ rest) := by
  unfold scanUnsigned at hscan ⊢
  simp only [h.takeWhile_digits, h.dropWhile_digits]
  dsimp only at hscan
  split at hscan
  · cases hscan
  · next hwhole =>
    simp only [if_neg hwhole]
    simp only [Option.bind_eq_bind, Option.bind_eq_some_iff] at hscan ⊢
    obtain ⟨⟨fraction, left⟩, hfraction, ⟨exponent, last⟩, hexponent, hvalue⟩ := hscan
    refine ⟨_, scanFraction_append h hfraction, _, scanExponent_append h hexponent, ?_⟩
    dsimp only at hvalue ⊢
    split at hvalue <;> cases hvalue <;> rfl

/-- A text that is read as a number from end to end is read as this number where nothing that
follows goes on with it. -/
theorem scanNumber_append (h : Stops rest) {v : Json} (hscan : scanNumber cs = some (v, [])) :
    scanNumber (cs ++ rest) = some (v, rest) := by
  match cs with
  | [] => cases hscan
  | c :: cs =>
    by_cases hc : c = '-'
    · subst hc
      exact scanUnsigned_append h hscan
    · have hhead : ∀ d ∈ (c :: cs).head?, d ≠ '-' := by simpa using hc
      rw [scanNumber_of_head hhead] at hscan
      rw [List.cons_append, scanNumber_of_head (by simpa using hc), ← List.cons_append]
      exact scanUnsigned_append h hscan

end Scanning

/-! ## Integers -/

theorem valueOf_toDigits (n : Nat) : Decimal.valueOf (Nat.toDigits 10 n) = n :=
  Nat.ofDigitChars_ten_toDigits

theorem scanUnsigned_toDigits (negative : Bool) (n : Nat) :
    scanUnsigned negative (Nat.toDigits 10 n) =
      some (integerOf negative (Nat.toDigits 10 n), []) := by
  have hdigits : ∀ c ∈ Nat.toDigits 10 n, c.isDigit = true := fun c hc =>
    Nat.isDigit_of_mem_toDigits (by decide) (by decide) hc
  have hleading : ¬ ((Nat.toDigits 10 n).isEmpty || ((Nat.toDigits 10 n).head? = some '0' &&
      (Nat.toDigits 10 n).length > 1)) = true := by
    rcases Nat.eq_zero_or_pos n with rfl | hn
    · decide
    · simp [Nat.toDigits_ne_nil, Decimal.head?_toDigits_ne_zero hn]
  unfold scanUnsigned
  simp only [List.takeWhile_eq_self_iff.2 hdigits, List.dropWhile_eq_nil_iff.2 hdigits,
    if_neg hleading]
  rfl

/-- The integers that a document can hold: those of 64 bits, with or without a sign. -/
def FitsWord (i : Int) : Prop :=
  -Int.pow 2 63 ≤ i ∧ i < Int.pow 2 64

instance (i : Int) : Decidable (FitsWord i) :=
  inferInstanceAs (Decidable (_ ∧ _))

theorem scanNumber_integer {i : Int} (h : FitsWord i) :
    scanNumber (Decimal.integer i).toList = some (.integer i, []) := by
  obtain ⟨hlow, hhigh⟩ := h
  have hsigned : Int.pow 2 63 = (Nat.pow 2 63 : Nat) := rfl
  have hunsigned : Int.pow 2 64 = (Nat.pow 2 64 : Nat) := rfl
  rw [hsigned] at hlow
  rw [hunsigned] at hhigh
  cases i with
  | ofNat n =>
    have hhead : ∀ c ∈ (Nat.toDigits 10 n).head?, c ≠ '-' := by
      rintro c hc rfl
      exact absurd (Nat.isDigit_of_mem_toDigits (by decide) (by decide) (List.mem_of_mem_head? hc))
        (by decide)
    have hn : n < Nat.pow 2 64 := Int.ofNat_lt.1 hhigh
    rw [Decimal.integer, Decimal.natural, String.toList_ofList, scanNumber_of_head hhead,
      scanUnsigned_toDigits, integerOf, valueOf_toDigits]
    simp only [if_pos hn]
    rfl
  | negSucc n =>
    have hn : 0 < n + 1 ∧ n + 1 ≤ Nat.pow 2 63 := by
      refine ⟨Nat.succ_pos n, ?_⟩
      rw [Int.negSucc_eq] at hlow
      omega
    have htext : (Decimal.integer (.negSucc n)).toList = '-' :: Nat.toDigits 10 (n + 1) := by
      simp [Decimal.integer, Decimal.natural]
    rw [htext, scanNumber_minus, scanUnsigned_toDigits, integerOf, valueOf_toDigits]
    simp only [if_pos hn]
    rfl

/-! ## Doubles -/

/-- Whether the digits of a double are read as this double. -/
def readsBack (x : Float) : Bool :=
  match scanNumber (number x).toList with
  | some (.real y, []) => y = x
  | _ => false

section Numerals

open Decimal

variable {whole fraction exponent rest : List Char}

theorem scanFraction_isFraction (hfraction : IsFraction fraction)
    (hrest : ∀ c ∈ rest.head?, c.isDigit = false ∧ c ≠ '.') :
    ∃ digits, scanFraction (fraction ++ rest) = some (digits, rest) := by
  rcases hfraction with rfl | ⟨digits, rfl, hdigits⟩
  · exact ⟨none, scanFraction_of_head fun c hc => (hrest c hc).2⟩
  · have hstop : ∀ c ∈ rest.head?, c.isDigit = false := fun c hc => (hrest c hc).1
    refine ⟨some digits, ?_⟩
    simp only [List.cons_append, scanFraction, takeWhile_append_of_head hstop,
      dropWhile_append_of_head hstop, List.takeWhile_eq_self_iff.2 hdigits.2,
      List.dropWhile_eq_nil_iff.2 hdigits.2]
    simp [hdigits.1]

theorem scanExponent_isExponent (hexponent : IsExponent exponent) :
    ∃ value, scanExponent exponent = some (value, []) := by
  rcases hexponent with rfl | ⟨sign, digits, rfl, hsign, hdigits⟩
  · exact ⟨none, rfl⟩
  · have hsplit : ∃ negative, splitSign (sign :: digits) = (negative, digits) := by
      rcases hsign with rfl | rfl <;> exact ⟨_, rfl⟩
    obtain ⟨negative, hsplit⟩ := hsplit
    simp [scanExponent, hsplit, List.takeWhile_eq_self_iff.2 hdigits.2,
      List.dropWhile_eq_nil_iff.2 hdigits.2, hdigits.1]

theorem scanUnsigned_numeral (negative : Bool) (hwhole : IsWhole whole)
    (hfraction : IsFraction fraction) (hexponent : IsExponent exponent) :
    ∃ v, scanUnsigned negative (whole ++ (fraction ++ exponent)) = some (v, []) := by
  have hmark : ∀ c ∈ exponent.head?, c.isDigit = false ∧ c ≠ '.' := by
    rcases hexponent with rfl | ⟨sign, digits, rfl, -⟩
    · simp
    · simp
  have hstop : ∀ c ∈ (fraction ++ exponent).head?, c.isDigit = false := by
    rcases hfraction with rfl | ⟨digits, rfl, -⟩
    · exact fun c hc => (hmark c hc).1
    · simp
  have hleading : ¬ (whole.isEmpty || (whole.head? = some '0' && whole.length > 1)) = true := by
    by_cases hzero : whole.head? = some '0'
    · simp [hwhole.1.1, hwhole.2 hzero]
    · simp [hwhole.1.1, hzero]
  obtain ⟨digits, hdigits⟩ := scanFraction_isFraction hfraction hmark
  obtain ⟨value, hvalue⟩ := scanExponent_isExponent hexponent
  simp only [scanUnsigned, takeWhile_append_of_head hstop, dropWhile_append_of_head hstop,
    List.takeWhile_eq_self_iff.2 hwhole.1.2, List.dropWhile_eq_nil_iff.2 hwhole.1.2,
    List.nil_append, if_neg hleading, hdigits, hvalue, Option.bind_eq_bind, Option.bind_some]
  split <;> exact ⟨_, rfl⟩

end Numerals

/-- What the reader makes of the digits of a double. -/
def rereadReal (x : Float) : Json :=
  match scanNumber (number x).toList with
  | some (v, _) => v
  | none => .unusable

/-- The digits of a double are read as a number to their end. -/
theorem scanNumber_number (x : Float) :
    scanNumber (number x).toList = some (rereadReal x, []) := by
  have hscan : ∃ v, scanNumber (number x).toList = some (v, []) := by
    obtain ⟨whole, fraction, exponent, htext, hwhole, hfraction, hexponent⟩ :=
      Decimal.exists_numeral_finite Decimal.Layout.document x
    rw [number, htext]
    by_cases hnegative : Decimal.isNegative x = true
    · rw [if_pos hnegative, List.singleton_append, scanNumber_minus]
      exact scanUnsigned_numeral true hwhole hfraction hexponent
    · rw [if_neg hnegative]
      have hhead : ∀ c ∈ (whole ++ (fraction ++ exponent)).head?, c ≠ '-' := by
        rintro c hc rfl
        rw [List.head?_append_of_ne_nil _ hwhole.1.1] at hc
        exact absurd (hwhole.1.2 '-' (List.mem_of_mem_head? hc)) (by decide)
      rw [List.nil_append, scanNumber_of_head hhead]
      exact scanUnsigned_numeral false hwhole hfraction hexponent
  obtain ⟨v, hv⟩ := hscan
  simp [rereadReal, hv]

theorem rereadReal_of_readsBack {x : Float} (h : readsBack x = true) : rereadReal x = .real x := by
  rw [readsBack, scanNumber_number] at h
  cases hread : rereadReal x with
  | real y =>
    rw [hread] at h
    rw [of_decide_eq_true h]
  | _ =>
    rw [hread] at h
    cases h

end ApiEvolution.Json
