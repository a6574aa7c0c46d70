import Mathlib.Data.List.Basic
import Mathlib.Data.List.TakeWhile
import Mathlib.Tactic.Common
import ApiEvolution.Decimal.Layout

/-!
# The texts of numbers

Whatever the double and the layout, the text of a number is a possible sign, a whole number without
leading zeros, a possible fraction and a possible exponent (`exists_numeral_finite`). In running text
there is no exponent (`exists_decimal_prose`).

A whole number could begin with a zero only if zeros were put behind the coefficient 0; the shortest
digits have this coefficient only for zero itself, without a scale (`shortest_proper`).
-/

namespace ApiEvolution.Decimal

/-! ## Parts of a number -/

/-- At least one decimal digit and nothing else. -/
def IsDigits (cs : List Char) : Prop :=
  cs ≠ [] ∧ ∀ c ∈ cs, c.isDigit = true

/-- Digits, of which the first is a zero only if it is the only one. -/
def IsWhole (cs : List Char) : Prop :=
  IsDigits cs ∧ (cs.head? = some '0' → cs.length = 1)

/-- Nothing, or a point with digits behind it. -/
def IsFraction (cs : List Char) : Prop :=
  cs = [] ∨ ∃ digits, cs = '.' :: digits ∧ IsDigits digits

/-- Nothing, or the mark of an exponent with a sign and digits behind it. -/
def IsExponent (cs : List Char) : Prop :=
  cs = [] ∨ ∃ sign digits, cs = 'e' :: sign :: digits ∧ (sign = '-' ∨ sign = '+') ∧ IsDigits digits

theorem isDigits_toDigits (n : Nat) : IsDigits (Nat.toDigits 10 n) :=
  ⟨Nat.toDigits_ne_nil, fun _ hc => Nat.isDigit_of_mem_toDigits (by decide) (by decide) hc⟩

theorem isDigits_zero : IsDigits ['0'] :=
  ⟨List.cons_ne_nil _ _, List.forall_mem_singleton.2 rfl⟩

theorem IsDigits.drop {cs : List Char} (h : IsDigits cs) {n : Nat} (hn : n < cs.length) :
    IsDigits (cs.drop n) := by
  refine ⟨?_, fun c hc => h.2 c (List.mem_of_mem_drop hc)⟩
  rw [← List.length_pos_iff, List.length_drop]
  omega

theorem IsDigits.take {cs : List Char} (h : IsDigits cs) {n : Nat} (hn : 0 < n) :
    IsDigits (cs.take n) := by
  refine ⟨?_, fun c hc => h.2 c (List.mem_of_mem_take hc)⟩
  have hlength := List.length_pos_iff.2 h.1
  rw [← List.length_pos_iff, List.length_take]
  omega

theorem isDigit_of_mem_zeros {n : Nat} {c : Char} (h : c ∈ (zeros n).toList) : c.isDigit = true := by
  rw [zeros, String.toList_ofList] at h
  rw [List.eq_of_mem_replicate h]
  decide

theorem IsDigits.zeros_append {cs : List Char} (h : IsDigits cs) (n : Nat) :
    IsDigits ((zeros n).toList ++ cs) := by
  refine ⟨by simp [h.1], fun c hc => ?_⟩
  exact (List.mem_append.1 hc).elim isDigit_of_mem_zeros (h.2 c)

theorem IsDigits.append_zeros {cs : List Char} (h : IsDigits cs) (n : Nat) :
    IsDigits (cs ++ (zeros n).toList) := by
  refine ⟨by simp [h.1], fun c hc => ?_⟩
  exact (List.mem_append.1 hc).elim (h.2 c) isDigit_of_mem_zeros

theorem head?_toDigits_ne_zero {n : Nat} (h : 0 < n) : (Nat.toDigits 10 n).head? ≠ some '0' := by
  induction n using Nat.strongRecOn with
  | ind n ih =>
    by_cases hn : n < 10
    · have hdigit : ∀ d < 10, 0 < d → d.digitChar ≠ '0' := by decide
      simpa [Nat.toDigits_of_lt_base hn] using hdigit n hn h
    · have hlow : 0 < n / 10 := Nat.div_pos (Nat.not_lt.1 hn) (by decide)
      have hfirst := ih (n / 10) (Nat.div_lt_self h (by decide)) hlow
      rwa [Nat.toDigits_of_base_le (by decide) (Nat.not_lt.1 hn),
        List.head?_append_of_ne_nil _ Nat.toDigits_ne_nil]

theorem isWhole_toDigits (n : Nat) : IsWhole (Nat.toDigits 10 n) := by
  refine ⟨isDigits_toDigits n, fun hzero => ?_⟩
  rcases Nat.eq_zero_or_pos n with rfl | hn
  · decide
  · exact absurd hzero (head?_toDigits_ne_zero hn)

/-! ## Layouts -/

/-- The coefficient 0 has no scale. -/
def Digits.Proper (d : Digits) : Prop :=
  d.coefficient = 0 → d.scale = 0

/-- A number by the place of its point has no exponent. -/
theorem Digits.Proper.exists_byPlace {d : Digits} (h : d.Proper) (keepsPoint : Bool) :
    ∃ whole fraction, (d.byPlace keepsPoint).toList = whole ++ fraction ∧ IsWhole whole ∧
      IsFraction fraction := by
  have hwhole := isWhole_toDigits d.coefficient
  have hhead : d.coefficient ≠ 0 → (Nat.toDigits 10 d.coefficient).head? ≠ some '0' := fun hne =>
    head?_toDigits_ne_zero (Nat.pos_of_ne_zero hne)
  unfold Digits.byPlace
  generalize Nat.toDigits 10 d.coefficient = text at hwhole hhead
  have hdigits : IsDigits text := hwhole.1
  have hlength := List.length_pos_iff.2 hdigits.1
  simp only
  split
  · refine ⟨text ++ (zeros d.scale.toNat).toList, if keepsPoint then ['.', '0'] else [], ?_, ?_, ?_⟩
    · cases keepsPoint <;> simp
    · by_cases hzero : d.coefficient = 0
      · simpa [zeros, h hzero] using hwhole
      · refine ⟨hdigits.append_zeros _, fun hfirst => ?_⟩
        rw [List.head?_append_of_ne_nil _ hdigits.1] at hfirst
        exact absurd hfirst (hhead hzero)
    · cases keepsPoint
      · exact .inl rfl
      · exact .inr ⟨['0'], rfl, isDigits_zero⟩
  · next hscale =>
    have hne : d.coefficient ≠ 0 := fun hzero => hscale (Int.le_of_eq (h hzero).symm)
    split
    · next hbefore =>
      refine ⟨text.take (text.length + d.scale).toNat, '.' :: text.drop (text.length + d.scale).toNat,
        by simp, ⟨hdigits.take (by omega), fun hfirst => ?_⟩, .inr ⟨_, rfl, hdigits.drop (by omega)⟩⟩
      rw [List.head?_take, if_neg (by omega)] at hfirst
      exact absurd hfirst (hhead hne)
    · refine ⟨['0'], '.' :: ((zeros (-(text.length + d.scale)).toNat).toList ++ text), by simp,
        ⟨isDigits_zero, fun _ => rfl⟩, .inr ⟨_, rfl, hdigits.zeros_append _⟩⟩

theorem Digits.exists_byExponent (d : Digits) :
    ∃ whole fraction exponent, d.byExponent.toList = whole ++ (fraction ++ exponent) ∧
      IsWhole whole ∧ IsFraction fraction ∧ IsExponent exponent := by
  have hdigits := isDigits_toDigits d.coefficient
  unfold Digits.byExponent
  generalize Nat.toDigits 10 d.coefficient = text at hdigits
  simp only
  generalize (text.length : Int) - 1 + d.scale = exponent
  refine ⟨text.take 1, if text.length > 1 then '.' :: text.drop 1 else [],
    'e' :: (if exponent < 0 then '-' else '+') :: Nat.toDigits 10 exponent.natAbs, ?_, ?_, ?_, ?_⟩
  · split <;> split <;> simp [natural]
  · have hlength := List.length_pos_iff.2 hdigits.1
    exact ⟨hdigits.take (by decide), fun _ => by rw [List.length_take]; omega⟩
  · split
    · next hlong => exact .inr ⟨_, rfl, hdigits.drop hlong⟩
    · exact .inl rfl
  · refine .inr ⟨_, _, rfl, ?_, isDigits_toDigits _⟩
    split <;> simp

/-! ## The shortest digits -/

theorem powerAbove_pos {b : Nat} (hb : 0 < b) (e : Int) : 0 < powerAbove b e :=
  Nat.pow_pos hb

theorem powerBelow_pos {b : Nat} (hb : 0 < b) (e : Int) : 0 < powerBelow b e :=
  Nat.pow_pos hb

/-- Zero is not read as any other number. -/
theorem Digits.coefficient_ne_zero {d : Digits} {x : Dyadic} (hx : x.significand ≠ 0)
    (h : d.readsBackTo x = true) : d.coefficient ≠ 0 := by
  intro hzero
  have hunit : 0 < powerAbove 2 x.exponent * powerBelow 10 d.scale :=
    Nat.mul_pos (powerAbove_pos (by decide) _) (powerBelow_pos (by decide) _)
  have hlow : 0 < (4 * x.significand - if x.tightBelow then 1 else 2) *
      (powerAbove 2 x.exponent * powerBelow 10 d.scale) := by
    refine Nat.mul_pos ?_ hunit
    split <;> omega
  have hdecimal : 4 * 0 * powerAbove 10 d.scale * powerBelow 2 x.exponent = 0 := by simp
  simp only [Digits.readsBackTo, hzero, hdecimal] at h
  split at h
  all_goals
    simp only [Bool.and_eq_true, decide_eq_true_eq] at h
    omega

/-- What is taken from a grid reads back. -/
theorem readsBackTo_of_onGrid {tie : Tie} {x : Dyadic} {scale : Int} {d : Digits}
    (h : onGrid tie x scale = some d) : d.readsBackTo x = true := by
  unfold onGrid at h
  simp only at h
  split at h
  · cases h
  · next hbelow _ =>
    cases h
    exact hbelow
  · next _ habove =>
    cases h
    exact habove
  · next hbelow habove =>
    split at h
    · cases h
      exact habove
    · cases h
      exact hbelow

theorem Digits.strip_coefficient_ne_zero (fuel : Nat) {d : Digits} (h : d.coefficient ≠ 0) :
    (Digits.strip fuel d).coefficient ≠ 0 := by
  induction fuel generalizing d with
  | zero => exact h
  | succ fuel ih =>
    rw [Digits.strip]
    split
    · refine ih ?_
      simp only
      omega
    · exact h

theorem shortest_proper (tie : Tie) (x : Dyadic) : (shortest tie x).Proper := by
  unfold shortest
  split
  · exact fun _ => rfl
  · next hx =>
    simp only
    cases hfound : (List.range 24).findSome? fun i =>
        onGrid tie x (coarsestScale x - Int.ofNat i) with
    | none => exact fun _ => rfl
    | some d =>
      obtain ⟨i, -, hi⟩ := List.exists_of_findSome?_eq_some hfound
      exact fun hzero => absurd hzero
        (Digits.strip_coefficient_ne_zero 20
          (Digits.coefficient_ne_zero hx (readsBackTo_of_onGrid hi)))

/-! ## Numbers in a layout -/

theorem exists_render (layout : Layout) {d : Digits} (h : d.Proper) :
    ∃ whole fraction exponent, (layout.render d).toList = whole ++ (fraction ++ exponent) ∧
      IsWhole whole ∧ IsFraction fraction ∧ IsExponent exponent := by
  have hplace : ∃ whole fraction exponent,
      (d.byPlace layout.keepsPoint).toList = whole ++ (fraction ++ exponent) ∧
        IsWhole whole ∧ IsFraction fraction ∧ IsExponent exponent := by
    obtain ⟨whole, fraction, htext, hwhole, hfraction⟩ := h.exists_byPlace layout.keepsPoint
    exact ⟨whole, fraction, [], by rw [htext, List.append_nil], hwhole, hfraction, .inl rfl⟩
  unfold Layout.render
  split
  · exact hplace
  · split
    · exact hplace
    · exact d.exists_byExponent

/-- The text of a double is a numeral with a possible sign. -/
theorem exists_numeral_finite (layout : Layout) (x : Float) :
    ∃ whole fraction exponent, (layout.finite x).toList =
        (if isNegative x then ['-'] else []) ++ (whole ++ (fraction ++ exponent)) ∧
      IsWhole whole ∧ IsFraction fraction ∧ IsExponent exponent := by
  obtain ⟨whole, fraction, exponent, htext, hparts⟩ :=
    exists_render layout (shortest_proper layout.tie (Dyadic.ofFloat x))
  refine ⟨whole, fraction, exponent, ?_, hparts⟩
  rw [Layout.finite, String.toList_append, htext]
  split <;> rfl

theorem isNumber_of_isFinite {x : Float} (h : x.isFinite = true) :
    x.isNaN = false ∧ x.isInf = false := by
  have hmodel : x.toModel.unpack.isFinite = true := h
  rw [Float.isNaN, Float.isInf, Float.Model.isNaN, Float.Model.isInf]
  cases hunpack : x.toModel.unpack with
  | notANumber | infinity =>
    rw [hunpack] at hmodel
    cases hmodel
  | zero | finite => exact ⟨rfl, rfl⟩

theorem prose_of_isFinite {x : Float} (h : x.isFinite = true) : prose x = Layout.prose.finite x := by
  obtain ⟨hnumber, hbounded⟩ := isNumber_of_isFinite h
  rw [prose, hnumber, hbounded, if_neg Bool.false_ne_true, if_neg Bool.false_ne_true]

/-- In running text the numeral of a finite double has no exponent. -/
theorem exists_decimal_prose {x : Float} (h : x.isFinite = true) :
    ∃ whole fraction, (prose x).toList =
        (if isNegative x then ['-'] else []) ++ (whole ++ fraction) ∧
      IsWhole whole ∧ IsFraction fraction := by
  obtain ⟨whole, fraction, htext, hparts⟩ :=
    (shortest_proper Layout.prose.tie (Dyadic.ofFloat x)).exists_byPlace false
  refine ⟨whole, fraction, ?_, hparts⟩
  rw [prose_of_isFinite h, Layout.finite, String.toList_append]
  refine congrArg₂ (· ++ ·) ?_ htext
  split <;> rfl

end ApiEvolution.Decimal
