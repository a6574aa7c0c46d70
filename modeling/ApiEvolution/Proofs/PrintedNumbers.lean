import Mathlib.Tactic.FieldSimp
import Mathlib.Tactic.Ring
import ApiEvolution.Decimal.Reader
import ApiEvolution.Proofs.JsonNumbers
import ApiEvolution.Proofs.ShortestDigits

/-!
# Different numbers have different texts

In whatever layout, the text of digits is read as digits of the same number
(`Digits.exists_unsigned?_render`). The shortest digits tell magnitudes apart, so the text of a
double determines the double, in every layout and for every double (`Layout.finite_inj`).

In documents an integer is never written as a double is (`integer_ne_number`): the text of a double
has a point or an exponent there.
-/

namespace ApiEvolution.Decimal

open Json

/-! ## Digits of a number -/

theorem valueOf_append (cs ds : List Char) :
    valueOf (cs ++ ds) = valueOf cs * 10 ^ ds.length + valueOf ds := by
  show Nat.ofDigitChars 10 (cs ++ ds) 0 = _
  rw [Nat.ofDigitChars_append, Nat.ofDigitChars_eq_ofDigitChars_zero, Nat.mul_comm]
  rfl

theorem toList_zeros (n : Nat) : (zeros n).toList = List.replicate n '0' := by
  rw [zeros, String.toList_ofList]

theorem valueOf_replicate_zero (n : Nat) : valueOf (List.replicate n '0') = 0 := by
  induction n with
  | zero => rfl
  | succ n ih =>
    rw [List.replicate_succ', valueOf_append, ih]
    rfl

/-! ## Texts read as digits -/

section Reading

variable {whole fraction exponent : List Char} {e : Int}

/-- A whole number with an exponent. -/
theorem unsigned?_whole (hwhole : IsDigits whole)
    (hmark : ∀ c ∈ exponent.head?, c.isDigit = false ∧ c ≠ '.') (he : exponent? exponent = some e) :
    unsigned? (whole ++ exponent) = some ⟨valueOf whole, e⟩ := by
  have hstop : ∀ c ∈ exponent.head?, c.isDigit = false := fun c hc => (hmark c hc).1
  rw [unsigned?, takeWhile_append_of_head hstop, dropWhile_append_of_head hstop,
    List.takeWhile_eq_self_iff.2 hwhole.2, List.dropWhile_eq_nil_iff.2 hwhole.2, List.nil_append]
  match exponent with
  | [] => simp [he, hwhole.1]
  | c :: rest =>
    have hpoint : c ≠ '.' := (hmark c rfl).2
    simp [hpoint, he, hwhole.1]

/-- A number with a point and an exponent. -/
theorem unsigned?_point (hwhole : IsDigits whole) (hfraction : IsDigits fraction)
    (hmark : ∀ c ∈ exponent.head?, c.isDigit = false) (he : exponent? exponent = some e) :
    unsigned? (whole ++ '.' :: (fraction ++ exponent)) =
      some ⟨valueOf (whole ++ fraction), e - fraction.length⟩ := by
  have hpoint : ∀ c ∈ ('.' :: (fraction ++ exponent)).head?, c.isDigit = false := by simp
  rw [unsigned?, takeWhile_append_of_head hpoint, dropWhile_append_of_head hpoint,
    List.takeWhile_eq_self_iff.2 hwhole.2, List.dropWhile_eq_nil_iff.2 hwhole.2, List.nil_append]
  simp only [takeWhile_append_of_head hmark, dropWhile_append_of_head hmark,
    List.takeWhile_eq_self_iff.2 hfraction.2, List.dropWhile_eq_nil_iff.2 hfraction.2,
    List.nil_append, he]
  simp [hwhole.1]

/-- A whole number without an exponent. -/
theorem unsigned?_digits (hwhole : IsDigits whole) :
    unsigned? whole = some ⟨valueOf whole, 0⟩ := by
  have hread : unsigned? (whole ++ []) = some ⟨valueOf whole, 0⟩ :=
    unsigned?_whole hwhole (by simp) rfl
  rwa [List.append_nil] at hread

/-- A number with a point and without an exponent. -/
theorem unsigned?_decimal (hwhole : IsDigits whole) (hfraction : IsDigits fraction) :
    unsigned? (whole ++ '.' :: fraction) =
      some ⟨valueOf (whole ++ fraction), 0 - fraction.length⟩ := by
  have hread : unsigned? (whole ++ '.' :: (fraction ++ [])) =
      some ⟨valueOf (whole ++ fraction), 0 - fraction.length⟩ :=
    unsigned?_point hwhole hfraction (by simp) rfl
  rwa [List.append_nil] at hread

/-- The exponent of a number is read back with its sign. -/
theorem exponent?_natAbs (e : Int) :
    exponent? ('e' :: (if e < 0 then '-' else '+') :: Nat.toDigits 10 e.natAbs) = some e := by
  obtain ⟨hne, hdigits⟩ := isDigits_toDigits e.natAbs
  have hall : (Nat.toDigits 10 e.natAbs).all Char.isDigit = true := List.all_eq_true.2 hdigits
  rw [exponent?, if_pos (Or.inl rfl)]
  by_cases hsign : e < 0
  · simp only [if_pos hsign, splitSign, hall, List.isEmpty_iff, hne, valueOf_toDigits]
    simp [abs_of_neg hsign]
  · simp only [if_neg hsign, splitSign, hall, List.isEmpty_iff, hne, valueOf_toDigits]
    simp [abs_of_nonneg (Int.not_lt.1 hsign)]

end Reading

/-! ## Layouts of a number -/

namespace Digits

/-- Zeros in front of the digits of a number do not count, and zeros behind them count as places. -/
theorem value_eq_of_padded {d d' : Digits} {text : List Char} (before behind : Nat)
    (hread : unsigned? text = some d')
    (hdigits : d'.coefficient = valueOf (List.replicate before '0' ++
      (Nat.toDigits 10 d.coefficient ++ List.replicate behind '0')))
    (hscale : d'.scale = d.scale - behind) : ∃ e, unsigned? text = some e ∧ e.value = d.value := by
  refine ⟨d', hread, ?_⟩
  rw [valueOf_append, valueOf_append, valueOf_replicate_zero, valueOf_replicate_zero,
    valueOf_toDigits, List.length_replicate] at hdigits
  rw [value, value, hdigits, hscale, zpow_sub₀ (by norm_num), zpow_natCast]
  push_cast
  field_simp
  ring

/-- A number by the place of its point is read as the same number. -/
theorem exists_unsigned?_byPlace (d : Digits) (keepsPoint : Bool) :
    ∃ e, unsigned? (d.byPlace keepsPoint).toList = some e ∧ e.value = d.value := by
  have hdigits := isDigits_toDigits d.coefficient
  have hpadded := @value_eq_of_padded d
  unfold byPlace
  simp only
  generalize Nat.toDigits 10 d.coefficient = digits at hdigits hpadded
  have hlength := List.length_pos_iff.2 hdigits.1
  split
  · next hscale =>
    -- the digits, then the zeros of the scale
    obtain ⟨k, hk⟩ : ∃ k : Nat, k = d.scale.toNat := ⟨_, rfl⟩
    have hwhole : IsDigits (digits ++ List.replicate k '0') :=
      toList_zeros _ ▸ hdigits.append_zeros k
    rw [← hk]
    cases keepsPoint with
    | true =>
      have hread := unsigned?_decimal hwhole isDigits_zero
      refine hpadded 0 (k + 1) (by simpa [toList_zeros] using hread) ?_ ?_
      · simp [List.replicate_succ']
      · simp only
        omega
    | false =>
      have hread := unsigned?_digits hwhole
      refine hpadded 0 k (by simpa [toList_zeros] using hread) (by simp) ?_
      simp only
      omega
  · next hscale =>
    split
    · next hpoint =>
      -- the point stands among the digits
      obtain ⟨w, hw⟩ : ∃ w : Nat, w = ((digits.length : Int) + d.scale).toNat := ⟨_, rfl⟩
      have hfront : IsDigits (digits.take w) := hdigits.take (by omega)
      have hfraction : IsDigits (digits.drop w) := hdigits.drop (by omega)
      have hread := unsigned?_decimal hfront hfraction
      rw [← hw]
      refine hpadded 0 0 (by simpa using hread) (by simp) ?_
      simp only
      omega
    · next hpoint =>
      -- the point stands in front of the digits, and zeros between them
      obtain ⟨k, hk⟩ : ∃ k : Nat, k = (-((digits.length : Int) + d.scale)).toNat := ⟨_, rfl⟩
      have hfraction : IsDigits (List.replicate k '0' ++ digits) :=
        toList_zeros _ ▸ hdigits.zeros_append k
      have hread := unsigned?_decimal isDigits_zero hfraction
      rw [← hk]
      refine hpadded (k + 1) 0 (by simpa [toList_zeros] using hread) ?_ ?_
      · simp [List.replicate_succ]
      · simp only
        omega

/-- A number with an exponent is read as the same number. -/
theorem exists_unsigned?_byExponent (d : Digits) :
    ∃ e, unsigned? d.byExponent.toList = some e ∧ e.value = d.value := by
  have hdigits := isDigits_toDigits d.coefficient
  have hpadded := @value_eq_of_padded d
  unfold byExponent
  simp only
  generalize Nat.toDigits 10 d.coefficient = digits at hdigits hpadded
  have hlength := List.length_pos_iff.2 hdigits.1
  obtain ⟨e, he⟩ : ∃ e : Int, e = (digits.length : Int) - 1 + d.scale := ⟨_, rfl⟩
  rw [← he]
  have hfirst : IsDigits (digits.take 1) := hdigits.take (by decide)
  have hsign : (if e < 0 then "-" else "+").toList = [if e < 0 then '-' else '+'] := by
    split <;> rfl
  by_cases hlong : digits.length > 1
  · have hread := unsigned?_point hfirst (hdigits.drop hlong) (by simp) (exponent?_natAbs e)
    rw [List.take_append_drop] at hread
    refine hpadded 0 0 (by simpa [hlong, natural, hsign] using hread) (by simp) ?_
    simp only
    omega
  · have hread := unsigned?_whole hfirst (by simp) (exponent?_natAbs e)
    have hall : digits.take 1 = digits := List.take_of_length_le (by omega)
    refine hpadded 0 0 (by simpa [hlong, natural, hsign] using hread) (by simp [hall]) ?_
    simp only
    omega

end Digits

namespace Layout

variable {layout : Layout}

/-- The text of digits in a layout is read as digits of the same number. -/
theorem exists_unsigned?_render (layout : Layout) (d : Digits) :
    ∃ e, unsigned? (layout.render d).toList = some e ∧ e.value = d.value := by
  unfold render
  split
  · exact d.exists_unsigned?_byPlace _
  · split
    · exact d.exists_unsigned?_byPlace _
    · exact d.exists_unsigned?_byExponent

theorem value_eq_of_render {d e : Digits} (h : layout.render d = layout.render e) :
    d.value = e.value := by
  obtain ⟨d', hd, hvalue⟩ := exists_unsigned?_render layout d
  obtain ⟨e', he, hvalue'⟩ := exists_unsigned?_render layout e
  rw [h, he, Option.some_inj] at hd
  rw [← hvalue, ← hvalue', hd]

/-- The text of digits begins with a digit. -/
theorem exists_digit_render (layout : Layout) {d : Digits} (h : d.Proper) :
    ∃ c cs, (layout.render d).toList = c :: cs ∧ c.isDigit = true := by
  obtain ⟨whole, fraction, exponent, htext, ⟨⟨hne, hdigits⟩, -⟩, -, -⟩ := exists_render layout h
  obtain ⟨c, cs, rfl⟩ := List.exists_cons_of_ne_nil hne
  exact ⟨c, _, htext, hdigits c List.mem_cons_self⟩

/-- In no layout two doubles have the same text. -/
theorem finite_inj {x y : Float} (h : layout.finite x = layout.finite y) : x = y := by
  obtain ⟨c, cs, hx, hc⟩ := exists_digit_render layout (shortest_proper layout.tie (.ofFloat x))
  obtain ⟨d, ds, hy, hd⟩ := exists_digit_render layout (shortest_proper layout.tie (.ofFloat y))
  have hminus : '-'.isDigit = false := by decide
  have hlists := congrArg String.toList h
  rw [finite, finite, String.toList_append, String.toList_append, hx, hy] at hlists
  -- a minus sign is no digit, so the texts begin with the same sign
  have hsigns : isNegative x = isNegative y ∧ c :: cs = d :: ds := by
    cases hxs : isNegative x <;> cases hys : isNegative y <;> simp [hxs, hys] at hlists ⊢
    · exact hlists
    · rw [hlists.1, hminus] at hc
      cases hc
    · rw [← hlists.1, hminus] at hd
      cases hd
    · exact hlists
  have hrender := String.toList_inj.1 (hx.trans (hsigns.2.trans hy.symm))
  exact eq_of_magnitude hsigns.1 (magnitude_eq_of_value_shortest (value_eq_of_render hrender))

end Layout

/-! ## Numbers in documents -/

theorem natural_inj {m n : Nat} (h : natural m = natural n) : m = n := by
  rw [← valueOf_toDigits m, ← valueOf_toDigits n, String.ofList_inj.1 h]

theorem isDigit_of_mem_natural {n : Nat} {c : Char} (h : c ∈ (natural n).toList) :
    c.isDigit = true := by
  rw [natural, String.toList_ofList] at h
  exact (isDigits_toDigits n).2 c h

/-- A natural number is written without a sign. -/
theorem natural_ne_minus (m n : Nat) : natural m ≠ "-" ++ natural n := by
  intro h
  have hminus : '-' ∈ (natural m).toList := by simp [h]
  exact absurd (isDigit_of_mem_natural hminus) (by decide)

theorem integer_inj {i j : Int} (h : integer i = integer j) : i = j := by
  cases i with
  | ofNat m =>
    cases j with
    | ofNat n => exact congrArg Int.ofNat (natural_inj h)
    | negSucc n => exact absurd h (natural_ne_minus m (n + 1))
  | negSucc m =>
    cases j with
    | ofNat n => exact absurd h.symm (natural_ne_minus n (m + 1))
    | negSucc n =>
      have hnatural : natural (m + 1) = natural (n + 1) := by
        simpa [integer, String.ext_iff] using h
      rw [Nat.succ.inj (natural_inj hnatural)]

/-- The characters of which numbers are written. -/
def isNumeral (c : Char) : Bool :=
  c.isDigit || c = '-' || c = '+' || c = '.' || c = 'e'

theorem isNumeral_of_isDigit {c : Char} (h : c.isDigit = true) : isNumeral c = true := by
  simp [isNumeral, h]

theorem isNumeral_integer {i : Int} {c : Char} (h : c ∈ (integer i).toList) :
    isNumeral c = true := by
  cases i with
  | ofNat n => exact isNumeral_of_isDigit (isDigit_of_mem_natural h)
  | negSucc n =>
    rw [integer, String.toList_append, List.mem_append] at h
    rcases h with h | h
    · obtain rfl := List.mem_singleton.1 h
      decide
    · exact isNumeral_of_isDigit (isDigit_of_mem_natural h)

theorem isNumeral_finite {layout : Layout} {x : Float} {c : Char}
    (h : c ∈ (layout.finite x).toList) : isNumeral c = true := by
  obtain ⟨whole, fraction, exponent, htext, hwhole, hfraction, hexponent⟩ :=
    exists_numeral_finite layout x
  rw [htext, List.mem_append, List.mem_append, List.mem_append] at h
  rcases h with h | h | h | h
  · split at h
    · obtain rfl := List.mem_singleton.1 h
      decide
    · cases h
  · exact isNumeral_of_isDigit (hwhole.1.2 c h)
  · rcases hfraction with rfl | ⟨digits, rfl, hdigits⟩
    · cases h
    · rcases List.mem_cons.1 h with rfl | h
      · decide
      · exact isNumeral_of_isDigit (hdigits.2 c h)
  · rcases hexponent with rfl | ⟨sign, digits, rfl, hsign, hdigits⟩
    · cases h
    · rcases List.mem_cons.1 h with rfl | h
      · decide
      rcases List.mem_cons.1 h with rfl | h
      · rcases hsign with rfl | rfl <;> decide
      · exact isNumeral_of_isDigit (hdigits.2 c h)

/-- In documents a double is written with a point or an exponent. -/
theorem exists_mark_number (x : Float) : ∃ c ∈ (number x).toList, c = '.' ∨ c = 'e' := by
  have hplace : ∀ d : Digits, '.' ∈ (d.byPlace true).toList := by
    intro d
    unfold Digits.byPlace
    simp only
    split
    · simp
    · split <;> simp
  have hexponent : ∀ d : Digits, 'e' ∈ d.byExponent.toList := by
    intro d
    simp [Digits.byExponent]
  rw [number, Layout.finite, String.toList_append]
  generalize shortest Layout.document.tie (Dyadic.ofFloat x) = d
  by_cases hrange : (-5 : Int) ≤ d.exponent ∧ d.exponent ≤ 15
  · have hrender : Layout.document.render d = d.byPlace true := if_pos hrange
    exact ⟨'.', List.mem_append_right _ (hrender ▸ hplace d), Or.inl rfl⟩
  · have hrender : Layout.document.render d = d.byExponent := if_neg hrange
    exact ⟨'e', List.mem_append_right _ (hrender ▸ hexponent d), Or.inr rfl⟩

/-- In documents no integer is written as a double is. -/
theorem integer_ne_number (i : Int) (x : Float) : integer i ≠ number x := by
  intro h
  obtain ⟨c, hc, hmark⟩ := exists_mark_number x
  rw [← h] at hc
  have hnatural : ∀ n, c ∉ (natural n).toList := by
    intro n hn
    have hdigit := isDigit_of_mem_natural hn
    rcases hmark with rfl | rfl <;> exact absurd hdigit (by decide)
  cases i with
  | ofNat n => exact hnatural n hc
  | negSucc n =>
    rw [integer, String.toList_append, List.mem_append] at hc
    rcases hc with hc | hc
    · obtain rfl := List.mem_singleton.1 hc
      rcases hmark with hmark | hmark <;> cases hmark
    · exact hnatural (n + 1) hc

/-- In documents no two doubles have the same text. -/
theorem number_inj {x y : Float} (h : number x = number y) : x = y :=
  Layout.finite_inj h

end ApiEvolution.Decimal
