import Mathlib.Algebra.Order.Field.Power
import Mathlib.Data.Rat.Cast.Order
import Mathlib.Tactic.FieldSimp
import Mathlib.Tactic.Linarith
import Mathlib.Tactic.Positivity
import Mathlib.Tactic.Ring
import ApiEvolution.Proofs.NumberText

/-!
# The shortest digits tell doubles apart

A rational number rounds to a double if it lies in the interval around it (`Dyadic.Rounds`), which
ends half way to the neighbours. The shortest digits of every double round to it
(`rounds_shortest`), and no number rounds to two doubles (`Dyadic.Rounds.unique`). So the shortest
digits of different magnitudes are different numbers (`magnitude_eq_of_value_shortest`).

* That one of the grids has such digits is a matter of size: the finest of them is finer than a
  quarter of the distance between doubles (`exists_onGrid`). The grids are counted from an estimate
  of the logarithm, for which `10 ^ 1233` is just below `2 ^ 4096` (`ten_zpow_le`).
* That no number rounds to two doubles is a matter of neighbours: where the interval of a magnitude
  ends, that of the next one begins (`Dyadic.upper_ofMagnitude`), and of two neighbours only the
  even one has the end between them.
-/

namespace ApiEvolution.Decimal

/-! ## Intervals -/

/-- The number that digits stand for. -/
def Digits.value (d : Digits) : ℚ :=
  d.coefficient * 10 ^ d.scale

namespace Dyadic

/-- The number itself. -/
def value (x : Dyadic) : ℚ :=
  x.significand * 2 ^ x.exponent

/-- The least number that could round to this one, half way from the next smaller double. -/
def lower (x : Dyadic) : ℚ :=
  (4 * x.significand - if x.tightBelow then 1 else 2) / 4 * 2 ^ x.exponent

/-- The greatest number that could round to this one, half way to the next greater double. -/
def upper (x : Dyadic) : ℚ :=
  (4 * x.significand + 2) / 4 * 2 ^ x.exponent

/-- A number rounds to a double; half way between two doubles it rounds to the even one. -/
def Rounds (r : ℚ) (x : Dyadic) : Prop :=
  if x.significand % 2 = 0 then x.lower ≤ r ∧ r ≤ x.upper else x.lower < r ∧ r < x.upper

variable {r : ℚ} {x : Dyadic}

theorem rounds_of_lt (hlower : x.lower < r) (hupper : r < x.upper) : Rounds r x := by
  rw [Rounds]
  split
  · exact ⟨hlower.le, hupper.le⟩
  · exact ⟨hlower, hupper⟩

theorem Rounds.lower_le (h : Rounds r x) : x.lower ≤ r := by
  rw [Rounds] at h
  split at h
  · exact h.1
  · exact h.1.le

theorem Rounds.le_upper (h : Rounds r x) : r ≤ x.upper := by
  rw [Rounds] at h
  split at h
  · exact h.2
  · exact h.2.le

/-- Only an even double has the ends of its interval. -/
theorem Rounds.even (h : Rounds r x) (hend : r = x.lower ∨ r = x.upper) :
    x.significand % 2 = 0 := by
  rw [Rounds] at h
  split at h
  · assumption
  · rcases hend with rfl | rfl
    · exact absurd h.1 (lt_irrefl _)
    · exact absurd h.2 (lt_irrefl _)

theorem lower_lt_upper (x : Dyadic) : x.lower < x.upper := by
  have hunit : (0 : ℚ) < 2 ^ x.exponent := by positivity
  rw [lower, upper]
  refine mul_lt_mul_of_pos_right ?_ hunit
  split <;> linarith

end Dyadic

/-! ## Reading back is rounding -/

/-- The two parts of a power. -/
theorem powerAbove_eq {b : Nat} (hb : b ≠ 0) (e : Int) :
    (powerAbove b e : ℚ) = b ^ e * powerBelow b e := by
  have hne : (b : ℚ) ≠ 0 := Nat.cast_ne_zero.2 hb
  rw [powerAbove, powerBelow, Nat.pow_eq, Nat.pow_eq, Nat.cast_pow, Nat.cast_pow]
  rw [← zpow_natCast, ← zpow_natCast, ← zpow_add₀ hne]
  congr 1
  omega

section Clearing

variable {d : Digits} {x : Dyadic} {scale : Int}

/-- The factor that clears the denominators of a power of ten and a dyadic number. -/
def clearing (x : Dyadic) (scale : Int) : ℕ :=
  powerBelow 10 scale * powerBelow 2 x.exponent

theorem clearing_pos (x : Dyadic) (scale : Int) : (0 : ℚ) < clearing x scale :=
  Nat.cast_pos.2 (Nat.mul_pos (powerBelow_pos (by decide) _) (powerBelow_pos (by decide) _))

theorem cast_powerAbove_ten (x : Dyadic) (scale : Int) :
    (powerAbove 10 scale * powerBelow 2 x.exponent : ℚ) = 10 ^ scale * clearing x scale := by
  have hten := powerAbove_eq (b := 10) (by decide) scale
  rw [clearing, hten]
  push_cast
  ring

theorem cast_powerAbove_two (x : Dyadic) (scale : Int) :
    (powerAbove 2 x.exponent * powerBelow 10 scale : ℚ) = 2 ^ x.exponent * clearing x scale := by
  have htwo := powerAbove_eq (b := 2) (by decide) x.exponent
  rw [clearing, htwo]
  push_cast
  ring

/-- Whether digits read back is whether their number rounds to the double. -/
theorem Digits.readsBackTo_iff (hx : x.significand ≠ 0) :
    d.readsBackTo x = true ↔ Dyadic.Rounds d.value x := by
  obtain ⟨f, hf⟩ : ∃ f : ℚ, f = 4 * clearing x d.scale := ⟨_, rfl⟩
  have hpos : 0 < f := hf ▸ mul_pos (by norm_num) (clearing_pos x d.scale)
  have hdecimal : ((4 * d.coefficient * powerAbove 10 d.scale * powerBelow 2 x.exponent : ℕ) : ℚ) =
      f * d.value := by
    push_cast
    rw [mul_assoc, cast_powerAbove_ten, hf, Digits.value]
    ring
  have hhigh : (((4 * x.significand + 2) * (powerAbove 2 x.exponent * powerBelow 10 d.scale) : ℕ) :
      ℚ) = f * x.upper := by
    push_cast
    rw [cast_powerAbove_two, hf, Dyadic.upper]
    ring
  have hlow : (((4 * x.significand - (if x.tightBelow then 1 else 2)) *
      (powerAbove 2 x.exponent * powerBelow 10 d.scale) : ℕ) : ℚ) = f * x.lower := by
    have hle : (if x.tightBelow then 1 else 2) ≤ 4 * x.significand := by split <;> omega
    push_cast [Nat.cast_sub hle]
    rw [cast_powerAbove_two, hf, Dyadic.lower]
    ring
  rw [Digits.readsBackTo, Dyadic.Rounds]
  split
  · rw [Bool.and_eq_true, decide_eq_true_iff, decide_eq_true_iff, ← Nat.cast_le (α := ℚ),
      ← Nat.cast_le (α := ℚ), hlow, hdecimal, hhigh, mul_le_mul_iff_right₀ hpos,
      mul_le_mul_iff_right₀ hpos]
  · rw [Bool.and_eq_true, decide_eq_true_iff, decide_eq_true_iff, ← Nat.cast_lt (α := ℚ),
      ← Nat.cast_lt (α := ℚ), hlow, hdecimal, hhigh, mul_lt_mul_iff_right₀ hpos,
      mul_lt_mul_iff_right₀ hpos]

/-- The neighbour below on a grid is less than one step of the grid away. -/
theorem value_neighbour (hd : d = ⟨x.significand * powerAbove 2 x.exponent * powerBelow 10 scale /
      (powerAbove 10 scale * powerBelow 2 x.exponent), scale⟩) :
    d.value ≤ x.value ∧ x.value < d.value + 10 ^ scale := by
  have hnumerator : ((x.significand * powerAbove 2 x.exponent * powerBelow 10 scale : ℕ) : ℚ) =
      x.value * clearing x scale := by
    push_cast
    rw [mul_assoc, cast_powerAbove_two, Dyadic.value]
    ring
  have hdenominator : ((powerAbove 10 scale * powerBelow 2 x.exponent : ℕ) : ℚ) =
      10 ^ scale * clearing x scale := by
    push_cast
    exact cast_powerAbove_ten x scale
  have hpos : 0 < powerAbove 10 scale * powerBelow 2 x.exponent :=
    Nat.mul_pos (powerAbove_pos (by decide) _) (powerBelow_pos (by decide) _)
  have hbelow := Nat.div_mul_le_self
    (x.significand * powerAbove 2 x.exponent * powerBelow 10 scale)
    (powerAbove 10 scale * powerBelow 2 x.exponent)
  have habove := Nat.lt_mul_div_succ
    (x.significand * powerAbove 2 x.exponent * powerBelow 10 scale) hpos
  rw [← Nat.cast_le (α := ℚ), Nat.cast_mul, hnumerator, hdenominator, ← mul_assoc] at hbelow
  rw [← Nat.cast_lt (α := ℚ), hnumerator, Nat.cast_mul, hdenominator, mul_right_comm] at habove
  have hle := le_of_mul_le_mul_right hbelow (clearing_pos x scale)
  have hlt := lt_of_mul_lt_mul_right habove (clearing_pos x scale).le
  push_cast at hlt
  rw [hd, Digits.value]
  exact ⟨hle, by linarith⟩

end Clearing

/-- Moving zeros into the scale does not change the number. -/
theorem Digits.value_strip (fuel : Nat) (d : Digits) : (Digits.strip fuel d).value = d.value := by
  induction fuel generalizing d with
  | zero => rfl
  | succ fuel ih =>
    rw [Digits.strip]
    split
    · next hzero =>
      have hdiv : (d.coefficient : ℚ) = (d.coefficient / 10 : ℕ) * 10 := by
        exact_mod_cast (Nat.div_mul_cancel (Nat.dvd_of_mod_eq_zero hzero.1)).symm
      rw [ih, Digits.value, Digits.value, hdiv, zpow_add_one₀ (by norm_num)]
      ring
    · rfl

/-! ## A grid that is fine enough -/

section Logarithm

variable {a b : ℕ} {n q : ℤ}

theorem ten_zpow_mul_le (hbelow : 10 ^ a ≤ 2 ^ b) (habove : 2 ^ b ≤ 2 * 10 ^ a) (hn : -b ≤ n) :
    (10 : ℚ) ^ (a * n) ≤ 2 ^ (b * (n + 1)) := by
  rcases Int.le_total 0 n with hsign | hsign
  · obtain ⟨k, rfl⟩ := Int.eq_ofNat_of_zero_le hsign
    calc (10 : ℚ) ^ ((a : ℤ) * k) = (10 ^ a) ^ k := by rw [zpow_mul]; norm_cast
      _ ≤ (2 ^ b) ^ k := pow_le_pow_left₀ (by positivity) (by exact_mod_cast hbelow) k
      _ = 2 ^ ((b : ℤ) * k) := by rw [zpow_mul]; norm_cast
      _ ≤ 2 ^ ((b : ℤ) * (k + 1)) := zpow_le_zpow_right₀ (by norm_num) (by linarith)
  · obtain ⟨k, hk⟩ := Int.eq_ofNat_of_zero_le (Int.neg_nonneg.2 hsign)
    obtain rfl : n = -k := by omega
    have hpower : ((2 : ℚ) ^ b) ^ k ≤ 2 ^ k * (10 ^ a) ^ k := by
      rw [← mul_pow]
      exact pow_le_pow_left₀ (by positivity) (by exact_mod_cast habove) k
    calc (10 : ℚ) ^ ((a : ℤ) * -k) = ((10 ^ a) ^ k)⁻¹ := by
          rw [mul_neg, zpow_neg, zpow_mul]; norm_cast
      _ ≤ 2 ^ k * ((2 ^ b) ^ k)⁻¹ := by
          rw [inv_le_iff_one_le_mul₀ (by positivity), mul_right_comm, ← div_eq_mul_inv,
            one_le_div₀ (by positivity)]
          exact hpower
      _ = 2 ^ ((k : ℤ) + b * -k) := by
          rw [zpow_add₀ (by norm_num), mul_neg, zpow_neg, zpow_mul]; norm_cast
      _ ≤ 2 ^ ((b : ℤ) * (-k + 1)) := zpow_le_zpow_right₀ (by norm_num) (by linarith)

/-- Where a power of ten is just below a power of two, other powers of ten are at most those powers
of two whose exponents are in proportion, except for one more factor of two. -/
theorem ten_zpow_le_of_pow_le (hb : b ≠ 0) (hbelow : 10 ^ a ≤ 2 ^ b) (habove : 2 ^ b ≤ 2 * 10 ^ a)
    (hn : -b ≤ n) (hq : b * q ≤ a * n) : (10 : ℚ) ^ q ≤ 2 ^ (n + 1) := by
  have hroots : ((10 : ℚ) ^ q) ^ b ≤ (2 ^ (n + 1)) ^ b := by
    calc ((10 : ℚ) ^ q) ^ b = 10 ^ (b * q) := by rw [mul_comm, zpow_mul, zpow_natCast]
      _ ≤ 10 ^ (a * n) := zpow_le_zpow_right₀ (by norm_num) hq
      _ ≤ 2 ^ (b * (n + 1)) := ten_zpow_mul_le hbelow habove hn
      _ = (2 ^ (n + 1)) ^ b := by rw [mul_comm, zpow_mul, zpow_natCast]
  exact le_of_pow_le_pow_left₀ hb (by positivity) hroots

/-- The estimate of logarithms that the grids are counted from. -/
theorem ten_zpow_le (hn : -4096 ≤ n) (hq : 4096 * q ≤ 1233 * n) : (10 : ℚ) ^ q ≤ 2 ^ (n + 1) := by
  have hbelow : 10 ^ 1233 ≤ 2 ^ 4096 := by decide +kernel
  have habove : 2 ^ 4096 ≤ 2 * 10 ^ 1233 := by decide +kernel
  exact ten_zpow_le_of_pow_le (by decide) hbelow habove hn hq

end Logarithm

/-- The last grid is at least four times as fine as the doubles are. -/
theorem ten_zpow_finest_le {x : Dyadic} (hsignificand : x.significand < 2 ^ 53)
    (hexponent : -1074 ≤ x.exponent) :
    4 * (10 : ℚ) ^ (coarsestScale x - 23) ≤ 2 ^ x.exponent := by
  have hlog : x.significand.log2 < 53 := by
    by_cases hzero : x.significand = 0
    · rw [hzero]
      decide
    · exact (Nat.log2_lt hzero).2 hsignificand
  obtain ⟨n, hn⟩ : ∃ n : ℤ, n = (x.significand.log2 : ℤ) + x.exponent := ⟨_, rfl⟩
  have hq : 4096 * (n * 1233 / 4096) ≤ 1233 * n := by omega
  have hestimate := ten_zpow_le (n := n) (by omega) hq
  have hscale : coarsestScale x - 23 = n * 1233 / 4096 - 21 := by
    rw [coarsestScale, hn]
    omega
  calc 4 * (10 : ℚ) ^ (coarsestScale x - 23)
      = 10 ^ (n * 1233 / 4096) * (4 / 10 ^ 21) := by
        rw [hscale, zpow_sub₀ (by norm_num)]
        norm_num
        ring
    _ ≤ 2 ^ (x.exponent + 53) * (4 / 10 ^ 21) := by
        refine mul_le_mul_of_nonneg_right (hestimate.trans ?_) (by positivity)
        exact zpow_le_zpow_right₀ (by norm_num) (by omega)
    _ = 2 ^ x.exponent * (2 ^ 53 * 4 / 10 ^ 21) := by
        rw [zpow_add₀ (by norm_num)]
        norm_num
        ring
    _ ≤ 2 ^ x.exponent := mul_le_of_le_one_right (by positivity) (by norm_num)

/-- On a grid that is four times as fine as the doubles are, the neighbour below reads back. -/
theorem onGrid_ne_none {x : Dyadic} (hx : x.significand ≠ 0) {scale : Int}
    (hfine : 4 * (10 : ℚ) ^ scale ≤ 2 ^ x.exponent) (tie : Tie) : onGrid tie x scale ≠ none := by
  obtain ⟨below, hbelow⟩ : ∃ below : Digits,
      below = ⟨x.significand * powerAbove 2 x.exponent * powerBelow 10 scale /
        (powerAbove 10 scale * powerBelow 2 x.exponent), scale⟩ := ⟨_, rfl⟩
  obtain ⟨hle, hlt⟩ := value_neighbour hbelow
  have hreads : below.readsBackTo x = true := by
    have hunit : (0 : ℚ) < 2 ^ x.exponent := by positivity
    have hlower : x.lower ≤ x.value - 2 ^ x.exponent / 4 := by
      rw [Dyadic.lower, Dyadic.value]
      split <;> linarith
    have hupper : x.value < x.upper := by
      rw [Dyadic.upper, Dyadic.value]
      linarith
    rw [Digits.readsBackTo_iff hx]
    exact Dyadic.rounds_of_lt (by linarith) (by linarith)
  rw [hbelow] at hreads
  unfold onGrid
  simp only [hreads]
  split
  · next h _ => cases h
  · simp
  · next h _ => cases h
  · split <;> simp

/-- The shortest digits of a double round to it. -/
theorem rounds_shortest_of_ne_zero {x : Dyadic} (hx : x.significand ≠ 0)
    (hsignificand : x.significand < 2 ^ 53) (hexponent : -1074 ≤ x.exponent) (tie : Tie) :
    Dyadic.Rounds (shortest tie x).value x := by
  rw [shortest, if_neg hx]
  simp only
  rw [Digits.value_strip]
  cases hfound : (List.range 24).findSome? fun i =>
      onGrid tie x (coarsestScale x - Int.ofNat i) with
  | none =>
    have hnone := List.findSome?_eq_none_iff.1 hfound 23 (by decide)
    exact absurd hnone (onGrid_ne_none hx (ten_zpow_finest_le hsignificand hexponent) tie)
  | some d =>
    obtain ⟨i, -, hi⟩ := List.exists_of_findSome?_eq_some hfound
    exact (Digits.readsBackTo_iff hx).1 (readsBackTo_of_onGrid hi)

/-! ## Magnitudes -/

/-- The bits of a double without its sign. -/
def magnitude (x : Float) : ℕ :=
  x.toBits.toNat % Nat.pow 2 63

/-- The number that the bits without a sign stand for. -/
def Dyadic.ofMagnitude (bits : ℕ) : Dyadic :=
  let biased := bits / Nat.pow 2 52
  let fraction := bits % Nat.pow 2 52
  if biased = 0 then ⟨fraction, -1074, false⟩
  else ⟨Nat.pow 2 52 + fraction, Int.ofNat biased - 1075, fraction = 0 && biased ≠ 1⟩

theorem Dyadic.ofFloat_eq (x : Float) : Dyadic.ofFloat x = Dyadic.ofMagnitude (magnitude x) :=
  rfl

/-- A double is its sign and its magnitude. -/
theorem eq_of_magnitude {x y : Float} (hsign : isNegative x = isNegative y)
    (hmagnitude : magnitude x = magnitude y) : x = y := by
  refine toBits_inj (UInt64.toNat_inj.1 ?_)
  have hpow : Nat.pow 2 63 = 9223372036854775808 := rfl
  have hx := x.toBits.toNat_lt
  have hy := y.toBits.toNat_lt
  simp only [isNegative, magnitude, hpow, ge_iff_le, decide_eq_decide] at hsign hmagnitude
  omega

namespace Dyadic

variable {bits k f : ℕ}

theorem ofMagnitude_subnormal (hf : f < 2 ^ 52) : ofMagnitude f = ⟨f, -1074, false⟩ := by
  have hdiv : f / Nat.pow 2 52 = 0 := Nat.div_eq_of_lt hf
  have hmod : f % Nat.pow 2 52 = f := Nat.mod_eq_of_lt hf
  rw [ofMagnitude]
  simp only [hdiv, hmod, if_pos]

theorem ofMagnitude_normal (hf : f < 2 ^ 52) :
    ofMagnitude ((k + 1) * 2 ^ 52 + f) = ⟨2 ^ 52 + f, k - 1074, f = 0 && k ≠ 0⟩ := by
  have hdiv : ((k + 1) * 2 ^ 52 + f) / Nat.pow 2 52 = k + 1 := by
    rw [Nat.pow_eq]
    omega
  have hmod : ((k + 1) * 2 ^ 52 + f) % Nat.pow 2 52 = f := by
    rw [Nat.pow_eq]
    omega
  rw [ofMagnitude]
  simp only [hdiv, hmod, if_neg (Nat.succ_ne_zero k)]
  simp
  omega

/-- Bits are those of a subnormal or of a normal number. -/
theorem exists_fields (bits : ℕ) :
    bits < 2 ^ 52 ∨ ∃ k f, f < 2 ^ 52 ∧ bits = (k + 1) * 2 ^ 52 + f := by
  by_cases hbits : bits < 2 ^ 52
  · exact Or.inl hbits
  · exact Or.inr ⟨bits / 2 ^ 52 - 1, bits % 2 ^ 52, by omega, by omega⟩

theorem significand_ofMagnitude (bits : ℕ) : (ofMagnitude bits).significand < 2 ^ 53 ∧
    (ofMagnitude bits).significand % 2 = bits % 2 ∧
    ((ofMagnitude bits).significand = 0 → bits = 0) := by
  obtain hbits | ⟨k, f, hf, rfl⟩ := exists_fields bits
  · rw [ofMagnitude_subnormal hbits]
    exact ⟨Nat.lt_trans hbits (by decide), rfl, id⟩
  · rw [ofMagnitude_normal hf]
    simp only
    omega

theorem exponent_ofMagnitude (bits : ℕ) : -1074 ≤ (ofMagnitude bits).exponent := by
  obtain hbits | ⟨k, f, hf, rfl⟩ := exists_fields bits
  · rw [ofMagnitude_subnormal hbits]
  · rw [ofMagnitude_normal hf]
    simp only
    omega

theorem upper_eq_lower_succ {x y : Dyadic} (hsignificand : y.significand = x.significand + 1)
    (hexponent : y.exponent = x.exponent) (htight : y.tightBelow = false) : x.upper = y.lower := by
  rw [upper, lower, hsignificand, hexponent, htight, if_neg Bool.false_ne_true]
  push_cast
  ring

/-- After a power of two the distance between doubles is twice as great as before. -/
theorem upper_eq_lower_power {x y : Dyadic} (hsignificand : 2 * y.significand = x.significand + 1)
    (hexponent : y.exponent = x.exponent + 1) (htight : y.tightBelow = true) :
    x.upper = y.lower := by
  have hdouble : (x.significand : ℚ) = 2 * y.significand - 1 := by
    rw [eq_sub_iff_add_eq]
    exact_mod_cast hsignificand.symm
  rw [upper, lower, hdouble, hexponent, htight, if_pos rfl, zpow_add_one₀ (by norm_num)]
  ring

/-- Where the interval of a magnitude ends, that of the next one begins. -/
theorem upper_ofMagnitude (bits : ℕ) :
    (ofMagnitude bits).upper = (ofMagnitude (bits + 1)).lower := by
  obtain hbits | ⟨k, f, hf, rfl⟩ := exists_fields bits
  · obtain hnext | hlast := Nat.lt_or_ge (bits + 1) (2 ^ 52)
    · rw [ofMagnitude_subnormal hbits, ofMagnitude_subnormal hnext]
      exact upper_eq_lower_succ rfl rfl rfl
    · -- the least normal number has the distance of the subnormal ones
      have hsucc : 2 ^ 52 + 0 = bits + 1 := by omega
      have hleast : bits + 1 = (0 + 1) * 2 ^ 52 + 0 := by omega
      rw [ofMagnitude_subnormal hbits, hleast, ofMagnitude_normal (by decide)]
      exact upper_eq_lower_succ hsucc (by simp) (by simp)
  · obtain hnext | hlast := Nat.lt_or_ge (f + 1) (2 ^ 52)
    · have hsucc : 2 ^ 52 + (f + 1) = 2 ^ 52 + f + 1 := by omega
      rw [Nat.add_assoc, ofMagnitude_normal hf, ofMagnitude_normal hnext]
      exact upper_eq_lower_succ hsucc (by simp) (by simp)
    · have hsucc : f + 1 = 2 ^ 52 := Nat.le_antisymm hf hlast
      have hdouble : 2 * (2 ^ 52 + 0) = 2 ^ 52 + f + 1 := by omega
      have hpower : (k + 1) * 2 ^ 52 + f + 1 = (k + 1 + 1) * 2 ^ 52 + 0 := by
        rw [Nat.add_assoc, hsucc]
        ring
      rw [hpower, ofMagnitude_normal hf, ofMagnitude_normal (by decide)]
      exact upper_eq_lower_power hdouble (by simp only; omega) (by simp)

theorem strictMono_lower : StrictMono fun bits => (ofMagnitude bits).lower := by
  refine strictMono_nat_of_lt_succ fun bits => ?_
  rw [← upper_ofMagnitude]
  exact lower_lt_upper _

/-- No number rounds to two magnitudes. -/
theorem Rounds.unique {r : ℚ} {a b : ℕ} (ha : Rounds r (ofMagnitude a))
    (hb : Rounds r (ofMagnitude b)) : a = b := by
  by_contra hne
  wlog hlt : a < b generalizing a b
  · exact this hb ha (Ne.symm hne) (by omega)
  have hend : (ofMagnitude (a + 1)).lower = (ofMagnitude b).lower := by
    refine le_antisymm (strictMono_lower.monotone hlt) ?_
    rw [← upper_ofMagnitude]
    exact hb.lower_le.trans ha.le_upper
  obtain rfl : a + 1 = b := strictMono_lower.injective hend
  -- the number is the end between neighbours, which only an even double has
  have hr : r = (ofMagnitude a).upper := by
    refine le_antisymm ha.le_upper ?_
    rw [upper_ofMagnitude]
    exact hb.lower_le
  have heven := ha.even (Or.inr hr)
  have heven' := hb.even (Or.inl (hr.trans (upper_ofMagnitude a)))
  rw [(significand_ofMagnitude _).2.1] at heven heven'
  omega

end Dyadic

/-- The shortest digits of every magnitude round to it, those of zero included. -/
theorem rounds_shortest (tie : Tie) (bits : ℕ) :
    Dyadic.Rounds (shortest tie (Dyadic.ofMagnitude bits)).value (Dyadic.ofMagnitude bits) := by
  obtain ⟨hlt, -, hzero⟩ := Dyadic.significand_ofMagnitude bits
  by_cases hx : (Dyadic.ofMagnitude bits).significand = 0
  · obtain rfl := hzero hx
    rw [Dyadic.ofMagnitude_subnormal (by decide), shortest, if_pos rfl, Digits.value]
    refine Dyadic.rounds_of_lt ?_ ?_
    · rw [Dyadic.lower]
      norm_num
    · rw [Dyadic.upper]
      norm_num
  · exact rounds_shortest_of_ne_zero hx hlt (Dyadic.exponent_ofMagnitude bits) tie

/-- The shortest digits of two doubles are the same number only if the doubles differ in nothing but
the sign. -/
theorem magnitude_eq_of_value_shortest {tie : Tie} {x y : Float}
    (h : (shortest tie (Dyadic.ofFloat x)).value = (shortest tie (Dyadic.ofFloat y)).value) :
    magnitude x = magnitude y := by
  rw [Dyadic.ofFloat_eq, Dyadic.ofFloat_eq] at h
  exact (rounds_shortest tie (magnitude x)).unique (h ▸ rounds_shortest tie (magnitude y))

end ApiEvolution.Decimal
