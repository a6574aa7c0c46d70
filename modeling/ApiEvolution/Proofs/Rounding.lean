import Mathlib

/-!
# Rounding to doubles

The operations on doubles compute a mantissa with two more bits, the last of which says whether
anything else was left, and round that. This rounds the exact result to the nearest double
(`exists_rounds`), which goes up with it (`Rounds.mono`).

* The bits that are kept through shifts (`Keeps.shiftRight`) tell which integer is the nearest
  (`Keeps.isNearest`).
* A number is rounded at the exponent that leaves it a mantissa of 53 bits, or at the least exponent
  if it is too small for that. If this makes the mantissa one bit longer, the double is that of the
  next exponent.

Signs are left out: the numbers are not negative.
-/

namespace ApiEvolution.Doubles

open Float.Model Float.Model.UnpackedFloat

/-! ## Nearest integers -/

/-- A nearest integer, the even one if there are two. -/
structure IsNearest (n : ℕ) (x : ℚ) : Prop where
  le : (n : ℚ) ≤ x + 1 / 2
  ge : x ≤ n + 1 / 2
  even : (n : ℚ) = x + 1 / 2 ∨ x = n + 1 / 2 → n % 2 = 0

variable {m n : ℕ} {e t : ℤ} {x y v w v' w' : ℚ}

theorem isNearest_self (n : ℕ) : IsNearest n n where
  le := by linarith
  ge := by linarith
  even h := by rcases h with h | h <;> linarith

theorem IsNearest.mono (hm : IsNearest m x) (hn : IsNearest n y) (h : x ≤ y) : m ≤ n := by
  by_contra hlt
  have hsucc : (n : ℚ) + 1 ≤ m := by exact_mod_cast Nat.lt_of_not_le hlt
  have hle := hm.le
  have hge := hn.ge
  -- both are halfway between the same two integers, and round to different ones
  have hm' := hm.even (.inl (by linarith))
  have hn' := hn.even (.inr (by linarith))
  have heq : m = n + 1 := by exact_mod_cast (show (m : ℚ) = n + 1 by linarith)
  omega

/-! ## The bits that are kept -/

/-- What a mantissa and the two bits after it keep of a number. Twice the number is made up of twice
the mantissa, the first bit and a rest, which the second bit tells from zero. -/
def Keeps (em : ExtendedMantissa) (x : ℚ) : Prop :=
  ∃ rest : ℚ, 0 ≤ rest ∧ rest < 1 ∧ (em.stickyBit = true ↔ rest ≠ 0) ∧
    2 * x = 2 * em.mantissa + em.roundBit.toNat + rest

theorem keeps_exact (m : ℕ) : Keeps (.ofMantissaAndAccuracy m .exact) m :=
  ⟨0, le_refl 0, zero_lt_one, by simp [ExtendedMantissa.ofMantissaAndAccuracy],
    by simp [ExtendedMantissa.ofMantissaAndAccuracy]⟩

/-- The accuracy of a quotient says what the remainder adds to it. -/
theorem keeps_fraction {p q : ℕ} (hq : 0 < q) :
    Keeps (.ofMantissaAndAccuracy (p / q) (accuracyOfFraction (p % q) q)) (p / q : ℚ) := by
  have hq' : (0 : ℚ) < q := by exact_mod_cast hq
  obtain ⟨part, hpart⟩ : ∃ part : ℚ, part * q = (p % q : ℕ) := ⟨_, div_mul_cancel₀ _ hq'.ne'⟩
  have hvalue : (p / q : ℚ) = (p / q : ℕ) + part := by
    rw [div_eq_iff hq'.ne', add_mul, hpart]
    exact_mod_cast (Nat.div_add_mod' p q).symm
  have hnonneg : 0 ≤ part := by
    refine nonneg_of_mul_nonneg_left ?_ hq'
    rw [hpart]
    exact Nat.cast_nonneg _
  have hlt : part < 1 := by
    rw [← mul_lt_mul_iff_left₀ hq', hpart, one_mul]
    exact_mod_cast Nat.mod_lt p hq
  rw [hvalue, accuracyOfFraction]
  split
  · next hzero =>
    obtain rfl : part = 0 := by simpa [hzero, hq'.ne'] using hpart
    simpa using keeps_exact (p / q)
  · next hzero =>
    have hpos : part ≠ 0 := by
      rintro rfl
      exact hzero (by exact_mod_cast (zero_mul (q : ℚ) ▸ hpart).symm)
    -- the remainder doubled is to the divisor as the part doubled is to one
    have hdouble : 2 * part * q = (2 * (p % q) : ℕ) := by
      rw [mul_assoc, hpart]
      push_cast
      rfl
    cases hhalf : compare (2 * (p % q)) q with
    | lt =>
      have hless : 2 * part < 1 := by
        rw [← mul_lt_mul_iff_left₀ hq', hdouble, one_mul]
        exact_mod_cast Nat.compare_eq_lt.1 hhalf
      refine ⟨2 * part, by linarith, hless, ?_, ?_⟩ <;>
        simp [ExtendedMantissa.ofMantissaAndAccuracy, hpos]
      ring
    | eq =>
      have hequal : 2 * part = 1 := by
        rw [← mul_left_inj' hq'.ne', hdouble, one_mul]
        exact_mod_cast Nat.compare_eq_eq.1 hhalf
      refine ⟨0, le_refl 0, zero_lt_one, ?_, ?_⟩ <;>
        simp [ExtendedMantissa.ofMantissaAndAccuracy]
      linarith
    | gt =>
      have hmore : 1 < 2 * part := by
        rw [← mul_lt_mul_iff_left₀ hq', hdouble, one_mul]
        exact_mod_cast Nat.compare_eq_gt.1 hhalf
      refine ⟨2 * part - 1, by linarith, by linarith, ?_, ?_⟩ <;>
        simp [ExtendedMantissa.ofMantissaAndAccuracy, sub_eq_zero, hmore.ne']
      ring

namespace Keeps

variable {em : ExtendedMantissa}

theorem mantissa_le (h : Keeps em x) : (em.mantissa : ℚ) ≤ x := by
  obtain ⟨rest, hrest, -, -, hx⟩ := h
  have hbit : (0 : ℚ) ≤ em.roundBit.toNat := Nat.cast_nonneg _
  linarith

theorem lt_mantissa_add_one (h : Keeps em x) : x < em.mantissa + 1 := by
  obtain ⟨rest, -, hrest, -, hx⟩ := h
  have hbit : (em.roundBit.toNat : ℚ) ≤ 1 := by exact_mod_cast Bool.toNat_le em.roundBit
  linarith

theorem shiftRightOne (h : Keeps em x) : Keeps em.shiftRightOne (x / 2) := by
  obtain ⟨rest, hnonneg, hlt, hsticky, hx⟩ := h
  obtain ⟨m, roundBit, stickyBit⟩ := em
  have hparity : (m : ℚ) = 2 * (m / 2 : ℕ) + (m % 2 != 0).toNat := by
    have hmod : (m % 2 != 0).toNat = m % 2 := by
      rcases Nat.mod_two_eq_zero_or_one m with h | h <;> simp [h]
    rw [hmod]
    exact_mod_cast (Nat.div_add_mod m 2).symm
  have hbit : (roundBit.toNat : ℚ) ≤ 1 := by exact_mod_cast Bool.toNat_le roundBit
  refine ⟨(roundBit.toNat + rest) / 2, by positivity, by linarith, ?_, ?_⟩
  · cases roundBit
    · simpa [ExtendedMantissa.shiftRightOne] using hsticky
    · have hrest : (1 + rest) / 2 ≠ 0 := by positivity
      simp [ExtendedMantissa.shiftRightOne, hrest]
  · dsimp only [ExtendedMantissa.shiftRightOne] at hx ⊢
    linarith

theorem shiftRight (h : Keeps em x) (k : ℕ) : Keeps (em >>> k) (x / 2 ^ k) := by
  change Keeps (k.repeat ExtendedMantissa.shiftRightOne em) _
  induction k with
  | zero => simpa [Nat.repeat] using h
  | succ k ih =>
    rw [pow_succ, ← div_div]
    exact ih.shiftRightOne

/-- A mantissa is rounded to the nearest integer. -/
theorem isNearest (h : Keeps em x) : IsNearest em.roundedMantissa x := by
  obtain ⟨rest, hnonneg, hlt, hsticky, hx⟩ := h
  obtain ⟨m, roundBit, stickyBit⟩ := em
  have hpos : stickyBit = true → 0 < rest := fun h => lt_of_le_of_ne hnonneg (hsticky.1 h).symm
  cases roundBit <;> cases stickyBit
  case false.false =>
    have hrest : rest = 0 := by simpa using hsticky
    obtain rfl : x = m := by simpa [hrest] using hx
    exact isNearest_self m
  case false.true =>
    have hrest := hpos rfl
    simp only [Bool.toNat_false, Nat.cast_zero] at hx
    have hdown : ExtendedMantissa.roundedMantissa ⟨m, false, true⟩ = m := rfl
    rw [hdown]
    exact ⟨by linarith, by linarith, fun h => by rcases h with h | h <;> linarith⟩
  case true.false =>
    have hrest : rest = 0 := by simpa using hsticky
    simp only [hrest, Bool.toNat_true, Nat.cast_one] at hx
    have heven : ExtendedMantissa.roundedMantissa ⟨m, true, false⟩ = m + m % 2 := rfl
    have hle : ((m % 2 : ℕ) : ℚ) ≤ 1 := by exact_mod_cast Nat.lt_succ_iff.1 (Nat.mod_lt m two_pos)
    have hge : (0 : ℚ) ≤ (m % 2 : ℕ) := Nat.cast_nonneg _
    rw [heven]
    exact ⟨by push_cast; linarith, by push_cast; linarith, fun _ => by omega⟩
  case true.true =>
    have hrest := hpos rfl
    simp only [Bool.toNat_true, Nat.cast_one] at hx
    have hup : ExtendedMantissa.roundedMantissa ⟨m, true, true⟩ = m + 1 := rfl
    rw [hup]
    refine ⟨by push_cast; linarith, by push_cast; linarith, fun h => ?_⟩
    push_cast at h
    rcases h with h | h <;> linarith

end Keeps

/-! ## Nearest doubles -/

/-- A number and the mantissa of the nearest double at an exponent, which gives the mantissa 53 bits
unless it is the least. -/
structure RoundsAt (v : ℚ) (m : ℕ) (e : ℤ) : Prop where
  least : -1074 ≤ e
  lt : v < 2 ^ 53 * 2 ^ e
  normal : -1074 < e → 2 ^ 52 * 2 ^ e ≤ v
  nearest : IsNearest m (v / 2 ^ e)

/-- A number and the nearest double. -/
def Rounds (v w : ℚ) : Prop :=
  ∃ (m : ℕ) (e : ℤ), RoundsAt v m e ∧ w = m * 2 ^ e

theorem two_zpow_pos (e : ℤ) : (0 : ℚ) < 2 ^ e := zpow_pos two_pos e

theorem two_pow_mul_le {j k : ℕ} {e e' : ℤ} (h : j + e ≤ k + e') :
    (2 : ℚ) ^ j * 2 ^ e ≤ 2 ^ k * 2 ^ e' := by
  rw [← zpow_natCast, ← zpow_natCast, ← zpow_add₀ two_ne_zero, ← zpow_add₀ two_ne_zero]
  exact zpow_le_zpow_right₀ one_le_two h

namespace RoundsAt

/-- Rounding up makes the mantissa one bit longer at most. -/
theorem mantissa_le (h : RoundsAt v m e) : m ≤ 2 ^ 53 := by
  refine h.nearest.mono (isNearest_self (2 ^ 53)) ?_
  rw [div_le_iff₀ (two_zpow_pos e)]
  push_cast
  exact h.lt.le

theorem le_mantissa (h : RoundsAt v m e) (he : -1074 < e) : 2 ^ 52 ≤ m := by
  refine (isNearest_self (2 ^ 52)).mono h.nearest ?_
  rw [le_div_iff₀ (two_zpow_pos e)]
  push_cast
  exact h.normal he

theorem mono {m' : ℕ} {e' : ℤ} (h : RoundsAt v m e) (h' : RoundsAt v' m' e') (hle : v ≤ v') :
    (m : ℚ) * 2 ^ e ≤ m' * 2 ^ e' := by
  rcases lt_trichotomy e e' with hlt | rfl | hgt
  · calc (m : ℚ) * 2 ^ e
        ≤ 2 ^ 53 * 2 ^ e := by
          gcongr
          exact_mod_cast h.mantissa_le
      _ ≤ 2 ^ 52 * 2 ^ e' := two_pow_mul_le (by push_cast; omega)
      _ ≤ m' * 2 ^ e' := by
          gcongr
          exact_mod_cast h'.le_mantissa (h.least.trans_lt hlt)
  · gcongr
    exact h.nearest.mono h'.nearest (by gcongr)
  · have hpow : (2 : ℚ) ^ 53 * 2 ^ e' ≤ 2 ^ 52 * 2 ^ e := two_pow_mul_le (by push_cast; omega)
    have hlow := h.normal (h'.least.trans_lt hgt)
    have hhigh := h'.lt
    linarith

end RoundsAt

namespace Rounds

theorem mono (h : Rounds v w) (h' : Rounds v' w') (hle : v ≤ v') : w ≤ w' := by
  obtain ⟨m, e, hm, rfl⟩ := h
  obtain ⟨m', e', hm', rfl⟩ := h'
  exact hm.mono hm' hle

theorem unique (h : Rounds v w) (h' : Rounds v w') : w = w' :=
  le_antisymm (h.mono h' le_rfl) (h'.mono h le_rfl)

end Rounds

/-! ## Doubles that are not negative -/

/-- How a double that is not negative is represented, and its value. The mantissa has 53 bits unless
the exponent is the least. -/
inductive Represents : UnpackedFloat → ℚ → Prop
  | zero : Represents (.zero .positive) 0
  | finite {m : ℕ} {e : ℤ} (hpos : 0 < m) (least : -1074 ≤ e) (hlt : m < 2 ^ 53)
      (normal : -1074 < e → 2 ^ 52 ≤ m) : Represents (.finite .positive m e hpos) (m * 2 ^ e)

namespace Represents

variable {u u' : UnpackedFloat}

theorem nonneg (h : Represents u v) : 0 ≤ v := by
  cases h with
  | zero => exact le_refl 0
  | @finite m e hpos => exact mul_nonneg (Nat.cast_nonneg m) (two_zpow_pos e).le

/-- A double is the nearest to itself. -/
theorem rounds (h : Represents u v) : Rounds v v := by
  cases h with
  | zero =>
    refine ⟨0, -1074, ⟨le_refl _, by positivity, nofun, ?_⟩, by simp⟩
    simpa using isNearest_self 0
  | @finite m e hpos hleast hlt hnormal =>
    refine ⟨m, e, ⟨hleast, ?_, fun he => ?_, ?_⟩, rfl⟩
    · gcongr
      exact_mod_cast hlt
    · gcongr
      exact_mod_cast hnormal he
    · rw [mul_div_cancel_right₀ _ (two_zpow_pos e).ne']
      exact isNearest_self m

end Represents

/-! ## Rounding a mantissa -/

theorem targetExponent_eq (total : ℤ) :
    Format.binary64.targetExponent total = max (total - 53) (-1074) :=
  rfl

/-- The exponent that leaves a mantissa 53 bits, if it is not too small. -/
theorem targetExponent_totalExponent (m : ℕ) (e : ℤ) :
    Format.binary64.targetExponent (totalExponent m e) = max (m.log2 + e - 52) (-1074) := by
  rw [targetExponent_eq, totalExponent]
  omega

/-- A mantissa that fits is left as it is. -/
theorem shiftToTargetExponent_of_lt (hlt : m < 2 ^ 53) (he : -1074 ≤ e) :
    shiftToTargetExponent .binary64 m e .exact = (⟨m, false, false⟩, e) := by
  have hlog : m.log2 ≤ 52 := by
    by_cases hm : m = 0
    · simp [hm]
    · exact Nat.lt_succ_iff.1 ((Nat.log2_lt hm).2 hlt)
  have hshift : (max ((m.log2 : ℤ) + e - 52) (-1074) - e).toNat = 0 := by omega
  rw [shiftToTargetExponent, targetExponent_totalExponent, shiftToExponent, hshift]
  simp [ExtendedMantissa.ofMantissaAndAccuracy, HShiftRight.hShiftRight, Nat.repeat]

/-- A mantissa that is one bit too long is that of the next exponent. -/
theorem shiftToTargetExponent_carry (he : -1074 ≤ e) :
    shiftToTargetExponent .binary64 (2 ^ 53) e .exact = (⟨2 ^ 52, false, false⟩, e + 1) := by
  have hshift : (max (((2 ^ 53 : ℕ).log2 : ℤ) + e - 52) (-1074) - e).toNat = 1 := by
    rw [Nat.log2_two_pow]
    omega
  rw [shiftToTargetExponent, targetExponent_totalExponent, shiftToExponent, hshift]
  rfl

/-- The rounded mantissa makes up the nearest double. -/
theorem RoundsAt.represents (h : RoundsAt v m e) {em : ExtendedMantissa} {t : ℤ}
    (hshift : shiftToTargetExponent .binary64 m e .exact = (em, t)) :
    Represents (if hm : em.mantissa = 0 then .zero .positive
      else .finite .positive em.mantissa t (Nat.pos_of_ne_zero hm)) (m * 2 ^ e) := by
  rcases h.mantissa_le.lt_or_eq with hlt | rfl
  · rw [shiftToTargetExponent_of_lt hlt h.least] at hshift
    cases hshift
    split
    · next hm => simpa [show m = 0 from hm] using Represents.zero
    · next hm => exact .finite (Nat.pos_of_ne_zero hm) h.least hlt h.le_mantissa
  · rw [shiftToTargetExponent_carry h.least] at hshift
    cases hshift
    have hvalue : ((2 ^ 53 : ℕ) : ℚ) * 2 ^ e = (2 ^ 52 : ℕ) * 2 ^ (e + 1) := by
      rw [zpow_add_one₀ two_ne_zero]
      push_cast
      ring
    rw [dif_neg (by norm_num), hvalue]
    exact .finite (by norm_num) (by linarith [h.least]) (by norm_num) fun _ => le_refl _

theorem mantissa_ofMantissaAndAccuracy (m : ℕ) (accuracy : Accuracy) :
    (ExtendedMantissa.ofMantissaAndAccuracy m accuracy).mantissa = m := by
  rcases accuracy with _ | _ | _ | _ <;> rfl

/-- A mantissa that is not too short is rounded at the exponent it is shifted to. -/
theorem Keeps.roundsAt {accuracy : Accuracy} (h : Keeps (.ofMantissaAndAccuracy m accuracy) x)
    {k : ℕ} (hk : e + k = max (m.log2 + e - 52) (-1074)) :
    RoundsAt (x * 2 ^ e)
      (ExtendedMantissa.ofMantissaAndAccuracy m accuracy >>> k).roundedMantissa (e + k) where
  least := by omega
  lt := by
    have hlt := h.lt_mantissa_add_one
    rw [mantissa_ofMantissaAndAccuracy] at hlt
    calc x * 2 ^ e
        < (m + 1) * 2 ^ e := by gcongr
      _ ≤ 2 ^ (m.log2 + 1) * 2 ^ e := by
        gcongr
        exact_mod_cast Nat.lt_log2_self
      _ ≤ 2 ^ 53 * 2 ^ (e + k) := two_pow_mul_le (by push_cast; omega)
  normal hnormal := by
    have hle := h.mantissa_le
    rw [mantissa_ofMantissaAndAccuracy] at hle
    have hm : m ≠ 0 := by
      rintro rfl
      simp at hk
      omega
    calc (2 : ℚ) ^ 52 * 2 ^ (e + k)
        ≤ 2 ^ m.log2 * 2 ^ e := two_pow_mul_le (by push_cast; omega)
      _ ≤ m * 2 ^ e := by
        gcongr
        exact_mod_cast Nat.log2_self_le hm
      _ ≤ x * 2 ^ e := by gcongr
  nearest := by
    have hscale : x * 2 ^ e / 2 ^ (e + k) = x / 2 ^ k := by
      rw [zpow_add₀ two_ne_zero, zpow_natCast, mul_comm ((2 : ℚ) ^ e),
        mul_div_mul_right _ _ (two_zpow_pos e).ne']
    rw [hscale]
    exact (h.shiftRight k).isNearest

/-- A number that a mantissa and the bits after it stand for is rounded to the nearest double. -/
theorem exists_rounds {accuracy : Accuracy} (h : Keeps (.ofMantissaAndAccuracy m accuracy) x)
    (he : e ≤ max (m.log2 + e - 52) (-1074)) :
    ∃ w, Rounds (x * 2 ^ e) w ∧
      Represents (roundWithAccuracy .binary64 .positive m e accuracy) w := by
  obtain ⟨k, hk⟩ : ∃ k : ℕ, e + k = max (m.log2 + e - 52) (-1074) :=
    ⟨(max (m.log2 + e - 52) (-1074) - e).toNat, by omega⟩
  have hshift : (max (m.log2 + e - 52) (-1074) - e).toNat = k := by omega
  have hrounds := h.roundsAt hk
  rw [roundWithAccuracy, shiftToTargetExponent, targetExponent_totalExponent, shiftToExponent,
    hshift]
  exact ⟨_, ⟨_, _, hrounds, rfl⟩, hrounds.represents rfl⟩

theorem shiftLeft_mul_zpow (m k : ℕ) (e : ℤ) :
    ((m <<< k : ℕ) : ℚ) * 2 ^ e = m * 2 ^ (e + k) := by
  rw [Nat.shiftLeft_eq, zpow_add₀ two_ne_zero, zpow_natCast]
  push_cast
  ring

/-- A mantissa with a lower exponent. -/
theorem shiftLeft_mul_zpow_of_le (m : ℕ) {e t : ℤ} (h : t ≤ e) :
    ((m <<< (e - t).toNat : ℕ) : ℚ) * 2 ^ t = m * 2 ^ e := by
  have hexponent : t + (e - t).toNat = e := by omega
  rw [shiftLeft_mul_zpow, hexponent]

theorem log2_shiftLeft (hm : 0 < m) (k : ℕ) : (m <<< k).log2 = m.log2 + k := by
  rw [Nat.log2_eq_iff (Nat.shiftLeft_pos_iff.2 hm).ne', Nat.shiftLeft_eq, pow_add,
    Nat.add_right_comm, pow_add]
  exact ⟨Nat.mul_le_mul_right _ (Nat.log2_self_le hm.ne'),
    Nat.mul_lt_mul_of_pos_right Nat.lt_log2_self (Nat.two_pow_pos k)⟩

/-- A double is normalized to the nearest, whatever the exponent its mantissa comes with. -/
theorem exists_rounds_normalize (m : ℕ) (e : ℤ) :
    ∃ w, Rounds (m * 2 ^ e) w ∧ Represents (normalize .binary64 m e .positive) w := by
  rcases Nat.eq_zero_or_pos m with rfl | hm
  · exact ⟨0, by simpa using Represents.zero.rounds, .zero⟩
  · obtain ⟨k, hk⟩ : ∃ k : ℕ, (e - max (m.log2 + e - 52) (-1074)).toNat = k := ⟨_, rfl⟩
    have hvalue : (m : ℚ) * 2 ^ e = (m <<< k : ℕ) * 2 ^ (e - k) := by
      rw [shiftLeft_mul_zpow, sub_add_cancel]
    rw [UnpackedFloat.normalize, Int.compare_eq_gt.2 (by exact_mod_cast hm), hvalue]
    simp only [Int.toNat_natCast, UnpackedFloat.round, targetExponent_totalExponent,
      decreaseExponent, hk]
    exact exists_rounds (keeps_exact _) (by rw [log2_shiftLeft hm]; omega)

end ApiEvolution.Doubles
