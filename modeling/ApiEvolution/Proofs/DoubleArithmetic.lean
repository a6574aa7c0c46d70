import Mathlib
import ApiEvolution.Proofs.Rounding
import ApiEvolution.Proofs.ScoreOrder

/-!
# Arithmetic of doubles

Products, quotients and differences of doubles that are not negative are the nearest doubles to the
exact results (`HasValue.exists_mul`, `HasValue.exists_div`, `HasValue.exists_sub`), and a count
that fits a machine word is converted to the nearest double (`exists_hasValue_ofNat`). Doubles
compare as their values do (`HasValue.le`).

As a nearest double goes up with what it is nearest to, and 0 and 1 are doubles, no result that
belongs between them is rounded out of there. So one less the proportion of a part to a whole is
between them, whatever is rounded on the way (`one_sub_proportion`).
-/

namespace ApiEvolution.Doubles

open Float.Model Float.Model.UnpackedFloat

variable {u u' : UnpackedFloat} {v v' w : ℚ}

/-! ## Packing -/

@[simp] theorem unpackSign_packComponents {spec : Format} {s : Sign}
    {exponent : BitVec spec.exponentBits} {mantissa : BitVec spec.mantissaBitsWithoutImplicit} :
    unpackSign (packComponents spec s exponent mantissa) = s.toBitVec := by
  ext i hi
  obtain rfl : i = 0 := by omega
  simp [unpackSign, packComponents, BitVec.getLsbD_append, BitVec.getElem_append]

theorem unpack_normal {m k : ℕ} {e : ℤ} (hm : 2 ^ 52 ≤ m) (hlt : m < 2 ^ 53) (hk : 0 < k)
    (hk' : k < 2047) (he : e = k - 1075) :
    unpack .binary64 (packComponents .binary64 .positive (.ofNat _ k) (.ofNat _ m)) =
      .finite .positive m e (by omega) := by
  have hexponent : (BitVec.ofNat 11 k).toNat = k := Nat.mod_eq_of_lt (by omega)
  have hmantissa : (1#1 ++ BitVec.ofNat 52 m).toNat = m := by
    rw [Similarity.toNat_append_one, BitVec.toNat_ofNat]
    omega
  have hspecial : BitVec.ofNat 11 k ≠ -1#_ := by
    intro heq
    have hall : k = 2047 := hexponent.symm.trans (congrArg BitVec.toNat heq)
    omega
  have hsubnormal : BitVec.ofNat 11 k ≠ 0#_ := by
    intro heq
    have hzero : k = 0 := hexponent.symm.trans (congrArg BitVec.toNat heq)
    omega
  have hbias : ((Format.binary64.exponentBias : ℕ) : ℤ) = 1023 := rfl
  rw [UnpackedFloat.unpack]
  simp only [unpackExponent_packComponents, unpackMantissa_packComponents,
    unpackSign_packComponents, if_neg hspecial, if_neg hsubnormal, hexponent, hmantissa, hbias]
  rw [UnpackedFloat.finite.injEq]
  exact ⟨rfl, rfl, by push_cast; omega⟩

theorem unpack_subnormal {m : ℕ} (hm : 0 < m) (hlt : m < 2 ^ 52) :
    unpack .binary64 (packComponents .binary64 .positive 0#_ (.ofNat _ m)) =
      .finite .positive m (-1074) hm := by
  have hmantissa : (BitVec.ofNat 52 m).toNat = m := Nat.mod_eq_of_lt hlt
  have hnonzero : BitVec.ofNat 52 m ≠ 0#_ := by
    intro heq
    have hzero : m = 0 := hmantissa.symm.trans (congrArg BitVec.toNat heq)
    omega
  rw [UnpackedFloat.unpack]
  simp only [unpackExponent_packComponents, unpackMantissa_packComponents,
    unpackSign_packComponents, dif_neg hnonzero, hmantissa]
  rfl

/-- The exponent of a double below the greatest power of two has a place in the field for it. -/
theorem exponent_lt {m : ℕ} {e : ℤ} (hnormal : -1074 < e → 2 ^ 52 ≤ m)
    (h : (m : ℚ) * 2 ^ e < 2 ^ 52 * 2 ^ (972 : ℤ)) : e < 972 := by
  by_contra hge
  have hm : (2 : ℚ) ^ 52 ≤ m := by exact_mod_cast hnormal (by omega)
  refine h.not_ge ?_
  calc (2 : ℚ) ^ 52 * 2 ^ (972 : ℤ)
      ≤ 2 ^ 52 * 2 ^ e := two_pow_mul_le (by omega)
    _ ≤ m * 2 ^ e := by gcongr

theorem Represents.unpack_pack (h : Represents u v) (hv : v < 2 ^ 52 * 2 ^ (972 : ℤ)) :
    unpack .binary64 (pack .binary64 u) = u := by
  cases h with
  | zero => rfl
  | @finite m e hpos hleast hlt hnormal =>
    have he := exponent_lt hnormal hv
    have hbias : ((Format.binary64.exponentBias : ℕ) : ℤ) = 1023 := rfl
    obtain ⟨field, hfield⟩ : ∃ field : ℕ, (field : ℤ) = e + 1075 := ⟨(e + 1075).toNat, by omega⟩
    have hbiased : (e + (Format.binary64.exponentBias : ℕ) + (52 : ℕ)).toNat = field := by
      rw [hbias]
      omega
    rw [UnpackedFloat.pack]
    dsimp only
    rw [hbiased, if_neg (by omega)]
    split
    · next hlog =>
      have hm : 2 ^ 52 ≤ m := (Nat.le_log2 hpos.ne').1 (Nat.succ_inj.1 hlog).ge
      exact unpack_normal hm hlt (by omega) (by omega) (by omega)
    · next hlog =>
      have hm : m < 2 ^ 52 := by
        by_contra hge
        have hlow := (Nat.le_log2 hpos.ne').2 (Nat.le_of_not_lt hge)
        have hhigh := (Nat.log2_lt hpos.ne').2 hlt
        exact hlog (congrArg Nat.succ (Nat.le_antisymm (Nat.le_of_lt_succ hhigh) hlow))
      obtain rfl : e = -1074 := le_antisymm (not_lt.1 fun h => hm.not_ge (hnormal h)) hleast
      exact unpack_subnormal hpos hm

/-! ## Arithmetic -/

/-- A dividend that is shifted far enough leaves a quotient of 53 bits. -/
theorem le_shiftLeft_div {m m' k : ℕ} (hm : 0 < m) (hm' : 0 < m')
    (h : 53 + m'.log2 ≤ m.log2 + k) : 2 ^ 52 ≤ m <<< k / m' := by
  rw [Nat.le_div_iff_mul_le hm', Nat.shiftLeft_eq]
  calc 2 ^ 52 * m'
      ≤ 2 ^ 52 * 2 ^ (m'.log2 + 1) := Nat.mul_le_mul_left _ Nat.lt_log2_self.le
    _ ≤ 2 ^ m.log2 * 2 ^ k := by
      rw [← pow_add, ← pow_add]
      exact Nat.pow_le_pow_right two_pos (by omega)
    _ ≤ m * 2 ^ k := Nat.mul_le_mul_right _ (Nat.log2_self_le hm.ne')

namespace Represents

theorem exists_mul (h : Represents u v) (h' : Represents u' v') :
    ∃ w, Rounds (v * v') w ∧ Represents (UnpackedFloat.mul .binary64 u u') w := by
  cases h with
  | zero =>
    rw [zero_mul]
    refine ⟨0, zero.rounds, ?_⟩
    cases h' <;> exact .zero
  | @finite m e hpos hleast hlt hnormal =>
    cases h' with
    | zero =>
      rw [mul_zero]
      exact ⟨0, zero.rounds, .zero⟩
    | @finite m' e' hpos' hleast' hlt' hnormal' =>
      have hvalue : (m : ℚ) * 2 ^ e * (m' * 2 ^ e') = (m * m' : ℕ) * 2 ^ (e + e') := by
        rw [zpow_add₀ two_ne_zero]
        push_cast
        ring
      have hfits : e + e' ≤ max ((m * m').log2 + (e + e') - 52) (-1074) := by
        by_cases hlong : 2 ^ 52 ≤ m * m'
        · have hlog := (Nat.le_log2 (Nat.mul_pos hpos hpos').ne').2 hlong
          omega
        · -- both mantissas are shorter, so both exponents are the least
          have hle : m ≤ m * m' := Nat.le_mul_of_pos_right m hpos'
          have hle' : m' ≤ m * m' := Nat.le_mul_of_pos_left m' hpos
          omega
      rw [hvalue]
      exact exists_rounds (keeps_exact _) hfits

theorem exists_div (h : Represents u v) (h' : Represents u' v') (hpos : 0 < v') :
    ∃ w, Rounds (v / v') w ∧ Represents (UnpackedFloat.div .binary64 u u') w := by
  cases h' with
  | zero => exact absurd hpos (lt_irrefl 0)
  | @finite m' e' hpos' hleast' hlt' hnormal' =>
    cases h with
    | zero =>
      rw [zero_div]
      exact ⟨0, zero.rounds, .zero⟩
    | @finite m e hpos hleast hlt hnormal =>
      rw [UnpackedFloat.div, divCore, targetExponent_eq, totalExponent, totalExponent]
      dsimp only
      generalize ht :
        min (e - e') (max (m.log2 + 1 + e - (m'.log2 + 1 + e') - 53) (-1074)) = t
      generalize hk : (e - e' - t).toNat = k
      have hvalue : (m : ℚ) * 2 ^ e / (m' * 2 ^ e') = (m <<< k : ℕ) / m' * 2 ^ t := by
        have hexponent : e = t + k + e' := by omega
        rw [div_mul_eq_mul_div, shiftLeft_mul_zpow, hexponent, zpow_add₀ two_ne_zero _ e',
          ← mul_assoc, mul_div_mul_right _ _ (two_zpow_pos e').ne']
      have hfits : t ≤ max (((m <<< k / m').log2 : ℤ) + t - 52) (-1074) := by
        by_cases hleast : t ≤ -1074
        · exact le_max_of_le_right hleast
        · have hlong : 2 ^ 52 ≤ m <<< k / m' := le_shiftLeft_div hpos hpos' (by omega)
          have hlog := (Nat.le_log2 (by omega)).2 hlong
          omega
      rw [hvalue]
      exact exists_rounds (keeps_fraction hpos') hfits

/-- The difference is rounded to the nearest double if it is not negative. -/
theorem exists_sub (h : Represents u v) (h' : Represents u' v') (hle : v' ≤ v) :
    ∃ w, Rounds (v - v') w ∧ Represents (UnpackedFloat.sub .binary64 u u') w := by
  cases h' with
  | zero =>
    rw [sub_zero]
    cases h with
    | zero => exact ⟨0, zero.rounds, .zero⟩
    | finite hpos hleast hlt hnormal =>
      have hself := Represents.finite hpos hleast hlt hnormal
      exact ⟨_, hself.rounds, hself⟩
  | @finite m' e' hpos' hleast' hlt' hnormal' =>
    cases h with
    | zero =>
      have hvalue : (0 : ℚ) < m' * 2 ^ e' := by positivity
      exact absurd hle hvalue.not_ge
    | @finite m e hpos hleast hlt hnormal =>
      rw [UnpackedFloat.sub]
      simp only [decreaseExponent, Sign.apply]
      have hvalue := shiftLeft_mul_zpow_of_le m (min_le_left e e')
      have hvalue' := shiftLeft_mul_zpow_of_le m' (min_le_right e e')
      -- both mantissas are now at the same exponent, so that they differ as the values do
      rw [← hvalue, ← hvalue', mul_le_mul_iff_left₀ (two_zpow_pos _), Nat.cast_le] at hle
      rw [← hvalue, ← hvalue', ← sub_mul, ← Nat.cast_sub hle, ← Int.ofNat_sub hle]
      exact exists_rounds_normalize _ _

/-- Doubles compare as their values do: a longer mantissa does not make up for a lower exponent. -/
theorem compare_isLE (h : Represents u v) (h' : Represents u' v') (hle : v ≤ v') :
    (u.compare u').any (·.isLE) = true := by
  cases h with
  | zero => cases h' <;> rfl
  | @finite m e hpos hleast hlt hnormal =>
    cases h' with
    | zero =>
      have hvalue : (0 : ℚ) < m * 2 ^ e := by positivity
      exact absurd hle hvalue.not_ge
    | @finite m' e' hpos' hleast' hlt' hnormal' =>
      have hcompare : ((compare e e').then (compare m m')).isLE = true := by
        rcases lt_trichotomy e e' with hless | rfl | hmore
        · rw [Int.compare_eq_lt.2 hless]
          rfl
        · rw [mul_le_mul_iff_left₀ (two_zpow_pos e), Nat.cast_le] at hle
          rw [Int.compare_eq_eq.2 rfl]
          exact Nat.isLE_compare.2 hle
        · have hm : (2 : ℚ) ^ 52 ≤ m := by exact_mod_cast hnormal (by omega)
          have hm' : (m' : ℚ) < 2 ^ 53 := by exact_mod_cast hlt'
          refine absurd hle (not_le.2 ?_)
          calc (m' : ℚ) * 2 ^ e'
              < 2 ^ 53 * 2 ^ e' := by gcongr
            _ ≤ 2 ^ 52 * 2 ^ e := two_pow_mul_le (by push_cast; omega)
            _ ≤ m * 2 ^ e := by gcongr
      exact hcompare

end Represents

/-! ## Doubles -/

/-- A double that is not negative, and its value. -/
def HasValue (x : Float) (v : ℚ) : Prop :=
  Represents x.toModel.unpack v

theorem hasValue_zero : HasValue 0 0 := .zero

theorem hasValue_one : HasValue 1 1 := by
  have hunpack : (1 : Float).toModel.unpack = .finite .positive (2 ^ 52) (-52) (by norm_num) := rfl
  have hvalue : (1 : ℚ) = (2 ^ 52 : ℕ) * 2 ^ (-52 : ℤ) := by norm_num
  rw [HasValue, hunpack, hvalue]
  exact .finite _ (by norm_num) (by norm_num) fun _ => le_refl _

/-- Numbers up to those of a machine word stay so when they are rounded. -/
theorem Rounds.le_word (h : Rounds v w) (hv : v ≤ 2 ^ 64) : w ≤ 2 ^ 64 := by
  have hword : Represents (.finite .positive (2 ^ 52) 12 (by norm_num)) (2 ^ 64) := by
    have hvalue : (2 : ℚ) ^ 64 = (2 ^ 52 : ℕ) * 2 ^ (12 : ℤ) := by norm_num
    rw [hvalue]
    exact .finite _ (by norm_num) (by norm_num) fun _ => le_refl _
  exact h.mono hword.rounds hv

theorem Represents.hasValue (h : Represents u w) (hw : w ≤ 2 ^ 64) :
    HasValue (.ofModel (.pack u)) w := by
  have hfits : w < 2 ^ 52 * 2 ^ (972 : ℤ) := by
    refine hw.trans_lt ?_
    have hpow : (2 : ℚ) ^ 64 = 2 ^ 52 * 2 ^ (12 : ℤ) := by norm_num
    rw [hpow]
    exact mul_lt_mul_of_pos_left (zpow_lt_zpow_right₀ one_lt_two (by norm_num)) (by positivity)
  have hunpack : (Float.ofModel (.pack u)).toModel.unpack =
    UnpackedFloat.unpack .binary64 (UnpackedFloat.pack .binary64 u) := rfl
  rw [HasValue, hunpack, h.unpack_pack hfits]
  exact h

namespace HasValue

variable {x y : Float}

theorem le (hx : HasValue x v) (hy : HasValue y w) (h : v ≤ w) : x ≤ y :=
  Similarity.le_iff_compare.2 (Represents.compare_isLE hx hy h)

/-! The operations round their exact results to the nearest doubles. -/

theorem exists_mul (hx : HasValue x v) (hy : HasValue y w) (h : v * w ≤ 2 ^ 64) :
    ∃ r, Rounds (v * w) r ∧ HasValue (x * y) r := by
  obtain ⟨r, hrounds, hr⟩ := Represents.exists_mul hx hy
  exact ⟨r, hrounds, hr.hasValue (hrounds.le_word h)⟩

theorem exists_div (hx : HasValue x v) (hy : HasValue y w) (hpos : 0 < w) (h : v / w ≤ 2 ^ 64) :
    ∃ r, Rounds (v / w) r ∧ HasValue (x / y) r := by
  obtain ⟨r, hrounds, hr⟩ := Represents.exists_div hx hy hpos
  exact ⟨r, hrounds, hr.hasValue (hrounds.le_word h)⟩

theorem exists_sub (hx : HasValue x v) (hy : HasValue y w) (hle : w ≤ v) (h : v - w ≤ 2 ^ 64) :
    ∃ r, Rounds (v - w) r ∧ HasValue (x - y) r := by
  obtain ⟨r, hrounds, hr⟩ := Represents.exists_sub hx hy hle
  exact ⟨r, hrounds, hr.hasValue (hrounds.le_word h)⟩

end HasValue

/-! ## Counts -/

theorem ofNat_of_lt {n : ℕ} (hn : n < 2 ^ 53) : Float.ofNat n = n.toUInt64.toFloat * 1 := by
  have hscientific : Float.ofNat n = Float.ofScientific n false 0 := rfl
  have hone : Float.exactlyRepresentablePowersOfTen[0] = 1 := rfl
  rw [hscientific, Float.ofScientific, dif_pos ⟨hn, by norm_num⟩]
  simp only [Bool.false_eq_true, if_false, hone]

theorem ofNat_of_le {n : ℕ} (hn : 2 ^ 53 ≤ n) : Float.ofNat n =
    .ofModel (.pack (roundWithAccuracy .binary64 .positive (n <<< 53) (-53) .exact)) := by
  have hscientific : Float.ofNat n = Float.ofScientific n false 0 := rfl
  have hzero : n ≠ 0 := by omega
  have hlow : ¬ (0 : ℤ) < -(2 ^ Format.binary64.exponentBits + n.log2) :=
    not_lt.2 (neg_nonpos.2 (by positivity))
  have hproduct : UnpackedFloat.ofScientific .binary64 n 0 =
      roundWithAccuracy .binary64 .positive (n <<< 53 * 1) (-53) .exact := by
    rw [UnpackedFloat.ofScientific, dif_neg hzero, if_neg (by norm_num), if_neg hlow,
      if_pos (le_refl 0)]
    rfl
  rw [Nat.mul_one] at hproduct
  rw [hscientific, Float.ofScientific, dif_neg (by omega), ← hproduct]
  rfl

/-- A count that fits a machine word is converted to the nearest double. -/
theorem exists_hasValue_ofNat {n : ℕ} (hn : n < 2 ^ 64) :
    ∃ w, Rounds n w ∧ HasValue (Float.ofNat n) w := by
  have hle : (n : ℚ) ≤ 2 ^ 64 := by exact_mod_cast hn.le
  rcases Nat.lt_or_ge n (2 ^ 53) with hsmall | hlarge
  · obtain ⟨w, hrounds, hw⟩ := exists_rounds_normalize n 0
    rw [zpow_zero, mul_one] at hrounds
    have hword : n.toUInt64.toNat = n := Nat.mod_eq_of_lt hn
    have hfloat : HasValue n.toUInt64.toFloat w := by
      have hnormalize : n.toUInt64.toFloat =
          .ofModel (.pack (normalize .binary64 n.toUInt64.toNat 0 .positive)) := rfl
      rw [hnormalize, hword]
      exact hw.hasValue (hrounds.le_word hle)
    -- times one it is rounded to itself
    have hself : Rounds (w * 1) w := by
      rw [mul_one]
      exact hw.rounds
    have hword' : w * 1 ≤ 2 ^ 64 := by
      rw [mul_one]
      exact hrounds.le_word hle
    obtain ⟨r, hr, hvalue⟩ := hfloat.exists_mul hasValue_one hword'
    obtain rfl := hr.unique hself
    rw [ofNat_of_lt hsmall]
    exact ⟨r, hrounds, hvalue⟩
  · have hvalue : (n : ℚ) = (n <<< 53 : ℕ) * 2 ^ (-53 : ℤ) := by
      rw [shiftLeft_mul_zpow]
      norm_num
    obtain ⟨w, hrounds, hw⟩ := exists_rounds (e := -53) (keeps_exact (n <<< 53)) (by
      rw [log2_shiftLeft (by omega)]
      omega)
    rw [← hvalue] at hrounds
    rw [ofNat_of_le hlarge]
    exact ⟨w, hrounds, hw.hasValue (hrounds.le_word hle)⟩

/-! ## Proportions -/

/-- One less the proportion of a part to a whole is from 0 to 1. -/
theorem one_sub_proportion {d n : ℕ} (hpart : d ≤ n) (hpos : 0 < n) (hn : n < 2 ^ 64) :
    0 ≤ 1 - Float.ofNat d / Float.ofNat n ∧ 1 - Float.ofNat d / Float.ofNat n ≤ 1 := by
  obtain ⟨v, hv, hd⟩ := exists_hasValue_ofNat (hpart.trans_lt hn)
  obtain ⟨w, hw, hwhole⟩ := exists_hasValue_ofNat hn
  have hle : v ≤ w := hv.mono hw (by exact_mod_cast hpart)
  have hone : 1 ≤ w := hasValue_one.rounds.mono hw (by exact_mod_cast hpos)
  have hproportion : v / w ≤ 1 := div_le_one_of_le₀ hle (by linarith)
  obtain ⟨q, hq, hdiv⟩ := hd.exists_div hwhole (by linarith) (by linarith)
  have hqone : q ≤ 1 := hq.mono hasValue_one.rounds hproportion
  have hqnonneg : 0 ≤ q := hdiv.nonneg
  obtain ⟨r, hr, hsub⟩ := hasValue_one.exists_sub hdiv hqone (by linarith)
  have hrone : r ≤ 1 := hr.mono hasValue_one.rounds (by linarith)
  exact ⟨hasValue_zero.le hsub hsub.nonneg, hsub.le hasValue_one hrone⟩

end ApiEvolution.Doubles
