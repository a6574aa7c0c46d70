import Mathlib
import ApiEvolution.Proofs.UnitScores

/-!
# The greatest of some scores

Positive doubles are ordered as their bits are (`lt_iff_toBits`). So the greatest of some positive
scores is the one with the greatest bits (`foldl_greater_mem`, `isLE_compareFloat_foldl_greater`),
and it depends on which scores there are but not on their order (`foldl_greater_eq`).
-/

namespace ApiEvolution.Similarity

open Float.Model UnpackedFloat

/-! ## Bits of a double -/

section Bits

variable {b : BitVec Format.binary64.numBits}

theorem toNat_unpackExponent (b : BitVec Format.binary64.numBits) :
    (unpackExponent b).toNat = b.toNat / 2 ^ 52 % 2 ^ 11 := by
  simp [unpackExponent, Nat.shiftRight_eq_div_pow]

theorem toNat_unpackMantissa (b : BitVec Format.binary64.numBits) :
    (unpackMantissa b).toNat = b.toNat % 2 ^ 52 := by
  simp [unpackMantissa]

theorem ofBitVec_unpackSign (b : BitVec Format.binary64.numBits) :
    Sign.ofBitVec (unpackSign b) = if b.toNat < 2 ^ 63 then .positive else .negative := by
  have hsign : unpackSign b = 0#1 ↔ b.toNat < 2 ^ 63 := by
    have hlt : b.toNat < 2 ^ 64 := b.isLt
    rw [← BitVec.toNat_inj]
    simp only [unpackSign, BitVec.toNat_cast, BitVec.extractLsb_toNat, Nat.shiftRight_eq_div_pow,
      BitVec.toNat_ofNat]
    omega
  simp only [Sign.ofBitVec, hsign]

theorem toNat_append_one (m : BitVec 52) : (1#1 ++ m).toNat = 2 ^ 52 + m.toNat := by
  rw [BitVec.toNat_append, ← Nat.shiftLeft_add_eq_or_of_lt m.isLt]
  rfl

/-- The form that a positive double with some bits unpacks to. The exponent of a finite one is
counted from the least. -/
inductive Magnitude : UnpackedFloat → Nat → Prop
  | finite {m k bits : Nat} {e : Int} (hpos : 0 < m) (hexponent : e = (k : Int) - 1074)
    (hk : k < 2046) (hm : m < 2 ^ 53) (hnormal : 0 < k → 2 ^ 52 ≤ m)
    (hbits : bits = k * 2 ^ 52 + m) : Magnitude (.finite .positive m e hpos) bits
  | infinity {bits : Nat} (hbits : bits = 2047 * 2 ^ 52) : Magnitude (.infinity .positive) bits

theorem magnitude_infinity (hb : b.toNat < 2 ^ 63) (hexponent : unpackExponent b = -1#_)
    (hmantissa : unpackMantissa b = 0#_) : Magnitude (.infinity .positive) b.toNat := by
  have he : b.toNat / 2 ^ 52 % 2 ^ 11 = 2047 := by
    rw [← toNat_unpackExponent, hexponent]
    rfl
  have hm : b.toNat % 2 ^ 52 = 0 := by
    rw [← toNat_unpackMantissa, hmantissa]
    rfl
  exact .infinity (by omega)

theorem magnitude_subnormal (hb : b.toNat < 2 ^ 63) (hexponent : unpackExponent b = 0#_)
    (hpos : 0 < (unpackMantissa b).toNat) {e : Int} (he : e = -1074) :
    Magnitude (.finite .positive (unpackMantissa b).toNat e hpos) b.toNat := by
  have hfield : b.toNat / 2 ^ 52 % 2 ^ 11 = 0 := by
    rw [← toNat_unpackExponent, hexponent]
    rfl
  have hm := toNat_unpackMantissa b
  exact .finite (k := 0) hpos he (by omega) (by omega) nofun (by omega)

theorem magnitude_normal (hb : b.toNat < 2 ^ 63) (hspecial : unpackExponent b ≠ -1#_)
    (hnormal : unpackExponent b ≠ 0#_) (hpos : 0 < (1#1 ++ unpackMantissa b).toNat) {e : Int}
    (he : e = (unpackExponent b).toNat - 1075) :
    Magnitude (.finite .positive (1#1 ++ unpackMantissa b).toNat e hpos) b.toNat := by
  have hfield := toNat_unpackExponent b
  have hm := toNat_unpackMantissa b
  -- the significand has a leading bit that the field leaves out
  have hm' := toNat_append_one (unpackMantissa b)
  have hlt : (unpackExponent b).toNat ≠ 2047 := fun heq => hspecial (BitVec.toNat_inj.1 heq)
  have hgt : (unpackExponent b).toNat ≠ 0 := fun heq => hnormal (BitVec.toNat_inj.1 heq)
  exact .finite (k := b.toNat / 2 ^ 52 - 1) hpos (by omega) (by omega) (by omega) (by omega)
    (by omega)

end Bits

/-! ## Positive doubles -/

theorem unpack_zero : (0 : Float).toModel.unpack = .zero .positive := by
  rfl

/-- Of the forms that bits unpack to, those that compare as positive are magnitudes. -/
theorem magnitude_of_pos {x : Float} (h : 0 < x) : Magnitude x.toModel.unpack x.toBits.toNat := by
  rw [lt_iff_compare, unpack_zero] at h
  have hbits : x.toBits.toNat = x.toModel.toBits.toBitVec.toNat := rfl
  rw [hbits, Float.Model.unpack] at *
  generalize x.toModel.toBits.toBitVec = b at h ⊢
  rw [UnpackedFloat.unpack] at h ⊢
  simp only [ofBitVec_unpackSign] at h ⊢
  by_cases hb : b.toNat < 2 ^ 63
  · simp only [hb, if_true] at h ⊢
    split
    · next hspecial =>
      rw [if_pos hspecial] at h
      split
      · next hzero => exact magnitude_infinity hb hspecial hzero
      · next hnan =>
        rw [if_neg hnan] at h
        cases h
    · next hspecial =>
      rw [if_neg hspecial] at h
      split
      · next hsubnormal =>
        rw [if_pos hsubnormal] at h
        split
        · next hzero =>
          rw [dif_pos hzero] at h
          cases h
        · exact magnitude_subnormal hb hsubnormal _ (by rw [hsubnormal]; rfl)
      · next hnormal => exact magnitude_normal hb hspecial hnormal _ rfl
  · simp only [hb, if_false] at h
    split at h
    · split at h <;> cases h
    · split at h
      · split at h <;> cases h
      · cases h

theorem Magnitude.compare_eq_lt_iff {u v : UnpackedFloat} {i j : Nat} (hu : Magnitude u i)
    (hv : Magnitude v j) : u.compare v = some .lt ↔ i < j := by
  cases hu with
  | infinity hi =>
    cases hv with
    | infinity hj => exact iff_of_false nofun (by omega)
    | finite => exact iff_of_false nofun (by omega)
  | finite =>
    cases hv with
    | infinity hj => exact iff_of_true rfl (by omega)
    | finite =>
      -- the exponents decide, and only if they are equal the significands
      simp only [UnpackedFloat.compare, Option.some_inj, Ordering.then_eq_lt, Int.compare_eq_lt,
        Int.compare_eq_eq, Nat.compare_eq_lt]
      omega

/-- Positive doubles are ordered as their bits are. -/
theorem lt_iff_toBits {x y : Float} (hx : 0 < x) (hy : 0 < y) :
    x < y ↔ x.toBits.toNat < y.toBits.toNat := by
  rw [lt_iff_compare]
  exact (magnitude_of_pos hx).compare_eq_lt_iff (magnitude_of_pos hy)

theorem Magnitude.lt_two_pow {u : UnpackedFloat} {bits : Nat} (h : Magnitude u bits) :
    bits < 2 ^ 63 := by
  cases h with
  | finite => omega
  | infinity hbits => omega

/-- Positive doubles come in the total order as their bits do. -/
theorem orderKey_of_pos {x : Float} (h : 0 < x) : Decimal.orderKey x = x.toBits.toNat := by
  simp only [Decimal.orderKey]
  exact if_pos (magnitude_of_pos h).lt_two_pow

/-! ## The greatest score -/

open Matcher (greater)

theorem toBits_greater {a x : Float} (ha : a = 0 ∨ 0 < a) (hx : 0 < x) :
    (greater a x).toBits.toNat = max a.toBits.toNat x.toBits.toNat := by
  rw [greater]
  rcases ha with rfl | ha
  · have hzero : (0 : Float).toBits.toNat = 0 := rfl
    rw [if_pos hx, hzero, Nat.zero_max]
  · have hbits := lt_iff_toBits ha hx
    by_cases hlt : a < x
    · rw [if_pos hlt, Nat.max_eq_right (hbits.1 hlt).le]
    · rw [if_neg hlt, Nat.max_eq_left (Nat.le_of_not_lt (mt hbits.2 hlt))]

theorem greater_pos {a x : Float} (ha : a = 0 ∨ 0 < a) (hx : 0 < x) : 0 < greater a x := by
  rw [greater]
  split
  · exact hx
  · next hnot => exact ha.resolve_left fun hzero => hnot (hzero ▸ hx)

/-- The bits of the greatest score are the greatest of all bits. -/
theorem le_toBits_foldl_greater {a : Float} {scores : List Float} {n : Nat} (ha : a = 0 ∨ 0 < a)
    (h : ∀ x ∈ scores, 0 < x) :
    n ≤ (scores.foldl greater a).toBits.toNat ↔
      n ≤ a.toBits.toNat ∨ ∃ x ∈ scores, n ≤ x.toBits.toNat := by
  induction scores generalizing a with
  | nil => simp
  | cons x rest ih =>
    obtain ⟨hx, hrest⟩ := List.forall_mem_cons.1 h
    rw [List.foldl_cons, ih (Or.inr (greater_pos ha hx)) hrest, toBits_greater ha hx, le_max_iff,
      List.exists_mem_cons_iff, or_assoc]

/-- The greatest of some positive scores does not depend on their order. -/
theorem foldl_greater_eq {scores scores' : List Float} (h : ∀ x ∈ scores, 0 < x)
    (hmem : ∀ x, x ∈ scores ↔ x ∈ scores') :
    scores.foldl greater 0 = scores'.foldl greater 0 := by
  have h' : ∀ x ∈ scores', 0 < x := fun x hx => h x ((hmem x).2 hx)
  have hbits : ∀ n, n ≤ (scores.foldl greater 0).toBits.toNat ↔
      n ≤ (scores'.foldl greater 0).toBits.toNat := by
    intro n
    rw [le_toBits_foldl_greater (Or.inl rfl) h, le_toBits_foldl_greater (Or.inl rfl) h']
    simp only [hmem]
  exact Decimal.toBits_inj (UInt64.toNat_inj.1 (Nat.le_antisymm
    ((hbits _).1 (Nat.le_refl _)) ((hbits _).2 (Nat.le_refl _))))

/-- The greatest of some positive scores is one of them. -/
theorem foldl_greater_mem {scores : List Float} (hne : scores ≠ []) (h : ∀ x ∈ scores, 0 < x) :
    scores.foldl greater 0 ∈ scores := by
  have hbits := fun n => le_toBits_foldl_greater (n := n) (Or.inl rfl) h
  have hzero : (0 : Float).toBits.toNat = 0 := rfl
  rcases (hbits _).1 (Nat.le_refl _) with hle | ⟨x, hx, hle⟩
  · -- only zero has no more bits than zero, and the scores are positive
    obtain ⟨x, hx⟩ := List.exists_mem_of_ne_nil _ hne
    have hx' := (hbits _).2 (Or.inr ⟨x, hx, Nat.le_refl _⟩)
    have hpos : x ≠ 0 := by
      rintro rfl
      exact absurd (h 0 hx) (by decide)
    refine absurd (Decimal.toBits_inj (UInt64.toNat_inj.1 ?_)) hpos
    omega
  · have hx' := (hbits _).2 (Or.inr ⟨x, hx, Nat.le_refl _⟩)
    rw [Decimal.toBits_inj (UInt64.toNat_inj.1 (Nat.le_antisymm hle hx'))]
    exact hx

/-- No score comes after the greatest one in the total order. -/
theorem isLE_compareFloat_foldl_greater {scores : List Float} (h : ∀ x ∈ scores, 0 < x) {x : Float}
    (hx : x ∈ scores) : (Decimal.compareFloat x (scores.foldl greater 0)).isLE = true := by
  have hgreatest := h _ (foldl_greater_mem (List.ne_nil_of_mem hx) h)
  have hbits := (le_toBits_foldl_greater (Or.inl rfl) h).2 (Or.inr ⟨x, hx, Nat.le_refl _⟩)
  rw [Decimal.compareFloat, orderKey_of_pos (h x hx), orderKey_of_pos hgreatest, Int.isLE_compare]
  exact Int.ofNat_le.2 hbits

end ApiEvolution.Similarity
