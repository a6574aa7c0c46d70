import Mathlib
import ApiEvolution.Decimal.Reader

/-!
# Numbers that are read are finite

A double is finite unless its exponent has all bits set, and the opposite of a finite double is
finite (`isFinite_neg`). So a text never denotes an infinity, whatever its sign (`isFinite_read?`).
-/

namespace ApiEvolution.Decimal

open Float.Model Float.Model.UnpackedFloat

variable {b : BitVec Format.binary64.numBits}

theorem isFinite_unpack_iff :
    (UnpackedFloat.unpack .binary64 b).isFinite = true ↔ unpackExponent b ≠ -1#_ := by
  rw [UnpackedFloat.unpack]
  dsimp only
  split
  · next hexponent =>
    refine iff_of_false ?_ (not_not_intro hexponent)
    split <;> exact Bool.false_ne_true
  · next hexponent =>
    refine iff_of_true ?_ hexponent
    split
    · split <;> rfl
    · rfl

/-- The exponent that a finite double unpacks to is less than what stands for infinity. -/
theorem exponent_lt_of_unpack {s : Sign} {m : Nat} {e : Int} {hm : 0 < m}
    (h : UnpackedFloat.unpack .binary64 b = .finite s m e hm) : e + 1075 < 2047 := by
  have hspecial : unpackExponent b ≠ -1#_ := isFinite_unpack_iff.1 (by rw [h]; rfl)
  have hne : (unpackExponent b).toNat ≠ 2047 := fun heq => hspecial (BitVec.toNat_inj.1 heq)
  have hlt : (unpackExponent b).toNat < 2048 := (unpackExponent b).isLt
  have hbias : ((Format.binary64.exponentBias : Nat) : Int) = 1023 := rfl
  rw [UnpackedFloat.unpack, if_neg hspecial] at h
  split at h
  · split at h
    · cases h
    · next hzero _ =>
      rw [hzero] at h
      cases h
      decide
  · cases h
    simp only [hbias]
    omega

/-- A number with such an exponent is packed as a finite double. -/
theorem isFinite_unpack_pack {s : Sign} {m : Nat} {e : Int} {hm : 0 < m} (he : e + 1075 < 2047) :
    (UnpackedFloat.unpack .binary64
      (UnpackedFloat.pack .binary64 (.finite s m e hm))).isFinite = true := by
  have hbias : ((Format.binary64.exponentBias : Nat) : Int) = 1023 := rfl
  rw [isFinite_unpack_iff, UnpackedFloat.pack]
  dsimp only
  have hfits : (e + (Format.binary64.exponentBias : Nat) + (52 : Nat)).toNat < 2047 := by
    rw [hbias]
    omega
  rw [if_neg (by omega)]
  split
  · rw [unpackExponent_packComponents]
    intro heq
    have hall : (e + (Format.binary64.exponentBias : Nat) + (52 : Nat)).toNat % 2 ^ 11 = 2047 :=
      congrArg BitVec.toNat heq
    omega
  · rw [unpackExponent_packComponents]
    decide

/-- The opposite of a finite double is finite. -/
theorem isFinite_neg {x : Float} (h : x.isFinite = true) : (-x).isFinite = true := by
  have hmodel : x.toModel.unpack.isFinite = true := h
  have hgoal : (-x).isFinite = (UnpackedFloat.unpack .binary64
      (UnpackedFloat.pack .binary64 x.toModel.unpack.neg)).isFinite := rfl
  rw [hgoal]
  cases hunpack : x.toModel.unpack with
  | notANumber | infinity =>
    rw [hunpack] at hmodel
    cases hmodel
  | zero s => cases s <;> rfl
  | finite s m e hm => exact isFinite_unpack_pack (exponent_lt_of_unpack hunpack)

/-! ## Reading -/

theorem isFinite_nearest? {d : Digits} {x : Float} (h : nearest? d = some x) :
    x.isFinite = true := by
  rw [nearest?] at h
  split at h
  · cases h
    rfl
  · dsimp only at h
    split at h
    · cases h
    · split at h
      · cases h
        rfl
      · split at h
        · next hfinite =>
          cases h
          exact hfinite
        · cases h

/-- A text denotes a finite double, if any. -/
theorem isFinite_read? {text : List Char} {x : Float} (h : read? text = some x) :
    x.isFinite = true := by
  obtain ⟨d, -, hd⟩ := Option.bind_eq_some_iff.1 h
  obtain ⟨y, hy, rfl⟩ := Option.map_eq_some_iff.1 hd
  have hfinite := isFinite_nearest? hy
  have hsigned : ∀ negative : Bool, (if negative then -y else y).isFinite = true := by
    intro negative
    cases negative
    · exact hfinite
    · exact isFinite_neg hfinite
  exact hsigned _

end ApiEvolution.Decimal
