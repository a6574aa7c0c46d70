/-!
# Double-precision numbers as exact dyadic numbers

A finite double is a sign and a natural number times a power of two, which `Dyadic.ofFloat` reads
off the bits. `powerAbove` and `powerBelow` are the two parts of a power that stand above and below
the line of a fraction, so that everything said about digits is exact arithmetic on natural numbers.
`orderKey` is the position of a double in the total order of IEEE 754, in which the zeros are apart
and the not-a-number is above infinity; `patternKey` is that of any pattern of bits.

* `orderKey_inj`: two doubles at the same position are the same double.
-/

namespace ApiEvolution.Decimal

/-- The sign bit of a double. -/
def isNegative (x : Float) : Bool :=
  x.toBits.toNat ≥ Nat.pow 2 63

/-- The number `significand * 2 ^ exponent`. `tightBelow` tells that the next smaller double is only
half as far away as the next greater one. -/
structure Dyadic where
  significand : Nat
  exponent : Int
  tightBelow : Bool
deriving DecidableEq, Repr

/-- The absolute value of a finite double. -/
def Dyadic.ofFloat (x : Float) : Dyadic :=
  let bits : Nat := x.toBits.toNat % Nat.pow 2 63
  let biased := bits / Nat.pow 2 52
  let fraction := bits % Nat.pow 2 52
  if biased = 0 then ⟨fraction, -1074, false⟩
  else ⟨Nat.pow 2 52 + fraction, Int.ofNat biased - 1075, fraction = 0 && biased ≠ 1⟩

/-- `b ^ e` where the exponent is positive, and 1 elsewhere. -/
def powerAbove (b : Nat) (e : Int) : Nat :=
  Nat.pow b e.toNat

/-- `b ^ (-e)` where the exponent is negative, and 1 elsewhere. -/
def powerBelow (b : Nat) (e : Int) : Nat :=
  Nat.pow b (-e).toNat

/-- The position of a double in the total order: by magnitude above zero, and the other way round
below it. -/
def orderKey (x : Float) : Int :=
  let bits := x.toBits.toNat
  if bits < Nat.pow 2 63 then bits else Int.pow 2 63 - 1 - (bits : Int)

/-- The position of a pattern of bits in that order. Here every pattern of a double that is no number
has a position of its own. -/
def patternKey (bits : UInt64) : Int :=
  if bits.toNat < Nat.pow 2 63 then bits.toNat else Int.pow 2 63 - 1 - (bits.toNat : Int)

theorem toBits_inj {x y : Float} (h : x.toBits = y.toBits) : x = y := by
  cases x with | ofModel a => cases y with | ofModel b =>
  cases a with | mk m => cases b with | mk n =>
  have hbits : m = n := h
  subst hbits
  rfl

theorem patternKey_inj {a b : UInt64} (h : patternKey a = patternKey b) : a = b := by
  apply UInt64.toNat_inj.1
  have hnat : Nat.pow 2 63 = 9223372036854775808 := rfl
  have hint : Int.pow 2 63 = 9223372036854775808 := rfl
  simp only [patternKey, hnat, hint] at h
  split at h <;> split at h <;> omega

theorem orderKey_eq (x : Float) : orderKey x = patternKey x.toBits := rfl

theorem orderKey_inj {x y : Float} (h : orderKey x = orderKey y) : x = y := by
  rw [orderKey_eq, orderKey_eq] at h
  exact toBits_inj (patternKey_inj h)

/-- The total order of doubles. -/
def compareFloat (x y : Float) : Ordering :=
  compare (orderKey x) (orderKey y)

theorem compareFloat_eq_iff {x y : Float} : compareFloat x y = .eq ↔ x = y := by
  simp only [compareFloat, Int.compare_eq_eq]
  exact ⟨orderKey_inj, fun h => h ▸ rfl⟩

end ApiEvolution.Decimal
