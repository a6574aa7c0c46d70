import ApiEvolution.Decimal.Binary

/-!
# The shortest decimal that reads back

Every real number within half a step of a double rounds to it. Among the decimal numbers in that
interval the ones with the fewest digits are taken, and of these the nearest to the double. The
search walks over the decimal grids from coarse to fine; on each it asks for the double's two
neighbours only, because an interval around a number that holds a grid point holds one of these. A
double can be exactly half-way between two shortest decimals; a `Tie` says which one is taken.
-/

namespace ApiEvolution.Decimal

/-- The decimal number `coefficient * 10 ^ scale`. -/
structure Digits where
  coefficient : Nat
  scale : Int
deriving DecidableEq, Repr

/-- Whether `coefficient * 10 ^ scale` lies in the interval that rounds to the dyadic number; the
ends belong to it when the significand is even. All sides are multiplied by `4` and by the powers
that clear the denominators. -/
def Digits.readsBackTo (d : Digits) (x : Dyadic) : Bool :=
  let decimal := 4 * d.coefficient * powerAbove 10 d.scale * powerBelow 2 x.exponent
  let unit := powerAbove 2 x.exponent * powerBelow 10 d.scale
  let low := (4 * x.significand - (if x.tightBelow then 1 else 2)) * unit
  let high := (4 * x.significand + 2) * unit
  if x.significand % 2 = 0 then low ≤ decimal && decimal ≤ high
  else low < decimal && decimal < high

/-- The distance between a decimal and a dyadic number, multiplied by what clears the denominators.
-/
def Digits.distanceTo (d : Digits) (x : Dyadic) : Nat :=
  let decimal := d.coefficient * powerAbove 10 d.scale * powerBelow 2 x.exponent
  let dyadic := x.significand * powerAbove 2 x.exponent * powerBelow 10 d.scale
  (decimal - dyadic) + (dyadic - decimal)

/-- Which of two decimals to take when a double is exactly half-way between them. -/
inductive Tie where
  /-- The one whose last digit is even. -/
  | toEven
  /-- The greater one. -/
  | up
deriving DecidableEq, Repr

/-- Whether the greater of two adjacent decimals is taken, given the coefficient of the smaller one
and how the distance to the greater compares with the distance to the smaller. -/
def Tie.takesAbove (tie : Tie) (coefficient : Nat) : Ordering → Bool
  | .lt => true
  | .gt => false
  | .eq => match tie with
    | .up => true
    | .toEven => coefficient % 2 = 1

/-- The nearer of the two neighbours of `x` on the grid of multiples of `10 ^ scale`, if one reads
back. -/
def onGrid (tie : Tie) (x : Dyadic) (scale : Int) : Option Digits :=
  let below : Digits := ⟨x.significand * powerAbove 2 x.exponent * powerBelow 10 scale /
    (powerAbove 10 scale * powerBelow 2 x.exponent), scale⟩
  let above : Digits := ⟨below.coefficient + 1, scale⟩
  match below.readsBackTo x, above.readsBackTo x with
  | false, false => none
  | true, false => some below
  | false, true => some above
  | true, true =>
    if tie.takesAbove below.coefficient (compare (above.distanceTo x) (below.distanceTo x)) then
      some above
    else some below

/-- A grid that is too coarse to hold a neighbour other than 0 and 1. -/
def coarsestScale (x : Dyadic) : Int :=
  ((x.significand.log2 : Int) + x.exponent) * 1233 / 4096 + 2

/-- Move trailing zeros of the coefficient into the scale; `fuel` bounds their number. -/
def Digits.strip : Nat → Digits → Digits
  | 0, d => d
  | fuel + 1, d =>
    if d.coefficient % 10 = 0 ∧ d.coefficient ≠ 0 then
      Digits.strip fuel ⟨d.coefficient / 10, d.scale + 1⟩
    else d

/-- The shortest decimal number that reads back, without trailing zeros. Seventeen digits always
suffice, so one of the grids has it. -/
def shortest (tie : Tie) (x : Dyadic) : Digits :=
  if x.significand = 0 then ⟨0, 0⟩
  else
    let start := coarsestScale x
    let found := (List.range 24).findSome? fun i => onGrid tie x (start - Int.ofNat i)
    Digits.strip 20 (found.getD ⟨0, 0⟩)

end ApiEvolution.Decimal
