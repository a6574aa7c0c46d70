/-!
# Weighted means of scores

A score is a double, meant to be between 0 and 1. `Blend` adds up weighted signals; the mean that
comes out is kept within these bounds.
-/

namespace ApiEvolution.Similarity

/-- A number moved to the nearer end of the unit interval if it is outside; not-a-number stays. -/
def clampUnit (x : Float) : Float :=
  if x < 0 then 0 else if 1 < x then 1 else x

/-- The weights of the signals that make up a score. -/
structure Weights where
  name : Float := 0.35
  type : Float := 0.20
  documentation : Float := 0.20
  structural : Float := 0.15
  code : Float := 0.10

/-- Signals added up, with the sum of their weights. -/
structure Blend where
  total : Float := 0
  weight : Float := 0

namespace Blend

/-- One more signal. -/
def add (b : Blend) (weight score : Float) : Blend :=
  ⟨b.total + weight * score, b.weight + weight⟩

/-- The weighted mean, which is 0 if nothing has weight. -/
def mean (b : Blend) : Float :=
  if b.weight ≤ 0 then 0 else clampUnit (b.total / b.weight)

end Blend

/-- The signal that two things are equal. -/
def whether (equal : Bool) : Float :=
  if equal then 1 else 0

/-- The mean of some signals, 1 if there are none. -/
def mean (scores : List Float) : Float :=
  if scores.isEmpty then 1 else scores.foldl (· + ·) 0 / Float.ofNat scores.length

end ApiEvolution.Similarity
