import ApiEvolution.Decimal.Shortest

/-!
# How a number is laid out

A `Layout` settles what the shortest digits leave open about the text of a number: which numbers are
written with an exponent, whether a whole number keeps its point, and which way a tie goes. There
are two in this library: `Layout.document` for numbers in documents and `Layout.prose` for numbers
in running text. `fixedPlaces` writes a given number of places instead, with halves going to the
even neighbour.
-/

namespace ApiEvolution.Decimal

/-- The decisions that turn digits into text. -/
structure Layout where
  /-- The exponents of ten, least and greatest, that are written by the place of the point alone;
  every exponent is when there is no such range. -/
  positional : Option (Int × Int)
  /-- Whether a whole number is written with `.0`. -/
  keepsPoint : Bool
  /-- Which of two equally short and equally near decimals is written. -/
  tie : Tie

/-- Documents write numbers from `1e-5` up to below `1e16` by place, always with a point, and settle
a tie in favour of the even digit. -/
def Layout.document : Layout := ⟨some (-5, 15), true, .toEven⟩

/-- Running text never shows an exponent, nor a point after a whole number, and settles a tie in
favour of the greater number. -/
def Layout.prose : Layout := ⟨none, false, .up⟩

/-- A run of zeros. -/
def zeros (n : Nat) : String :=
  String.ofList (List.replicate n '0')

/-- The digits of a natural number. -/
def natural (n : Nat) : String :=
  String.ofList (Nat.toDigits 10 n)

/-- An integer, with its sign if it is negative. -/
def integer : Int → String
  | .ofNat n => natural n
  | .negSucc n => "-" ++ natural (n + 1)

/-- A decimal number by the place of its point. -/
def Digits.byPlace (d : Digits) (keepsPoint : Bool) : String :=
  let text := Nat.toDigits 10 d.coefficient
  let whole := (text.length : Int) + d.scale
  if 0 ≤ d.scale then
    String.ofList text ++ zeros d.scale.toNat ++ (if keepsPoint then ".0" else "")
  else if 0 < whole then
    String.ofList (text.take whole.toNat) ++ "." ++ String.ofList (text.drop whole.toNat)
  else "0." ++ zeros (-whole).toNat ++ String.ofList text

/-- A decimal number with one digit before the point and an exponent that shows its sign. -/
def Digits.byExponent (d : Digits) : String :=
  let text := Nat.toDigits 10 d.coefficient
  let exponent := (text.length : Int) - 1 + d.scale
  String.ofList (text.take 1) ++
    (if text.length > 1 then "." ++ String.ofList (text.drop 1) else "") ++ "e" ++
    (if exponent < 0 then "-" else "+") ++ natural exponent.natAbs

/-- The scientific exponent of a decimal number. -/
def Digits.exponent (d : Digits) : Int :=
  ((Nat.toDigits 10 d.coefficient).length : Int) - 1 + d.scale

/-- A decimal number in a layout. -/
def Layout.render (layout : Layout) (d : Digits) : String :=
  match layout.positional with
  | none => d.byPlace layout.keepsPoint
  | some (least, greatest) =>
    if least ≤ d.exponent ∧ d.exponent ≤ greatest then d.byPlace layout.keepsPoint
    else d.byExponent

/-- The text of a finite double in a layout. -/
def Layout.finite (layout : Layout) (x : Float) : String :=
  (if isNegative x then "-" else "") ++ layout.render (shortest layout.tie (Dyadic.ofFloat x))

/-- The text of a double within running text. -/
def prose (x : Float) : String :=
  if x.isNaN then "NaN"
  else if x.isInf then (if isNegative x then "-inf" else "inf")
  else Layout.prose.finite x

/-- A quotient rounded to the nearest natural number, a half going to the even one. -/
def roundHalfEven (numerator denominator : Nat) : Nat :=
  let quotient := numerator / denominator
  let twice := 2 * (numerator % denominator)
  if twice < denominator ∨ twice = denominator ∧ quotient % 2 = 0 then quotient
  else quotient + 1

/-- The text of a double with a fixed, positive number of places. -/
def fixedPlaces (places : Nat) (x : Float) : String :=
  if x.isNaN then "NaN"
  else
    let sign := if isNegative x then "-" else ""
    if x.isInf then sign ++ "inf"
    else
      let d := Dyadic.ofFloat x
      let units := roundHalfEven (d.significand * powerAbove 2 d.exponent * Nat.pow 10 places)
        (powerBelow 2 d.exponent)
      let fraction := Nat.toDigits 10 (units % Nat.pow 10 places)
      sign ++ natural (units / Nat.pow 10 places) ++ "." ++
        zeros (places - fraction.length) ++ String.ofList fraction

/-- How far a rounded quotient is from the quotient: at most half a unit. -/
theorem roundHalfEven_near (numerator denominator : Nat) (h : 0 < denominator) :
    2 * (roundHalfEven numerator denominator * denominator) ≤ 2 * numerator + denominator ∧
      2 * numerator ≤ 2 * (roundHalfEven numerator denominator * denominator) + denominator := by
  have hdiv := Nat.div_add_mod numerator denominator
  have hlt := Nat.mod_lt numerator h
  have hcomm := Nat.mul_comm denominator (numerator / denominator)
  unfold roundHalfEven
  simp only
  split
  · omega
  · have hsucc : (numerator / denominator + 1) * denominator =
        numerator / denominator * denominator + denominator := by
      rw [Nat.add_mul, Nat.one_mul]
    omega

end ApiEvolution.Decimal
