import ApiEvolution.Decimal.Layout

/-!
# Reading decimal numbers

`read?` reads a whole text as a decimal number: an optional sign, digits with at most one point and
at least one digit, and an optional exponent. The result is the nearest double; a text whose number
is beyond the greatest double has none. Only the digits 0 to 9 count.
-/

namespace ApiEvolution.Decimal

/-- The number that a run of decimal digits denotes, most significant digit first. -/
def valueOf (digits : List Char) : Nat :=
  digits.foldl (fun n c => 10 * n + (c.toNat - '0'.toNat)) 0

/-- The double nearest to `coefficient * 10 ^ scale`, unless it is beyond the greatest double. The
exact conversion is asked only when the magnitude is within what doubles can show. -/
def nearest? (d : Digits) : Option Float :=
  if d.coefficient = 0 then some 0
  else
    let magnitude := ((Nat.toDigits 10 d.coefficient).length : Int) + d.scale
    if 400 < magnitude then none
    else if magnitude < -400 then some 0
    else
      let x := Float.ofScientific d.coefficient (d.scale < 0) d.scale.natAbs
      if x.isFinite then some x else none

/-- A sign in front, and what follows it. -/
def splitSign : List Char → Bool × List Char
  | '-' :: rest => (true, rest)
  | '+' :: rest => (false, rest)
  | rest => (false, rest)

/-- The exponent that follows the digits: nothing at all, or a mark, an optional sign and digits. -/
def exponent? : List Char → Option Int
  | [] => some 0
  | c :: rest =>
    if c = 'e' ∨ c = 'E' then
      let (negative, digits) := splitSign rest
      if digits.isEmpty ∨ ¬ digits.all Char.isDigit then none
      else some (if negative then -(valueOf digits : Int) else valueOf digits)
    else none

/-- The decimal number that an unsigned text denotes. -/
def unsigned? (text : List Char) : Option Digits :=
  let whole := text.takeWhile Char.isDigit
  let (fraction, rest) := match text.dropWhile Char.isDigit with
    | '.' :: more => (more.takeWhile Char.isDigit, more.dropWhile Char.isDigit)
    | rest => ([], rest)
  if whole.isEmpty && fraction.isEmpty then none
  else (exponent? rest).map fun e => ⟨valueOf (whole ++ fraction), e - fraction.length⟩

/-- The finite double that a text denotes. -/
def read? (text : List Char) : Option Float :=
  let (negative, rest) := splitSign text
  (unsigned? rest).bind fun d =>
    (nearest? d).map fun x => if negative then -x else x

end ApiEvolution.Decimal
