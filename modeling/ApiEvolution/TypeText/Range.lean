import ApiEvolution.Decimal.Reader
import ApiEvolution.Text.Blank
import ApiEvolution.Text.Digit
import ApiEvolution.TypeText.Segment
import ApiEvolution.ValueType.Basic

/-!
# Numeric ranges in running text

A range is written between a square or round opening bracket and a closing one, two limits with a
comma between them; a square bracket tells that the limit belongs to the range. A limit is a number
or, on its own side, one of the names of infinity. Letters count in either case, and any blanks may
surround the parts.

* `rangeIn` looks for a range in a description. A range that the word "range" or "interval"
  introduces is preferred to a pair of brackets anywhere else.
* `rangeOf` reads a whole segment of a type text as a range.

A range that is well formed but has no meaning is passed over: one whose limits are in the wrong
order, or one with a number that is beyond the greatest double or is not written with the digits 0
to 9.
-/

namespace ApiEvolution.TypeText

/-- What follows a word at the front of a text, the case of letters set aside. -/
def dropWord? (word : List Char) (text : List Char) : Option (List Char) :=
  if (text.take word.length).map Char.toLower = word then some (text.drop word.length) else none

/-- Drop the blanks at the front. -/
def skipBlanks (text : List Char) : List Char :=
  text.dropWhile Text.isBlank

/-- Drop the blanks at the front, of which there must be one. -/
def skipBlanks? : List Char → Option (List Char)
  | [] => none
  | c :: rest => if Text.isBlank c then some (skipBlanks rest) else none

/-- A limit as it is written. -/
inductive LimitToken where
  | infinite
  | number (text : List Char)
deriving DecidableEq, Repr

/-- Digits at the front of a text, possibly none. -/
def scanDigits (text : List Char) : List Char × List Char :=
  (text.takeWhile Text.isDigit, text.dropWhile Text.isDigit)

/-- The exponent at the front of a text, possibly none: a mark without digits is no exponent. -/
def scanExponent : List Char → List Char × List Char
  | [] => ([], [])
  | c :: rest =>
    let (sign, more) := match rest with
      | '+' :: more => (['+'], more)
      | '-' :: more => (['-'], more)
      | more => ([], more)
    let (digits, last) := scanDigits more
    if (c = 'e' || c = 'E') && !digits.isEmpty then (c :: sign ++ digits, last)
    else ([], c :: rest)

/-- The unsigned number at the front of a text. -/
def scanUnsigned (text : List Char) : Option (List Char × List Char) :=
  let (whole, rest) := scanDigits text
  let (fraction, rest) := match rest with
    | '.' :: more => ('.' :: (scanDigits more).1, (scanDigits more).2)
    | rest => ([], rest)
  if whole.isEmpty && fraction.length ≤ 1 then none
  else
    let (exponent, rest) := scanExponent rest
    some (whole ++ fraction ++ exponent, rest)

/-- The number at the front of a text. -/
def scanNumber : List Char → Option (List Char × List Char)
  | '-' :: rest => (scanUnsigned rest).map fun r => ('-' :: r.1, r.2)
  | '+' :: rest => (scanUnsigned rest).map fun r => ('+' :: r.1, r.2)
  | rest => scanUnsigned rest

/-- The names of the lower infinity, each before the ones that it extends. -/
def lowerInfinities : List (List Char) :=
  ["-infinity".toList, "-inf".toList, "negative_infinity".toList, "negativeinfinity".toList]

/-- The names of the upper infinity, each before the ones that it extends. -/
def upperInfinities : List (List Char) :=
  ["+infinity".toList, "+inf".toList, "infinity".toList, "inf".toList]

/-- The limit at the front of a text, given the names of infinity on its side. -/
def scanLimit (infinities : List (List Char)) (text : List Char) :
    Option (LimitToken × List Char) :=
  match scanNumber text with
  | some (number, rest) => some (.number number, rest)
  | none => (infinities.findSome? fun w => dropWord? w text).map fun rest => (.infinite, rest)

/-- A range as it is written. -/
structure RangeToken where
  lowerIncluded : Bool
  lower : LimitToken
  upper : LimitToken
  upperIncluded : Bool
deriving DecidableEq, Repr

/-- Drop a backquote at the front, if one is there. -/
def skipBackquote : List Char → List Char
  | [] => []
  | c :: rest => if c = backquote then rest else c :: rest

/-- The range at the front of a text. -/
def scanRange (text : List Char) : Option (RangeToken × List Char) := do
  let (lowerIncluded, rest) ← match skipBackquote text with
    | '[' :: rest => some (true, rest)
    | '(' :: rest => some (false, rest)
    | _ => none
  let (lower, rest) ← scanLimit lowerInfinities (skipBlanks rest)
  let ',' :: rest := skipBlanks rest | none
  let (upper, rest) ← scanLimit upperInfinities (skipBlanks rest)
  match skipBlanks rest with
  | ']' :: rest => some (⟨lowerIncluded, lower, upper, true⟩, skipBackquote rest)
  | ')' :: rest => some (⟨lowerIncluded, lower, upper, false⟩, skipBackquote rest)
  | _ => none

/-- The limit that a token stands for, unless its number has no finite value. -/
def LimitToken.toLimit? (included : Bool) : LimitToken → Option Limit
  | .infinite => some .unbounded
  | .number text =>
    (Decimal.read? text).map fun x => if included then .inclusive x else .exclusive x

/-- The range that a token stands for, unless a limit has no value or the limits are in the wrong
order. -/
def RangeToken.toBoundary? (base : NumberBase) (t : RangeToken) : Option Boundary := do
  let lower ← t.lower.toLimit? t.lowerIncluded
  let upper ← t.upper.toLimit? t.upperIncluded
  if !lower.isUnbounded && !upper.isUnbounded && upper.value < lower.value then none
  else some ⟨base, lower, upper⟩

/-- The range at the front of a text that the word "range" or "interval" introduces. -/
def scanPhrase (text : List Char) : Option (RangeToken × List Char) := do
  let rest ← (dropWord? "range".toList text).or (dropWord? "interval".toList text)
  let rest ← skipBlanks? rest
  scanRange (((dropWord? "of".toList rest).bind skipBlanks?).getD rest)

/-- The first meaningful range that a word introduces. `afterWord` tells that a word character comes
before the text, in which case no word starts with it. -/
def phrasedRange (base : NumberBase) (afterWord : Bool) : List Char → Option Boundary
  | [] => none
  | c :: rest =>
    let here := if afterWord then none
      else (scanPhrase (c :: rest)).bind fun r => r.1.toBoundary? base
    here.or (phrasedRange base (Text.isWord c) rest)

/-- The first meaningful range. -/
def bareRange (base : NumberBase) : List Char → Option Boundary
  | [] => none
  | c :: rest =>
    ((scanRange (c :: rest)).bind fun r => r.1.toBoundary? base).or (bareRange base rest)

/-- The range that a description gives. -/
def rangeIn (base : NumberBase) (description : List Char) : Option Boundary :=
  (phrasedRange base false description).or (bareRange base description)

/-- The base in front of a range, with the blanks and the word "in" that may follow it. -/
def scanBase (text : List Char) : Option (NumberBase × List Char) := do
  let (base, rest) ← ((dropWord? "int".toList text).map fun r => (NumberBase.int, r)).or
    ((dropWord? "float".toList text).map fun r => (NumberBase.float, r))
  let rest ← skipBlanks? rest
  some (base, ((dropWord? "in".toList rest).bind skipBlanks?).getD rest)

/-- The range that a whole segment describes. A base in the segment counts more than the declared
one. -/
def rangeOf (declared : NumberBase) (segment : List Char) : Option Boundary := do
  let text := skipBlanks segment
  let (base, rest) := (scanBase text).getD (declared, text)
  let (range, rest) ← scanRange rest
  if (skipBlanks rest).isEmpty then range.toBoundary? base else none

end ApiEvolution.TypeText
