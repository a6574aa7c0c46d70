import ApiEvolution.Json.Basic
import ApiEvolution.Decimal.Reader

/-!
# Reading JSON

`Json.read?` reads a whole text by the grammar of JSON, with blanks only where the grammar has them.

A number without point and exponent that fits 64 bits is an integer, except `-0`. Any other number
is computed in doubles from its leading digits, as many as fit 64 bits, by one multiplication with
or division by a power of ten. So a number of up to 15 digits with a small exponent is read exactly,
and a longer one may be off by one step. A number beyond the greatest double is unusable.
-/

namespace ApiEvolution.Json

/-- Drop the blanks that JSON allows between its parts. -/
def skip (cs : List Char) : List Char :=
  cs.dropWhile fun c => c = ' ' || c = '\t' || c = '\n' || c = '\r'

/-! ## Numbers -/

/-- Append digits to a number as long as it stays below `2 ^ 64`; also the digits left over. -/
def fitWord (n : Nat) : List Char → Nat × List Char
  | [] => (n, [])
  | c :: rest =>
    let next := 10 * n + (c.toNat - '0'.toNat)
    if next < Nat.pow 2 64 then fitWord next rest else (n, c :: rest)

/-- The double nearest to a power of ten. -/
def powerOfTen (e : Nat) : Float :=
  Float.ofScientific 1 false e

/-- Divide by a power of ten, in steps that are powers of ten themselves. -/
def shrink (x : Float) (e : Nat) : Float :=
  if e ≤ 308 then x / powerOfTen e
  else if x == 0 then x
  else shrink (x / powerOfTen 308) (e - 308)
termination_by e

/-- The double for `coefficient * 10 ^ scale`, unless it is beyond the greatest double. -/
def scaled? (coefficient : Nat) (scale : Int) : Option Float :=
  let x := coefficient.toUInt64.toFloat
  if scale < 0 then some (shrink x (-scale).toNat)
  else if 308 < scale then if x == 0 then some x else none
  else
    let y := x * powerOfTen scale.toNat
    if y.isInf then none else some y

/-- The double that a sign, digits and an exponent denote. -/
def realOf (negative : Bool) (whole fraction : List Char) (exponent : Int) : Json :=
  let (n, left) := fitWord 0 whole
  let (m, unused) := fitWord n fraction
  let scale := left.length - (fraction.length - unused.length : Nat) + exponent
  match scaled? m scale with
  | some x => .real (if negative then -x else x)
  | none => .unusable

/-- The integer that a sign and digits denote, or the double if the integer is no 64-bit one. -/
def integerOf (negative : Bool) (whole : List Char) : Json :=
  let n := Decimal.valueOf whole
  if negative then
    if 0 < n ∧ n ≤ Nat.pow 2 63 then .integer (-(n : Int)) else realOf true whole [] 0
  else if n < Nat.pow 2 64 then .integer n
  else realOf false whole [] 0

/-- The exponent at the front, if the mark of one is there; `none` for a mark without digits. -/
def scanExponent : List Char → Option (Option Int × List Char)
  | [] => some (none, [])
  | c :: rest =>
    if c = 'e' ∨ c = 'E' then
      let (negative, more) := Decimal.splitSign rest
      let digits := more.takeWhile Char.isDigit
      if digits.isEmpty then none
      else
        let e := (Decimal.valueOf digits : Int)
        some (some (if negative then -e else e), more.dropWhile Char.isDigit)
    else some (none, c :: rest)

/-- The fraction at the front, if a point is there; `none` for a point without digits. -/
def scanFraction : List Char → Option (Option (List Char) × List Char)
  | '.' :: rest =>
    let digits := rest.takeWhile Char.isDigit
    if digits.isEmpty then none else some (some digits, rest.dropWhile Char.isDigit)
  | rest => some (none, rest)

/-- The number at the front of a text. -/
def scanNumber (cs : List Char) : Option (Json × List Char) := do
  let (negative, cs) := match cs with
    | '-' :: rest => (true, rest)
    | rest => (false, rest)
  let whole := cs.takeWhile Char.isDigit
  if whole.isEmpty || (whole.head? = some '0' && whole.length > 1) then none
  else
    let (fraction, rest) ← scanFraction (cs.dropWhile Char.isDigit)
    let (exponent, rest) ← scanExponent rest
    match fraction, exponent with
    | none, none => some (integerOf negative whole, rest)
    | _, _ => some (realOf negative whole (fraction.getD []) (exponent.getD 0), rest)

/-! ## Texts -/

/-- The value of a hexadecimal digit. -/
def hexValue? (c : Char) : Option Nat :=
  if c.isDigit then some (c.toNat - '0'.toNat)
  else if 'a' ≤ c ∧ c ≤ 'f' then some (c.toNat - 'a'.toNat + 10)
  else if 'A' ≤ c ∧ c ≤ 'F' then some (c.toNat - 'A'.toNat + 10)
  else none

/-- The 16-bit unit that four hexadecimal digits denote. -/
def unit? (a b c d : Char) : Option Nat := do
  let a ← hexValue? a
  let b ← hexValue? b
  let c ← hexValue? c
  let d ← hexValue? d
  some (((a * 16 + b) * 16 + c) * 16 + d)

/-- The characters that stand for a character after a backslash. -/
def shortEscape? : Char → Option Char
  | '"' => some '"'
  | '\\' => some '\\'
  | '/' => some '/'
  | 'b' => some (Char.ofNat 8)
  | 'f' => some (Char.ofNat 12)
  | 'n' => some '\n'
  | 'r' => some '\r'
  | 't' => some '\t'
  | _ => none

/-- A second half of a surrogate pair at the front, written as an escape. -/
def lowSurrogate? : List Char → Option (Nat × List Char)
  | '\\' :: 'u' :: a :: b :: c :: d :: rest =>
    match unit? a b c d with
    | some u => if 0xDC00 ≤ u ∧ u < 0xE000 then some (u, rest) else none
    | none => none
  | _ => none

theorem lowSurrogate?_length {cs rest : List Char} {u : Nat}
    (h : lowSurrogate? cs = some (u, rest)) : rest.length < cs.length := by
  unfold lowSurrogate? at h
  split at h
  · split at h
    · split at h
      · cases h; simp only [List.length_cons]; omega
      · cases h
    · cases h
  · cases h

/-- The rest of a text after its opening quote, and what follows the closing one. `done` holds the
characters read so far, last first; an unpaired surrogate makes the text unusable. -/
def scanText (done : List Char) (usable : Bool) (cs : List Char) :
    Option (Option String × List Char) :=
  match cs with
  | [] => none
  | '"' :: rest => some (if usable then some (String.ofList done.reverse) else none, rest)
  | '\\' :: 'u' :: a :: b :: c :: d :: rest =>
    match unit? a b c d with
    | none => none
    | some u =>
      if 0xD800 ≤ u ∧ u < 0xDC00 then
        match h : lowSurrogate? rest with
        | some (v, more) =>
          scanText (Char.ofNat (0x10000 + (u - 0xD800) * 0x400 + (v - 0xDC00)) :: done) usable more
        | none => scanText done false rest
      else if 0xDC00 ≤ u ∧ u < 0xE000 then scanText done false rest
      else scanText (Char.ofNat u :: done) usable rest
  | '\\' :: c :: rest =>
    match shortEscape? c with
    | some d => scanText (d :: done) usable rest
    | none => none
  | c :: rest => if c.toNat < 32 || c = '\\' then none else scanText (c :: done) usable rest
termination_by cs.length
decreasing_by
  all_goals simp only [List.length_cons]
  all_goals try omega
  have := lowSurrogate?_length h
  omega

/-! ## Values -/

/-- The object with the given members, unusable if one of the keys is. -/
def objectOf (members : List (Option String × Json)) : Json :=
  match members.mapM fun m => m.1.map fun k => (k, m.2) with
  | some members => .object members
  | none => .unusable

mutual

/-- The value at the front of a text. The fuel bounds the number of steps; twice the length of the
text is enough, as each step but every other one takes a character. -/
def scanValue : Nat → List Char → Option (Json × List Char)
  | 0, _ => none
  | fuel + 1, cs =>
    match skip cs with
    | '"' :: rest => (scanText [] true rest).map fun r => (r.1.elim .unusable .text, r.2)
    | '[' :: rest =>
      match skip rest with
      | ']' :: more => some (.array [], more)
      | _ => (scanItems fuel rest).map fun r => (.array r.1, r.2)
    | '{' :: rest =>
      match skip rest with
      | '}' :: more => some (.object [], more)
      | _ => (scanMembers fuel rest).map fun r => (objectOf r.1, r.2)
    | 't' :: 'r' :: 'u' :: 'e' :: rest => some (.bool true, rest)
    | 'f' :: 'a' :: 'l' :: 's' :: 'e' :: rest => some (.bool false, rest)
    | 'n' :: 'u' :: 'l' :: 'l' :: rest => some (.null, rest)
    | rest => scanNumber rest

/-- One or more items and the closing bracket. -/
def scanItems : Nat → List Char → Option (List Json × List Char)
  | 0, _ => none
  | fuel + 1, cs => do
    let (v, rest) ← scanValue fuel cs
    match skip rest with
    | ',' :: more =>
      let (vs, last) ← scanItems fuel more
      some (v :: vs, last)
    | ']' :: more => some ([v], more)
    | _ => none

/-- One or more members and the closing brace. -/
def scanMembers : Nat → List Char → Option (List (Option String × Json) × List Char)
  | 0, _ => none
  | fuel + 1, cs => do
    let '"' :: rest := skip cs | none
    let (key, rest) ← scanText [] true rest
    let ':' :: rest := skip rest | none
    let (v, rest) ← scanValue fuel rest
    match skip rest with
    | ',' :: more =>
      let (ms, last) ← scanMembers fuel more
      some ((key, v) :: ms, last)
    | '}' :: more => some ([(key, v)], more)
    | _ => none

end

/-! What is read depends on a text only behind its leading blanks. -/

theorem scanValue_of_skip {cs ds : List Char} (h : skip cs = skip ds) (fuel : Nat) :
    scanValue fuel cs = scanValue fuel ds := by
  cases fuel with
  | zero => rfl
  | succ fuel => rw [scanValue, scanValue, h]

theorem scanItems_of_skip {cs ds : List Char} (h : skip cs = skip ds) (fuel : Nat) :
    scanItems fuel cs = scanItems fuel ds := by
  cases fuel with
  | zero => rfl
  | succ fuel => rw [scanItems, scanItems, scanValue_of_skip h]

theorem scanMembers_of_skip {cs ds : List Char} (h : skip cs = skip ds) (fuel : Nat) :
    scanMembers fuel cs = scanMembers fuel ds := by
  cases fuel with
  | zero => rfl
  | succ fuel => rw [scanMembers, scanMembers, h]

/-- The value that a whole text denotes. -/
def read? (text : String) : Option Json := do
  let cs := text.toList
  let (v, rest) ← scanValue (2 * cs.length + 2) cs
  if (skip rest).isEmpty then some v else none

end ApiEvolution.Json
