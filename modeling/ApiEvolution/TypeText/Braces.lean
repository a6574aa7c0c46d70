import ApiEvolution.SortedSet

/-!
# Value sets in braces

A type text may list the values of a parameter: quoted texts between braces. `firstSpan` finds the
first pair of braces, where braces within quoted values do not count unless a quote stays open;
`quotedValues` collects the values. In a value, a quote with a backslash before it does not end the
value and loses the backslash.
-/

namespace ApiEvolution.TypeText

/-- Whether a character is a quote. -/
def isQuote (c : Char) : Bool :=
  c = '"' || c = '\''

/-- The number of characters up to the closing brace that brings the count of open braces back to
zero. `escaped` tells that the last character was a backslash. -/
def balanced (heedsQuotes : Bool) (depth : Nat) (quote : Option Char) (escaped : Bool) :
    List Char → Option Nat
  | [] => none
  | c :: rest =>
    let next := c = '\\'
    match quote with
    | some q =>
      let quote := if c = q && !escaped then none else some q
      (balanced heedsQuotes depth quote next rest).map (· + 1)
    | none =>
      if heedsQuotes && isQuote c && !escaped then
        (balanced heedsQuotes depth (some c) next rest).map (· + 1)
      else if c = '{' then (balanced heedsQuotes (depth + 1) none next rest).map (· + 1)
      else if c = '}' then
        if depth ≤ 1 then some 1 else (balanced heedsQuotes (depth - 1) none next rest).map (· + 1)
      else (balanced heedsQuotes depth none next rest).map (· + 1)

/-- A stretch of a text: what is before it, the stretch itself and what is after it. -/
structure Span where
  before : List Char
  inside : List Char
  after : List Char
deriving DecidableEq, Repr

/-- The number of bytes that a text takes in UTF-8. -/
def byteLength (text : List Char) : Nat :=
  (text.map Char.utf8Size).foldr (· + ·) 0

/-- Where a stretch starts, in bytes. -/
def Span.start (s : Span) : Nat :=
  byteLength s.before

/-- Where a stretch ends, in bytes. -/
def Span.stop (s : Span) : Nat :=
  s.start + byteLength s.inside

/-- The first pair of braces in a text, with what it encloses. If a quoted value within never ends,
the braces are matched without regard to quotes. -/
def firstSpan (text : List Char) : Option Span :=
  let before := text.takeWhile (· ≠ '{')
  let body := text.dropWhile (· ≠ '{')
  if body.isEmpty then none
  else
    ((balanced true 0 none false body).or (balanced false 0 none false body)).map fun n =>
      ⟨before, body.take n, body.drop n⟩

/-- Drop the backslash before each quote of one kind. -/
def unescape (q : Char) : List Char → List Char
  | [] => []
  | [c] => [c]
  | c :: d :: rest =>
    if c = '\\' ∧ d = q then q :: unescape q rest else c :: unescape q (d :: rest)

/-- The quoted values in a text, in order. `value` is what has been read of the current one, last
character first. A value that never ends does not count. -/
def valuesFrom (quote : Option Char) (escaped : Bool) (value : List Char) :
    List Char → List (List Char)
  | [] => []
  | c :: rest =>
    let next := c = '\\'
    match quote with
    | some q =>
      if c = q && !escaped then
        unescape '\'' (unescape '"' value.reverse) :: valuesFrom none next [] rest
      else valuesFrom (some q) next (c :: value) rest
    | none =>
      if isQuote c && !escaped then valuesFrom (some c) next value rest
      else valuesFrom none next value rest

/-- The set of the quoted values in a text. -/
def quotedValues (text : List Char) : List String :=
  SortedSet.ofTexts ((valuesFrom none false [] text).map String.ofList)

/-- What is between the braces of a stretch that starts and ends with one. -/
def Span.body (s : Span) : List Char :=
  (s.inside.drop 1).dropLast

/-- The values in the first pair of braces of a text; there may be none, and there may be no braces.
-/
def valueSet? (text : List Char) : Option (List String) :=
  (firstSpan text).map fun s => quotedValues s.body

end ApiEvolution.TypeText
