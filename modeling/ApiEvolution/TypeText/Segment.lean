import ApiEvolution.Text.Blank

/-!
# The segments of a type text

A type text such as `int, str or list[int, str]` lists alternatives. It is cut at each comma and at
each `or` between single spaces, but not within brackets or quotes. A `Cursor` is what has to be
known about the text read so far to tell whether a separator counts.

* `rawPieces` are the pieces between the separators, as they stand in the text.
* `segments` are the pieces without the blanks and backquotes around them, the empty ones left out.
-/

namespace ApiEvolution.TypeText

/-- The backquote. -/
def backquote : Char := Char.ofNat 96

/-- Where a reader stands: how many brackets are open, which quote is open, and whether the last
character was a backslash. -/
structure Cursor where
  depth : Nat
  quote : Option Char
  escaped : Bool
deriving DecidableEq, Repr

/-- Outside all brackets and quotes. -/
def Cursor.start : Cursor := ⟨0, none, false⟩

/-- Whether a separator would count here. -/
def Cursor.isOutside (s : Cursor) : Bool :=
  s.depth = 0 && s.quote.isNone

/-- The cursor after one more character that is no separator. Any quote opens a quoted text, which
ends with the next quote of its kind that has no backslash before it. A closing bracket without an
opening one changes nothing. -/
def Cursor.step (s : Cursor) (c : Char) : Cursor :=
  match s.quote with
  | some q => ⟨s.depth, if c = q && !s.escaped then none else some q, c = '\\'⟩
  | none =>
    if c = '"' || c = '\'' then ⟨s.depth, some c, false⟩
    else if c = '(' || c = '[' || c = '{' then ⟨s.depth + 1, none, false⟩
    else if c = ')' || c = ']' || c = '}' then ⟨s.depth - 1, none, false⟩
    else ⟨s.depth, none, c = '\\'⟩

/-- The pieces of a text between its separators. `piece` is what has been read of the current one,
last character first. -/
def piecesFrom (s : Cursor) (piece : List Char) : List Char → List (List Char)
  | [] => [piece.reverse]
  | ',' :: rest =>
    if s.isOutside then piece.reverse :: piecesFrom .start [] rest
    else piecesFrom (s.step ',') (',' :: piece) rest
  | ' ' :: 'o' :: 'r' :: ' ' :: rest =>
    if s.isOutside then piece.reverse :: piecesFrom .start [] rest
    else piecesFrom (s.step ' ') (' ' :: piece) ('o' :: 'r' :: ' ' :: rest)
  | c :: rest => piecesFrom (s.step c) (c :: piece) rest
termination_by text => text.length

/-- The pieces of a text between its separators. -/
def rawPieces (text : List Char) : List (List Char) :=
  piecesFrom .start [] text

/-- A piece without blanks, then backquotes, then blanks around it. -/
def clean (piece : List Char) : List Char :=
  Text.trim (Text.stripWhere (· = backquote) (Text.trim piece))

/-- The alternatives that a type text lists. -/
def segments (text : List Char) : List (List Char) :=
  ((rawPieces text).map clean).filter fun s => !s.isEmpty

end ApiEvolution.TypeText
