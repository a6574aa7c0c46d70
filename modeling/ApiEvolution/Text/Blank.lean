import ApiEvolution.Text.Ranges

/-!
# Blank characters

The characters of the Unicode property `White_Space`, and the three operations on texts that depend
on them: cutting blanks off both ends, writing each run of blanks as one space, and splitting a text
into its words.

* `isBlank_of_isWhitespace`: every character that the core library calls white space is blank.
-/

namespace ApiEvolution.Text

/-- The blank characters beyond ASCII. -/
def wideBlanks : Ranges :=
  [(0x85, 0x85), (0xA0, 0xA0), (0x1680, 0x1680), (0x2000, 0x200A), (0x2028, 0x2029),
    (0x202F, 0x202F), (0x205F, 0x205F), (0x3000, 0x3000)]

/-- Whether a character has the property `White_Space`. -/
def isBlank (c : Char) : Bool :=
  c = ' ' || (9 ≤ c.toNat && c.toNat ≤ 13) || wideBlanks.holds c

theorem isBlank_of_isWhitespace {c : Char} (h : c.isWhitespace = true) : isBlank c = true := by
  simp only [Char.isWhitespace, Bool.or_eq_true, decide_eq_true_eq] at h
  rcases h with ((rfl | rfl) | rfl) | rfl <;> decide

/-- Drop the leading elements that satisfy a test, and the trailing ones. -/
def stripWhere (p : Char → Bool) (s : List Char) : List Char :=
  ((s.dropWhile p).reverse.dropWhile p).reverse

/-- A text without the blanks at its two ends. -/
def trim (s : List Char) : List Char :=
  stripWhere isBlank s

/-- Each run of blanks becomes one space. -/
def collapse : List Char → List Char
  | [] => []
  | [c] => if isBlank c then [' '] else [c]
  | c :: d :: rest =>
    if isBlank c then
      if isBlank d then collapse (d :: rest) else ' ' :: collapse (d :: rest)
    else c :: collapse (d :: rest)

/-- The maximal blank-free pieces of a text, in order; `word` holds the piece being read, reversed.
-/
def wordsFrom (word : List Char) : List Char → List (List Char)
  | [] => if word.isEmpty then [] else [word.reverse]
  | c :: rest =>
    if isBlank c then
      if word.isEmpty then wordsFrom [] rest else word.reverse :: wordsFrom [] rest
    else wordsFrom (c :: word) rest

/-- The words of a text: its maximal pieces without blanks. -/
def words (s : List Char) : List (List Char) :=
  wordsFrom [] s

end ApiEvolution.Text
