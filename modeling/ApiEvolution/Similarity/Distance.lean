import ApiEvolution.SortedSet
import ApiEvolution.Text.Blank

/-!
# Distances between sequences and overlap of sets

* `editDistance` is the least number of insertions, deletions and replacements of single items that
  turn one sequence into another, computed row by row.
* `sequenceSimilarity` relates it to the longer of two sequences.
* `textSimilarity` compares free texts word by word, `nameSimilarity` names character by character.
* `jaccard` relates the intersection of two sets to their union.
-/

namespace ApiEvolution.Similarity

variable {α : Type}

/-- The rest of a row of distances. The row above stands against `row`, its first entry being the
one up and to the left; `left` is the entry before. -/
def nextRowFrom [DecidableEq α] (x : α) : List α → List Nat → Nat → List Nat
  | y :: ys, diagonal :: above :: row, left =>
    let entry := min (diagonal + if x = y then 0 else 1) (min (left + 1) (above + 1))
    entry :: nextRowFrom x ys (above :: row) entry
  | _, _, _ => []

/-- The distances from a sequence with one more item to the prefixes of another, given those from
the sequence without it. -/
def nextRow [DecidableEq α] (x : α) (ys : List α) (row : List Nat) : List Nat :=
  let first := row.headD 0 + 1
  first :: nextRowFrom x ys row first

/-- The distances from a sequence to the prefixes of another, the shortest first. -/
def distanceRow [DecidableEq α] (xs ys : List α) : List Nat :=
  xs.foldl (fun row x => nextRow x ys row) (List.range (ys.length + 1))

/-- The edit distance between two sequences. -/
def editDistance [DecidableEq α] (xs ys : List α) : Nat :=
  (distanceRow xs ys).getLastD 0

/-- One less the edit distance in proportion to the longer sequence; two empty sequences are alike.
-/
def sequenceSimilarity [DecidableEq α] (xs ys : List α) : Float :=
  let longest := max xs.length ys.length
  if longest = 0 then 1 else 1 - Float.ofNat (editDistance xs ys) / Float.ofNat longest

/-- How alike two names are, character by character. -/
def nameSimilarity (a b : String) : Float :=
  if a = b then 1 else sequenceSimilarity a.toList b.toList

/-- How alike two free texts are, word by word. -/
def textSimilarity (a b : String) : Float :=
  if a = b then 1 else sequenceSimilarity (Text.words a.toList) (Text.words b.toList)

/-- The elements of one set that are in another, by an equality test. -/
def intersection (same : α → α → Bool) (a b : List α) : List α :=
  a.filter fun x => b.any (same x)

/-- The size of the intersection of two sets in proportion to that of their union; two empty sets
are alike. -/
def jaccard (same : α → α → Bool) (a b : List α) : Float :=
  let common := (intersection same a b).length
  let all := a.length + b.length - common
  if all = 0 then 1 else Float.ofNat common / Float.ofNat all

/-- The overlap of the sets of texts in two lists. -/
def textOverlap (a b : List String) : Float :=
  jaccard (fun x y => x = y) (SortedSet.ofTexts a) (SortedSet.ofTexts b)

end ApiEvolution.Similarity
