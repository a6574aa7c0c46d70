/-!
# Finite sets as sorted lists

A finite set over a type with an order is kept as its elements in ascending order without
repetition, which is also the order in which it is listed.

* `mem_insert` and `mem_ofList`: the elements are those that were put in.
-/

namespace ApiEvolution.SortedSet

variable {α : Type}

/-- Put an element at its place, unless it is there already. -/
def insert (cmp : α → α → Ordering) (a : α) : List α → List α
  | [] => [a]
  | b :: rest =>
    match cmp a b with
    | .lt => a :: b :: rest
    | .eq => b :: rest
    | .gt => b :: insert cmp a rest

/-- The set of the elements of a list. -/
def ofList (cmp : α → α → Ordering) (xs : List α) : List α :=
  xs.foldl (fun set a => insert cmp a set) []

/-- The set of the texts in a list, in the order of their code points. -/
def ofTexts (texts : List String) : List String :=
  ofList compare texts

theorem mem_insert {cmp : α → α → Ordering} (h : ∀ a b, cmp a b = .eq → a = b) {x a : α}
    {set : List α} : x ∈ insert cmp a set ↔ x = a ∨ x ∈ set := by
  induction set with
  | nil => simp [insert]
  | cons b rest ih =>
    unfold insert
    split
    · simp
    · next hab => cases h a b hab; simp
    · simp only [List.mem_cons, ih]
      constructor
      · rintro (rfl | rfl | hx) <;> simp_all
      · rintro (rfl | rfl | hx) <;> simp_all

theorem mem_foldl_insert {cmp : α → α → Ordering} (h : ∀ a b, cmp a b = .eq → a = b) {x : α}
    (xs set : List α) :
    x ∈ xs.foldl (fun set a => insert cmp a set) set ↔ x ∈ set ∨ x ∈ xs := by
  induction xs generalizing set with
  | nil => simp
  | cons a rest ih =>
    rw [List.foldl_cons, ih, mem_insert h, List.mem_cons]
    constructor
    · rintro ((rfl | hx) | hx) <;> simp_all
    · rintro (hx | rfl | hx) <;> simp_all

theorem mem_ofList {cmp : α → α → Ordering} (h : ∀ a b, cmp a b = .eq → a = b) {x : α}
    {xs : List α} : x ∈ ofList cmp xs ↔ x ∈ xs := by
  simp [ofList, mem_foldl_insert h]

end ApiEvolution.SortedSet
