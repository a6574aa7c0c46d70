import Mathlib.Data.List.TakeWhile
import Mathlib.Tactic.Common
import ApiEvolution.TypeText.Braces

/-!
# The first pair of braces stands for itself

Whether quotes count when the first pair of braces is matched depends on the whole text: they do
not if one of them stays open. Still the pair is the same when it is looked for in a part of the
text that begins with it, however much of what comes after it is left (`firstSpan_append`), and so
are its values (`valueSet?_inside`). Where quotes do count, what is before and after the pair does
not matter at all, and every quote that opens in it is closed in it (`standsAlone_of_firstSpan`).

* `balanced_cons`: what one character does to the search does not depend on what comes after it.
* `balanced_take_append`: what comes after the closing brace is not read.
* `exists_closing`: a quote that does not stay open is closed by the next quote of its kind.
* `firstSpan_parts`: a text is put together from what is before, within and after the pair.
-/

namespace ApiEvolution.TypeText

/-! ## The closing brace -/

/-- The quote that is open after a character. A quote with a backslash before it neither opens nor
closes anything. -/
def quoteAfter (heedsQuotes : Bool) (quote : Option Char) (escaped : Bool) (c : Char) :
    Option Char :=
  match quote with
  | some q => if c = q && !escaped then none else some q
  | none => if heedsQuotes && isQuote c && !escaped then some c else none

/-- Reading one character either ends the search, at a closing brace outside of quotes, or leads on
to another state, whatever comes after it. -/
theorem balanced_cons (heedsQuotes : Bool) (depth : Nat) (quote : Option Char) (escaped : Bool)
    (c : Char) :
    ((quote = none ∧ c = '}') ∧
        ∀ rest, balanced heedsQuotes depth quote escaped (c :: rest) = some 1) ∨
      ∃ depth', ∀ rest, balanced heedsQuotes depth quote escaped (c :: rest) =
        (balanced heedsQuotes depth' (quoteAfter heedsQuotes quote escaped c) (c = '\\') rest).map
          (· + 1) := by
  cases quote with
  | some q => exact .inr ⟨depth, fun _ => rfl⟩
  | none =>
    by_cases hopen : c = '{'
    · subst hopen
      exact .inr ⟨depth + 1, fun rest => by simp [balanced, quoteAfter, isQuote]⟩
    by_cases hclose : c = '}'
    · subst hclose
      by_cases hdepth : depth ≤ 1
      · exact .inl ⟨⟨rfl, rfl⟩, fun rest => by simp [balanced, isQuote, hdepth]⟩
      · exact .inr ⟨depth - 1, fun rest => by simp [balanced, quoteAfter, isQuote, hdepth]⟩
    by_cases hquote : (heedsQuotes && isQuote c && !escaped) = true
    · exact .inr ⟨depth, fun rest => by simp only [balanced, quoteAfter, hquote, if_true]⟩
    · exact .inr ⟨depth, fun rest => by
        simp only [balanced, quoteAfter, hquote, hopen, hclose, if_false, Bool.false_eq_true]⟩

section

variable {heedsQuotes : Bool} {depth : Nat} {quote : Option Char} {escaped : Bool}
  {cs : List Char} {n : Nat}

/-- A property of a search that ends, one character at a time: it holds where the search ends, and
whatever a character leads on from has it if that to which it leads has it. -/
@[elab_as_elim]
theorem balanced_induction {P : Nat → Option Char → Bool → List Char → Nat → Prop}
    (h : balanced heedsQuotes depth quote escaped cs = some n)
    (close : ∀ depth escaped rest,
      (∀ rest, balanced heedsQuotes depth none escaped ('}' :: rest) = some 1) →
        P depth none escaped ('}' :: rest) 1)
    (read : ∀ depth quote escaped c rest depth' k,
      (∀ rest, balanced heedsQuotes depth quote escaped (c :: rest) =
        (balanced heedsQuotes depth' (quoteAfter heedsQuotes quote escaped c) (c = '\\') rest).map
          (· + 1)) →
        P depth' (quoteAfter heedsQuotes quote escaped c) (c = '\\') rest k →
          P depth quote escaped (c :: rest) (k + 1)) :
    P depth quote escaped cs n := by
  induction cs generalizing depth quote escaped n with
  | nil => cases h
  | cons c cs ih =>
    rcases balanced_cons heedsQuotes depth quote escaped c with ⟨⟨rfl, rfl⟩, hend⟩ | ⟨depth', hstep⟩
    · rw [hend] at h
      cases h
      exact close depth escaped cs hend
    · rw [hstep] at h
      obtain ⟨k, hk, rfl⟩ := Option.map_eq_some_iff.1 h
      exact read depth quote escaped c cs depth' k hstep (ih hk)

theorem balanced_pos (h : balanced heedsQuotes depth quote escaped cs = some n) : 0 < n := by
  refine balanced_induction (P := fun _ _ _ _ n => 0 < n) h ?_ ?_
  · exact fun _ _ _ _ => Nat.one_pos
  · exact fun _ _ _ _ _ _ k _ _ => Nat.succ_pos k

/-- A pair of braces that is found in a text lies within it. -/
theorem balanced_le (h : balanced heedsQuotes depth quote escaped cs = some n) :
    n ≤ cs.length := by
  refine balanced_induction (P := fun _ _ _ cs n => n ≤ cs.length) h ?_ ?_
  · exact fun _ _ rest _ => Nat.succ_le_succ (Nat.zero_le rest.length)
  · exact fun _ _ _ _ _ _ _ _ ih => Nat.succ_le_succ ih

/-- What is read last is the closing brace. -/
theorem exists_take_eq (h : balanced heedsQuotes depth quote escaped cs = some n) :
    ∃ init, cs.take n = init ++ ['}'] := by
  refine balanced_induction (P := fun _ _ _ cs n => ∃ init, cs.take n = init ++ ['}']) h ?_ ?_
  · exact fun _ _ rest _ => ⟨[], by simp⟩
  · rintro _ _ _ c rest _ k _ ⟨init, hinit⟩
    exact ⟨c :: init, by rw [List.take_succ_cons, hinit, List.cons_append]⟩

/-- What comes after the closing brace is not read. -/
theorem balanced_take_append (h : balanced heedsQuotes depth quote escaped cs = some n)
    (rest : List Char) :
    balanced heedsQuotes depth quote escaped (cs.take n ++ rest) = some n := by
  refine balanced_induction (P := fun depth quote escaped cs n =>
    balanced heedsQuotes depth quote escaped (cs.take n ++ rest) = some n) h ?_ ?_
  · exact fun _ _ _ hend => hend _
  · intro _ _ _ c cs _ k hstep ih
    rw [List.take_succ_cons, List.cons_append, hstep, ih]
    rfl

/-- A closing brace that is found in the front of a text is found in the text. -/
theorem balanced_append (h : balanced heedsQuotes depth quote escaped cs = some n)
    (rest : List Char) : balanced heedsQuotes depth quote escaped (cs ++ rest) = some n := by
  have happend := balanced_take_append h (cs.drop n ++ rest)
  rwa [← List.append_assoc, List.take_append_drop] at happend

/-- No closing brace is found in less of the text. -/
theorem balanced_take_eq_none (h : balanced heedsQuotes depth quote escaped cs = some n) {k : Nat}
    (hk : k < n) : balanced heedsQuotes depth quote escaped (cs.take k) = none := by
  by_contra hfound
  obtain ⟨m, hm⟩ := Option.ne_none_iff_exists'.1 hfound
  have hle : m ≤ k := (balanced_le hm).trans (List.length_take_le k cs)
  have hwhole := balanced_append hm (cs.drop k)
  rw [List.take_append_drop, h, Option.some_inj] at hwhole
  omega

end

/-! ## Quotes -/

/-- The quote that is open after a text, and whether the last character was a backslash. -/
def readQuotes (state : Option Char × Bool) (text : List Char) : Option Char × Bool :=
  text.foldl (fun s c => (quoteAfter true s.1 s.2 c, c = '\\')) state

/-- The quote that is open at the end of a text. -/
def openQuote (text : List Char) : Option Char :=
  (readQuotes (none, false) text).1

/-- Every quote that opens in a text is closed in it: it stays open up to a quote of its kind. -/
def QuotesClosed (text : List Char) : Prop :=
  ∀ before q rest, text = before ++ q :: rest → openQuote before = none →
    openQuote (before ++ [q]) = some q →
      ∃ value after, rest = value ++ q :: after ∧
        (∀ front, front <+: value → openQuote (before ++ q :: front) = some q) ∧
        openQuote (before ++ q :: (value ++ [q])) = none

theorem readQuotes_append (state : Option Char × Bool) (a b : List Char) :
    readQuotes state (a ++ b) = readQuotes (readQuotes state a) b :=
  List.foldl_append

/-- A quote that does not stay open is closed by the next quote of its kind that is not escaped. -/
theorem exists_closing {q : Char} {escaped : Bool} {rest : List Char}
    (h : (readQuotes (some q, escaped) rest).1 = none) :
    ∃ value after, rest = value ++ q :: after ∧
      (∀ front, front <+: value → (readQuotes (some q, escaped) front).1 = some q) ∧
      (readQuotes (some q, escaped) (value ++ [q])).1 = none := by
  induction rest generalizing escaped with
  | nil => cases h
  | cons c rest ih =>
    by_cases hclose : (c = q && !escaped) = true
    · have hcq : c = q := by simp_all
      subst hcq
      refine ⟨[], rest, rfl, fun front hfront => ?_, by simp_all [readQuotes, quoteAfter]⟩
      obtain rfl := List.prefix_nil.1 hfront
      rfl
    · have hstep : ∀ text, readQuotes (some q, escaped) (c :: text) =
          readQuotes (some q, c = '\\') text := by
        intro text
        rw [readQuotes, List.foldl_cons, quoteAfter, if_neg hclose]
        rfl
      rw [hstep] at h
      obtain ⟨value, after, rfl, hopen, hnone⟩ := ih h
      refine ⟨c :: value, after, rfl, fun front hfront => ?_, by rwa [List.cons_append, hstep]⟩
      rcases List.prefix_cons_iff.1 hfront with rfl | ⟨more, rfl, hmore⟩
      · rfl
      · rw [hstep]
        exact hopen more hmore

theorem quotesClosed_of_openQuote {text : List Char} (h : openQuote text = none) :
    QuotesClosed text := by
  rintro before q rest rfl hbefore hopen
  have hstate : readQuotes (none, false) (before ++ [q]) = (some q, decide (q = '\\')) := by
    refine Prod.ext hopen ?_
    rw [readQuotes_append]
    rfl
  have hread : ∀ text, readQuotes (none, false) (before ++ q :: text) =
      readQuotes (some q, q = '\\') text := by
    intro text
    rw [← hstate, ← readQuotes_append, List.append_assoc]
    rfl
  rw [openQuote, hread] at h
  obtain ⟨value, after, hrest, hfronts, hclosed⟩ := exists_closing h
  refine ⟨value, after, hrest, fun front hfront => ?_, by rwa [openQuote, hread]⟩
  rw [openQuote, hread]
  exact hfronts front hfront

/-- Where quotes count, none is open at the closing brace. -/
theorem readQuotes_take {depth : Nat} {quote : Option Char} {escaped : Bool} {cs : List Char}
    {n : Nat} (h : balanced true depth quote escaped cs = some n) :
    (readQuotes (quote, escaped) (cs.take n)).1 = none := by
  refine balanced_induction (P := fun _ quote escaped cs n =>
    (readQuotes (quote, escaped) (cs.take n)).1 = none) h ?_ ?_
  · intro _ escaped rest _
    simp [readQuotes, quoteAfter, isQuote]
  · intro _ _ _ c rest _ k _ ih
    rw [List.take_succ_cons]
    exact ih

/-! ## The first pair of braces -/

/-- The number of characters of the pair of braces with which a text begins. Quotes count unless one
of them stays open. -/
def spanLength? (body : List Char) : Option Nat :=
  (balanced true 0 none false body).or (balanced false 0 none false body)

variable {text body : List Char} {n : Nat} {s : Span}

theorem spanLength?_take_append (h : spanLength? body = some n) {rest : List Char}
    (hrest : rest <+: body.drop n) : spanLength? (body.take n ++ rest) = some n := by
  obtain ⟨more, hmore⟩ := hrest
  rcases Option.or_eq_some_iff.1 h with hquotes | ⟨hopen, hblind⟩
  · rw [spanLength?, balanced_take_append hquotes]
    rfl
  · -- a quote that stays open in the text stays open in its front
    have hfront : balanced true 0 none false (body.take n ++ rest) = none := by
      by_contra hfound
      obtain ⟨k, hk⟩ := Option.ne_none_iff_exists'.1 hfound
      have hwhole := balanced_append hk more
      rw [List.append_assoc, hmore, List.take_append_drop, hopen] at hwhole
      cases hwhole
    rw [spanLength?, hfront, balanced_take_append hblind]
    rfl

theorem spanLength?_bounds (h : spanLength? body = some n) : 0 < n ∧ n ≤ body.length := by
  rcases Option.or_eq_some_iff.1 h with hquotes | ⟨-, hblind⟩
  · exact ⟨balanced_pos hquotes, balanced_le hquotes⟩
  · exact ⟨balanced_pos hblind, balanced_le hblind⟩

theorem firstSpan_eq_some_iff : firstSpan text = some s ↔
    ∃ n, spanLength? (text.dropWhile (· ≠ '{')) = some n ∧
      s = ⟨text.takeWhile (· ≠ '{'), (text.dropWhile (· ≠ '{')).take n,
        (text.dropWhile (· ≠ '{')).drop n⟩ := by
  rw [firstSpan, ← spanLength?]
  cases text.dropWhile (· ≠ '{') with
  | nil => simp [spanLength?, balanced]
  | cons c rest =>
    rw [if_neg (by simp), Option.map_eq_some_iff]
    exact exists_congr fun n => and_congr_right fun _ => eq_comm

/-- A text is put together from what is before, within and after the first pair of braces, which
begins with the first opening brace. -/
theorem firstSpan_parts (h : firstSpan text = some s) :
    text = s.before ++ (s.inside ++ s.after) ∧ '{' ∉ s.before ∧ s.inside.head? = some '{' := by
  obtain ⟨n, hn, rfl⟩ := firstSpan_eq_some_iff.1 h
  refine ⟨by simp, fun hmem => ?_, ?_⟩
  · simpa using List.mem_takeWhile_imp hmem
  · have hfirst := List.head?_dropWhile_not (· ≠ '{') text
    obtain ⟨hpos, hle⟩ := spanLength?_bounds hn
    dsimp only
    revert hfirst hle
    cases text.dropWhile (· ≠ '{') with
    | nil =>
      intro _ hle
      exact absurd hpos (Nat.not_lt.2 hle)
    | cons c rest =>
      intro hfirst _
      obtain ⟨k, rfl⟩ : ∃ k, n = k + 1 := ⟨n - 1, by omega⟩
      simpa using hfirst

theorem spanLength?_inside (h : firstSpan text = some s) :
    spanLength? (s.inside ++ s.after) = some s.inside.length := by
  obtain ⟨n, hn, rfl⟩ := firstSpan_eq_some_iff.1 h
  obtain ⟨-, hle⟩ := spanLength?_bounds hn
  rw [List.take_append_drop, hn, List.length_take_of_le hle]

/-- A pair of braces is found where a text has its first opening brace. -/
theorem firstSpan_of_spanLength? {before inside after : List Char} (hbefore : '{' ∉ before)
    (hhead : inside.head? = some '{')
    (hlength : spanLength? (inside ++ after) = some inside.length) :
    firstSpan (before ++ (inside ++ after)) = some ⟨before, inside, after⟩ := by
  have hkept : ∀ c ∈ before, decide (c ≠ '{') = true := fun c hc =>
    decide_eq_true fun heq : c = '{' => hbefore (heq ▸ hc)
  obtain ⟨more, rfl⟩ : ∃ more, inside = '{' :: more := List.head?_eq_some_iff.1 hhead
  have hbody : ('{' :: more ++ after).dropWhile (· ≠ '{') = '{' :: more ++ after ∧
      ('{' :: more ++ after).takeWhile (· ≠ '{') = [] := by simp
  rw [firstSpan_eq_some_iff, List.dropWhile_append_of_pos hkept,
    List.takeWhile_append_of_pos hkept, hbody.1, hbody.2]
  exact ⟨_, hlength, by simp⟩

/-- The first pair of braces is found again in a text that begins with it, however much is left of
what comes after it. -/
theorem firstSpan_append (h : firstSpan text = some s) {rest : List Char}
    (hrest : rest <+: s.after) : firstSpan (s.inside ++ rest) = some ⟨[], s.inside, rest⟩ := by
  obtain ⟨-, -, hhead⟩ := firstSpan_parts h
  have hprefix : rest <+: (s.inside ++ s.after).drop s.inside.length := by
    rwa [List.drop_left]
  have hlength := spanLength?_take_append (spanLength?_inside h) hprefix
  rw [List.take_left] at hlength
  exact firstSpan_of_spanLength? List.not_mem_nil hhead hlength

/-- The values of a text are those of its first pair of braces. -/
theorem valueSet?_inside (h : firstSpan text = some s) : valueSet? s.inside = valueSet? text := by
  have halone := firstSpan_append h List.nil_prefix
  rw [List.append_nil] at halone
  rw [valueSet?, valueSet?, halone, h]
  rfl

/-! ## What the pair says of itself -/

@[simp] theorem byteLength_cons (c : Char) (text : List Char) :
    byteLength (c :: text) = c.utf8Size + byteLength text := rfl

theorem byteLength_append (a b : List Char) :
    byteLength (a ++ b) = byteLength a + byteLength b := by
  induction a with
  | nil => exact (Nat.zero_add _).symm
  | cons c a ih => rw [List.cons_append, byteLength_cons, byteLength_cons, ih, Nat.add_assoc]

/-- A pair of braces begins and ends with one. -/
theorem inside_eq (h : firstSpan text = some s) : s.inside = '{' :: (s.body ++ ['}']) := by
  obtain ⟨-, -, hhead⟩ := firstSpan_parts h
  have hlast : ∃ init, s.inside = init ++ ['}'] := by
    obtain ⟨n, hn, rfl⟩ := firstSpan_eq_some_iff.1 h
    rcases Option.or_eq_some_iff.1 hn with hquotes | ⟨-, hblind⟩
    · exact exists_take_eq hquotes
    · exact exists_take_eq hblind
  obtain ⟨init, hinit⟩ := hlast
  rw [hinit] at hhead
  cases init with
  | nil => cases hhead
  | cons c body =>
    obtain rfl : c = '{' := Option.some.inj hhead
    rw [Span.body, hinit, List.cons_append, List.drop_one, List.tail_cons, List.dropLast_concat]

/-- Quotes count when the braces are matched. -/
def Span.HeedsQuotes (s : Span) : Prop :=
  ∃ n, balanced true 0 none false (s.inside ++ s.after) = some n

/-- The pair is as long as the search for its end tells. -/
theorem eq_length_inside (h : firstSpan text = some s) {n : Nat}
    (hn : balanced true 0 none false (s.inside ++ s.after) = some n) : n = s.inside.length := by
  have hlength := spanLength?_inside h
  rw [spanLength?, hn] at hlength
  exact Option.some.inj hlength

/-- Quotes count in the pair alone if they count in the text. -/
theorem balanced_inside (h : firstSpan text = some s) :
    balanced true 0 none false s.inside = balanced true 0 none false (s.inside ++ s.after) := by
  cases hwhole : balanced true 0 none false (s.inside ++ s.after) with
  | some n =>
    have hfront := balanced_take_append hwhole []
    rwa [eq_length_inside h hwhole, List.take_left, List.append_nil,
      ← eq_length_inside h hwhole] at hfront
  | none =>
    by_contra hfound
    obtain ⟨n, hn⟩ := Option.ne_none_iff_exists'.1 hfound
    rw [balanced_append hn s.after] at hwhole
    cases hwhole

/-- Where quotes count, the pair is found between whatever is before it and after it. -/
theorem firstSpan_around (h : firstSpan text = some s) (hquotes : s.HeedsQuotes)
    {before : List Char} (hbefore : '{' ∉ before) (after : List Char) :
    firstSpan (before ++ (s.inside ++ after)) = some ⟨before, s.inside, after⟩ := by
  obtain ⟨n, hn⟩ := hquotes
  obtain ⟨-, -, hhead⟩ := firstSpan_parts h
  have hfront := balanced_take_append hn after
  rw [eq_length_inside h hn, List.take_left] at hfront
  refine firstSpan_of_spanLength? hbefore hhead ?_
  rw [spanLength?, hfront]
  rfl

/-- What is said of the first pair of braces in a text. -/
structure StandsAlone (text : List Char) (s : Span) : Prop where
  /-- It begins with the first opening brace. -/
  text_eq : text = s.before ++ (s.inside ++ s.after)
  brace_not_mem : '{' ∉ s.before
  /-- It takes two bytes at least, and it ends with a closing brace. -/
  inside_eq : s.inside = '{' :: (s.body ++ ['}'])
  start_add_two_le : s.start + 2 ≤ s.stop
  /-- It is all that is found when it is searched itself, and so it has the same values. -/
  firstSpan_inside : ∃ t, firstSpan s.inside = some t ∧ t.inside = s.inside ∧ t.start = 0 ∧
    t.stop = s.stop - s.start
  valueSet?_inside : valueSet? text = valueSet? s.inside
  /-- Quotes count in this search if they count in that of the text. -/
  balanced_inside : balanced true 0 none false s.inside =
    balanced true 0 none false (s.inside ++ s.after)
  /-- Where they count, every quote that opens in it is closed in it. -/
  quotesClosed : s.HeedsQuotes → QuotesClosed s.inside
  /-- Where they count, it is found whatever is before it and after it. -/
  firstSpan_around : s.HeedsQuotes → ∀ before after, '{' ∉ before →
    firstSpan (before ++ (s.inside ++ after)) = some ⟨before, s.inside, after⟩
  /-- Where they count, nothing shorter that begins at its place has such a pair. -/
  shorter : s.HeedsQuotes → ∀ k < s.inside.length,
    balanced true 0 none false ((s.inside ++ s.after).take k) = none

/-- The first pair of braces that is found in a text stands for itself. -/
theorem standsAlone_of_firstSpan (h : firstSpan text = some s) : StandsAlone text s := by
  obtain ⟨htext, hbefore, -⟩ := firstSpan_parts h
  have hinside := inside_eq h
  have halone := firstSpan_append h List.nil_prefix
  rw [List.append_nil] at halone
  refine ⟨htext, hbefore, hinside, ?_, ⟨_, halone, rfl, rfl, ?_⟩, (valueSet?_inside h).symm,
    balanced_inside h, ?_, fun hquotes _ after hfree => firstSpan_around h hquotes hfree after, ?_⟩
  · have hbraces : '{'.utf8Size = 1 ∧ '}'.utf8Size = 1 := by decide
    rw [Span.stop, hinside, byteLength_cons, byteLength_append, byteLength_cons, hbraces.1,
      hbraces.2]
    omega
  · simp [Span.stop, Span.start, byteLength]
  · rintro ⟨n, hn⟩
    have hclosed := readQuotes_take hn
    rw [eq_length_inside h hn, List.take_left] at hclosed
    exact quotesClosed_of_openQuote hclosed
  · rintro ⟨n, hn⟩ k hk
    exact balanced_take_eq_none hn (eq_length_inside h hn ▸ hk)

/-- Two pairs of braces, the first of which has braces and an escaped quote in its values. -/
def twoPairs : List Char :=
  "one of \x7b'a\x7d\\'', \"\x7b\"\x7d or \x7b'b'\x7d".toList

theorem standsAlone_of_firstSpan_twoPairs :
    ∃ s, firstSpan twoPairs = some s ∧ s.HeedsQuotes ∧ StandsAlone twoPairs s := by
  have hspan : firstSpan twoPairs = some ⟨"one of ".toList,
      "\x7b'a\x7d\\'', \"\x7b\"\x7d".toList, " or \x7b'b'\x7d".toList⟩ := by decide
  exact ⟨_, hspan, ⟨13, by decide⟩, standsAlone_of_firstSpan hspan⟩

/-- Where a quote stays open, quotes do not count. -/
example : firstSpan "\x7bit's\x7d".toList = some ⟨[], "\x7bit's\x7d".toList, []⟩ := by decide

end ApiEvolution.TypeText
