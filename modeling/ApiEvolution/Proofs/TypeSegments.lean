import Mathlib.Data.List.Chain
import Mathlib.Data.List.TakeWhile
import Mathlib.Tactic.Common
import ApiEvolution.TypeText.Segment

/-!
# Cutting a joined text

Texts that are joined by `or` are cut into these texts again, if in each of them brackets and quotes
are closed in the end and there is no separator outside of them (`segments_intercalate`). Texts
without blanks at their ends and without two blanks in a row are not changed before they are cut
(`Tidy.trim_eq`, `Tidy.collapse_eq`).

What a text does to the cursor of a reader is put together from what its parts do, by the relation
`Passes`.
-/

namespace ApiEvolution

/-! ## Tidy texts -/

namespace Text

variable {s t : List Char}

theorem dropWhile_eq_self {p : Char → Bool} (h : ∀ c ∈ s.head?, p c = false) :
    s.dropWhile p = s := by
  cases s with
  | nil => rfl
  | cons c rest => rw [List.dropWhile_cons_of_neg (by simp [h c rfl])]

theorem stripWhere_eq_self {p : Char → Bool} (hhead : ∀ c ∈ s.head?, p c = false)
    (hlast : ∀ c ∈ s.getLast?, p c = false) : stripWhere p s = s := by
  have hreverse : ∀ c ∈ s.reverse.head?, p c = false := by
    rw [List.head?_reverse]
    exact hlast
  rw [stripWhere, dropWhile_eq_self hhead, dropWhile_eq_self hreverse, List.reverse_reverse]

/-- A text without the leading and the trailing characters of a class. -/
structure Strips (p : Char → Bool) (s t : List Char) : Prop where
  around : ∃ before after, s = before ++ (t ++ after) ∧ ∀ c ∈ before ++ after, p c = true
  head : ∀ c ∈ t.head?, p c = false
  last : ∀ c ∈ t.getLast?, p c = false

theorem head?_dropWhile {p : Char → Bool} :
    ∀ c ∈ (s.dropWhile p).head?, p c = false := by
  intro c hc
  have hnot := List.head?_dropWhile_not p s
  rw [Option.mem_def.1 hc] at hnot
  exact hnot

theorem strips_stripWhere (p : Char → Bool) (s : List Char) : Strips p s (stripWhere p s) := by
  -- the leading characters are dropped first, the trailing ones from what is left
  have hbefore := List.takeWhile_append_dropWhile (p := p) (l := s)
  have hafter := List.takeWhile_append_dropWhile (p := p) (l := (s.dropWhile p).reverse)
  have hleft : s.dropWhile p =
      stripWhere p s ++ ((s.dropWhile p).reverse.takeWhile p).reverse := by
    rw [stripWhere, ← List.reverse_append, hafter, List.reverse_reverse]
  refine ⟨⟨s.takeWhile p, ((s.dropWhile p).reverse.takeWhile p).reverse, ?_, ?_⟩, ?_, ?_⟩
  · rw [← hleft, hbefore]
  · intro c hc
    rw [List.mem_append, List.mem_reverse] at hc
    exact hc.elim List.mem_takeWhile_imp List.mem_takeWhile_imp
  · intro c hc
    refine head?_dropWhile (s := s) c ?_
    rw [hleft, List.head?_append, Option.mem_def.1 hc]
    rfl
  · rw [stripWhere, List.getLast?_reverse]
    exact head?_dropWhile

theorem isBlank_of_printed {c : Char} (hlow : 33 ≤ c.toNat) (hhigh : c.toNat ≤ 126) :
    isBlank c = false := by
  have hspace : c ≠ ' ' := by
    rintro rfl
    exact absurd hlow (by decide)
  simp [isBlank, hspace, wideBlanks, Ranges.holds]
  omega

/-- The blanks of a text are single spaces between other characters. -/
structure Tidy (s : List Char) : Prop where
  head : ∃ c ∈ s.head?, isBlank c = false
  last : ∃ c ∈ s.getLast?, isBlank c = false
  space : ∀ c ∈ s, isBlank c = true → c = ' '
  single : s.IsChain fun c d => isBlank c = true → isBlank d = false

theorem tidy_iff : Tidy s ↔
    (s.head?.any fun c => isBlank c = false) = true ∧
      (s.getLast?.any fun c => isBlank c = false) = true ∧
      (s.all fun c => isBlank c = true → c = ' ') = true ∧
      s.IsChain fun c d => isBlank c = true → isBlank d = false := by
  simp only [Option.any_eq_true, List.all_eq_true, decide_eq_true_eq]
  exact ⟨fun h => ⟨h.head, h.last, h.space, h.single⟩,
    fun ⟨hhead, hlast, hspace, hsingle⟩ => ⟨hhead, hlast, hspace, hsingle⟩⟩

instance (s : List Char) : Decidable (Tidy s) :=
  decidable_of_iff _ tidy_iff.symm

namespace Tidy

theorem ne_nil (h : Tidy s) : s ≠ [] := by
  obtain ⟨c, hc, -⟩ := h.head
  rintro rfl
  cases hc

theorem of_forall (hne : s ≠ []) (h : ∀ c ∈ s, isBlank c = false) : Tidy s where
  head := ⟨s.head hne, List.head?_eq_some_head hne, h _ (List.head_mem hne)⟩
  last := ⟨s.getLast hne, List.getLast?_eq_some_getLast hne, h _ (List.getLast_mem hne)⟩
  space c hc hblank := by rw [h c hc] at hblank; cases hblank
  single := List.Pairwise.isChain <| List.pairwise_of_forall_mem_list fun _ _ d hd _ => h d hd

theorem singleton {c : Char} (h : isBlank c = false) : Tidy [c] :=
  of_forall (List.cons_ne_nil c []) (by simpa using h)

theorem append (hs : Tidy s) (ht : Tidy t) : Tidy (s ++ t) where
  head := by
    rw [List.head?_append_of_ne_nil _ hs.ne_nil]
    exact hs.head
  last := by
    rw [List.getLast?_append_of_ne_nil _ ht.ne_nil]
    exact ht.last
  space c hc := (List.mem_append.1 hc).elim (hs.space c) (ht.space c)
  single := by
    refine List.isChain_append.2 ⟨hs.single, ht.single, fun c hc d _ hblank => ?_⟩
    obtain ⟨last, hlast, hnot⟩ := hs.last
    rw [Option.mem_unique hc hlast, hnot] at hblank
    cases hblank

/-- Two tidy texts with a space between them are a tidy text. -/
theorem spaced (hs : Tidy s) (ht : Tidy t) : Tidy (s ++ ' ' :: t) where
  head := by
    rw [List.head?_append_of_ne_nil _ hs.ne_nil]
    exact hs.head
  last := by
    rw [List.getLast?_append_of_ne_nil _ (List.cons_ne_nil _ _),
      List.getLast?_cons_of_ne_nil ht.ne_nil]
    exact ht.last
  space c hc hblank := by
    rcases List.mem_append.1 hc with hc | hc
    · exact hs.space c hc hblank
    rcases List.mem_cons.1 hc with rfl | hc
    · rfl
    · exact ht.space c hc hblank
  single := by
    refine List.isChain_append.2 ⟨hs.single, List.isChain_cons.2 ⟨fun d hd _ => ?_, ht.single⟩,
      fun c hc d _ hblank => ?_⟩
    · obtain ⟨head, hhead, hnot⟩ := ht.head
      rw [Option.mem_unique hd hhead, hnot]
    · obtain ⟨last, hlast, hnot⟩ := hs.last
      rw [Option.mem_unique hc hlast, hnot] at hblank
      cases hblank

theorem trim_eq (h : Tidy s) : trim s = s := by
  obtain ⟨c, hc, hhead⟩ := h.head
  obtain ⟨d, hd, hlast⟩ := h.last
  exact stripWhere_eq_self (fun b hb => by rw [Option.mem_unique hb hc, hhead])
    fun b hb => by rw [Option.mem_unique hb hd, hlast]

theorem collapse_eq (h : Tidy s) : collapse s = s := by
  obtain ⟨-, -, hspace, hsingle⟩ := h
  induction s with
  | nil => rfl
  | cons c rest ih =>
    obtain ⟨hnext, hrest⟩ := List.isChain_cons.1 hsingle
    have hcollapse := ih (fun d hd => hspace d (List.mem_cons_of_mem c hd)) hrest
    have hspace := hspace c List.mem_cons_self
    cases rest with
    | nil =>
      by_cases hblank : isBlank c = true <;> simp_all [collapse]
    | cons d more =>
      have hd := hnext d rfl
      by_cases hblank : isBlank c = true <;> simp_all [collapse]

end Tidy

/-! ## Joined texts -/

/-- A property of a joined text, one part of it at a time. -/
theorem intercalate_map_induction {α : Type} {f : α → List Char} {sep : List Char}
    {P : List α → List Char → Prop} {xs : List α} (nil : P [] []) (one : ∀ x ∈ xs, P [x] (f x))
    (more : ∀ x ∈ xs, ∀ y ys joined, P (y :: ys) joined →
      P (x :: y :: ys) (f x ++ (sep ++ joined))) :
    P xs (sep.intercalate (xs.map f)) := by
  induction xs with
  | nil => exact nil
  | cons x xs ih =>
    obtain ⟨hx, hxs⟩ := List.forall_mem_cons.1 one
    obtain ⟨hmore, hmores⟩ := List.forall_mem_cons.1 more
    cases xs with
    | nil =>
      rw [List.map_singleton, List.intercalate_singleton]
      exact hx
    | cons y ys =>
      rw [List.map_cons, List.map_cons, List.intercalate_cons_cons, List.append_assoc]
      exact hmore y ys _ (ih hxs hmores)

theorem intercalate_induction {sep : List Char} {P : List (List Char) → List Char → Prop}
    {texts : List (List Char)} (nil : P [] []) (one : ∀ t ∈ texts, P [t] t)
    (more : ∀ t ∈ texts, ∀ u rest joined, P (u :: rest) joined →
      P (t :: u :: rest) (t ++ (sep ++ joined))) :
    P texts (sep.intercalate texts) := by
  simpa using intercalate_map_induction (f := id) nil one more

theorem mem_intercalate {sep : List Char} {texts : List (List Char)} {c : Char}
    (h : c ∈ sep.intercalate texts) : c ∈ sep ∨ ∃ t ∈ texts, c ∈ t := by
  refine intercalate_induction
    (P := fun _ joined => c ∈ joined → c ∈ sep ∨ ∃ t ∈ texts, c ∈ t) (by simp) ?_ ?_ h
  · exact fun t ht hmem => .inr ⟨t, ht, hmem⟩
  · intro t ht _ _ joined ih hmem
    rw [List.mem_append, List.mem_append] at hmem
    rcases hmem with hmem | hsep | hrest
    · exact .inr ⟨t, ht, hmem⟩
    · exact .inl hsep
    · exact ih hrest

theorem tidy_intercalate {sep : List Char} (hsep : Tidy sep) {texts : List (List Char)}
    (hne : texts ≠ []) (h : ∀ t ∈ texts, Tidy t) :
    Tidy ((' ' :: sep ++ [' ']).intercalate texts) := by
  refine intercalate_induction (P := fun texts joined => texts ≠ [] → Tidy joined) ?_ ?_ ?_ hne
  · exact fun hnil => absurd rfl hnil
  · exact fun t ht _ => h t ht
  · intro t ht u rest joined ih _
    rw [List.append_assoc, List.cons_append]
    exact (h t ht).spaced (hsep.spaced (ih (List.cons_ne_nil u rest)))

end Text

namespace TypeText

/-! ## What a text does to the cursor -/

/-- Reading a text leads from one cursor to another, and none of its characters separates. A space
outside brackets and quotes needs a character after it that does not begin an `or`. -/
inductive Passes : Cursor → List Char → Cursor → Prop
  | nil (s : Cursor) : Passes s [] s
  | cons {s s' : Cursor} {c : Char} {rest : List Char}
      (hfree : s.isOutside = true → c ≠ ',' ∧ (c = ' ' → ∃ d ∈ rest.head?, d ≠ 'o'))
      (hrest : Passes (s.step c) rest s') : Passes s (c :: rest) s'

theorem Passes.append {s s' s'' : Cursor} {a b : List Char} (ha : Passes s a s')
    (hb : Passes s' b s'') : Passes s (a ++ b) s'' := by
  induction ha with
  | nil => exact hb
  | @cons s s' c rest hfree _ ih =>
    refine .cons (fun houtside => ?_) (ih hb)
    obtain ⟨hcomma, hspace⟩ := hfree houtside
    refine ⟨hcomma, fun hc => ?_⟩
    obtain ⟨d, hd, hne⟩ := hspace hc
    have hhead : d ∈ (rest ++ b).head? := by
      rw [List.head?_append, Option.mem_def.1 hd]
      rfl
    exact ⟨d, hhead, hne⟩

theorem piecesFrom_step {s : Cursor} {c : Char} {piece rest : List Char}
    (hfree : s.isOutside = true → c ≠ ',' ∧ (c = ' ' → ∃ d ∈ rest.head?, d ≠ 'o')) :
    piecesFrom s piece (c :: rest) = piecesFrom (s.step c) (c :: piece) rest := by
  rw [piecesFrom.eq_def]
  split <;> grind

/-- A text without separators becomes part of the current piece. -/
theorem Passes.piecesFrom_append {s s' : Cursor} {text : List Char} (h : Passes s text s')
    (piece rest : List Char) :
    piecesFrom s piece (text ++ rest) = piecesFrom s' (text.reverse ++ piece) rest := by
  induction h generalizing piece with
  | nil => rfl
  | @cons s s' c text hfree _ ih =>
    have hnext : s.isOutside = true →
        c ≠ ',' ∧ (c = ' ' → ∃ d ∈ (text ++ rest).head?, d ≠ 'o') := by
      intro houtside
      obtain ⟨hcomma, hspace⟩ := hfree houtside
      refine ⟨hcomma, fun hc => ?_⟩
      obtain ⟨d, hd, hne⟩ := hspace hc
      exact ⟨d, by rw [List.head?_append, Option.mem_def.1 hd]; rfl, hne⟩
    rw [List.cons_append, piecesFrom_step hnext, ih, List.reverse_cons, List.append_assoc]
    rfl

/-- The text between the members of a list. -/
def orText : List Char :=
  " or ".toList

theorem piecesFrom_orText (piece rest : List Char) :
    piecesFrom .start piece (orText ++ rest) = piece.reverse :: piecesFrom .start [] rest := by
  rw [show orText ++ rest = ' ' :: 'o' :: 'r' :: ' ' :: rest from rfl, piecesFrom]
  rfl

/-- Joined texts are the pieces of the whole. -/
theorem rawPieces_intercalate {texts : List (List Char)} (hne : texts ≠ [])
    (h : ∀ t ∈ texts, Passes .start t .start) : rawPieces (orText.intercalate texts) = texts := by
  refine Text.intercalate_induction
    (P := fun texts joined => texts ≠ [] → rawPieces joined = texts) ?_ ?_ ?_ hne
  · exact fun hnil => absurd rfl hnil
  · intro t ht _
    have hpiece := (h t ht).piecesFrom_append [] []
    rw [List.append_nil] at hpiece
    rw [rawPieces, hpiece, piecesFrom, List.append_nil, List.reverse_reverse]
  · intro t ht u rest joined ih _
    have hrest := ih (List.cons_ne_nil u rest)
    rw [rawPieces] at hrest
    rw [rawPieces, (h t ht).piecesFrom_append, piecesFrom_orText, hrest, List.append_nil,
      List.reverse_reverse]

/-- The segments of joined texts are those of the texts that have any characters. -/
theorem segments_intercalate {texts : List (List Char)} (hne : texts ≠ [])
    (h : ∀ t ∈ texts, Passes .start t .start) (hclean : ∀ t ∈ texts, clean t = t) :
    segments (orText.intercalate texts) = texts.filter fun t => !t.isEmpty := by
  rw [segments, rawPieces_intercalate hne h, List.map_congr_left hclean, List.map_id']

/-- A tidy text with no backquotes at its ends is its own segment. -/
theorem clean_eq {t : List Char} (h : Text.Tidy t) (hhead : ∀ c ∈ t.head?, c ≠ backquote)
    (hlast : ∀ c ∈ t.getLast?, c ≠ backquote) : clean t = t := by
  have hstrip : Text.stripWhere (· = backquote) t = t :=
    Text.stripWhere_eq_self (by simpa using hhead) (by simpa using hlast)
  rw [clean, h.trim_eq, hstrip, h.trim_eq]

/-! ## Brackets -/

/-- The characters that mean something to a cursor. -/
def marks : List Char :=
  ['(', '[', '{', ')', ']', '}', '"', '\'', '\\']

/-- Characters without a meaning to the cursor are passed, separators only within brackets. -/
theorem passes_of_not_marks {depth : Nat} {text : List Char} (h : ∀ c ∈ text, c ∉ marks)
    (hfree : depth = 0 → ∀ c ∈ text, c ≠ ',' ∧ c ≠ ' ') :
    Passes ⟨depth, none, false⟩ text ⟨depth, none, false⟩ := by
  induction text with
  | nil => exact .nil _
  | cons c text ih =>
    obtain ⟨hc, htext⟩ := List.forall_mem_cons.1 h
    have hstep : Cursor.step ⟨depth, none, false⟩ c = ⟨depth, none, false⟩ := by
      simp only [marks, List.mem_cons, not_or] at hc
      simp [Cursor.step, hc]
    refine .cons (fun houtside => ?_) ?_
    · have hdepth : depth = 0 := by simpa [Cursor.isOutside] using houtside
      obtain ⟨hcomma, hspace⟩ := hfree hdepth c List.mem_cons_self
      exact ⟨hcomma, fun hc => absurd hc hspace⟩
    · rw [hstep]
      exact ih htext fun hdepth d hd => hfree hdepth d (List.mem_cons_of_mem c hd)

theorem passes_bracketed {opening closing : Char} {depth : Nat} {text : List Char}
    (hopening : opening ∈ ['(', '[', '{']) (hclosing : closing ∈ [')', ']', '}'])
    (h : Passes ⟨depth + 1, none, false⟩ text ⟨depth + 1, none, false⟩) :
    Passes ⟨depth, none, false⟩ (opening :: (text ++ [closing])) ⟨depth, none, false⟩ := by
  have hin : Cursor.step ⟨depth, none, false⟩ opening = ⟨depth + 1, none, false⟩ := by
    simp only [List.mem_cons, List.not_mem_nil, or_false] at hopening
    rcases hopening with rfl | rfl | rfl <;> rfl
  have hout : Cursor.step ⟨depth + 1, none, false⟩ closing = ⟨depth, none, false⟩ := by
    simp only [List.mem_cons, List.not_mem_nil, or_false] at hclosing
    rcases hclosing with rfl | rfl | rfl <;> rfl
  have hclose : Passes ⟨depth + 1, none, false⟩ [closing] ⟨depth, none, false⟩ := by
    refine .cons (fun houtside => ?_) (hout ▸ .nil _)
    simp [Cursor.isOutside] at houtside
  refine .cons (fun _ => ?_) (hin ▸ h.append hclose)
  simp only [List.mem_cons, List.not_mem_nil, or_false] at hopening
  rcases hopening with rfl | rfl | rfl <;> simp

/-! ## Plain characters -/

/-- Whether a character has no meaning but itself: it is printed in ASCII, and it is neither a space
nor a comma nor a mark. -/
def isPlain (c : Char) : Bool :=
  33 ≤ c.toNat && c.toNat ≤ 126 && !(',' :: marks).contains c

/-- The characters of a class are plain if there is no mark among them. -/
theorem isPlain_of_class {p : Char → Bool} (hmarks : (',' :: marks).all (!p ·) = true) {c : Char}
    (hc : p c = true) (hlow : 33 ≤ c.toNat) (hhigh : c.toNat ≤ 126) : isPlain c = true := by
  have hmark : c ∉ ',' :: marks := by
    intro hmem
    have hnot := List.all_eq_true.1 hmarks c hmem
    rw [hc] at hnot
    cases hnot
  simp [isPlain, hlow, hhigh, -List.mem_cons, -List.contains_cons, hmark]

theorem isBlank_of_isPlain {c : Char} (h : isPlain c = true) : Text.isBlank c = false := by
  simp only [isPlain, Bool.and_eq_true, decide_eq_true_eq] at h
  exact Text.isBlank_of_printed h.1.1 h.1.2

theorem not_mem_of_isPlain {c : Char} (h : isPlain c = true) : c ∉ ',' :: marks := by
  rw [isPlain, Bool.and_eq_true, Bool.not_eq_true'] at h
  exact fun hmark => Bool.false_ne_true (h.2.symm.trans (List.contains_iff_mem.2 hmark))

theorem ne_of_isPlain {c d : Char} (h : isPlain c = true) (hd : isPlain d = false) : c ≠ d := by
  rintro rfl
  rw [h] at hd
  cases hd

theorem tidy_of_isPlain {text : List Char} (hne : text ≠ []) (h : ∀ c ∈ text, isPlain c = true) :
    Text.Tidy text :=
  .of_forall hne fun c hc => isBlank_of_isPlain (h c hc)

theorem passes_of_isPlain {text : List Char} (h : ∀ c ∈ text, isPlain c = true) (depth : Nat) :
    Passes ⟨depth, none, false⟩ text ⟨depth, none, false⟩ := by
  refine passes_of_not_marks (fun c hc hmark => ?_) fun _ c hc =>
    ⟨ne_of_isPlain (h c hc) (by decide), ne_of_isPlain (h c hc) (by decide)⟩
  exact not_mem_of_isPlain (h c hc) (List.mem_cons_of_mem _ hmark)

end TypeText

end ApiEvolution
