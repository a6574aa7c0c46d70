import ApiEvolution.Proofs.TypeSegments

/-!
# Where a type text is cut

A type text is cut into the pieces between its separators, and nothing of it is lost. A separator
counts where it begins outside the brackets and quotes of what is before it; of separators that
overlap the first one counts (`segments_cutting`).

* `Cuts` says what it is to be cut at the leftmost separators: the first separator that counts ends
  the first piece, and what comes after it is cut in the same way.
* `exists_cuts`: the pieces that a reader finds are those of such cuts. It reads the text once, and
  starts afresh after each separator.
* `Cuts.covers`: a separator that counts in the whole text is cut out, or it begins within one that
  is.
-/

namespace ApiEvolution

namespace TypeText

/-! ## Separators that count -/

/-- The cursor after a text. -/
def scan (text : List Char) : Cursor :=
  text.foldl Cursor.step .start

/-- The texts that separate. -/
def separators : List (List Char) :=
  [[','], orText]

/-- Outside the brackets and quotes of what is before it, a text begins with a separator. -/
def Separates (before text : List Char) : Prop :=
  (scan before).isOutside = true ∧ ∃ sep ∈ separators, sep <+: text

section

variable {a b sep : List Char}

/-- After a separator a reader stands as at the start. -/
theorem foldl_step_separator {s : Cursor} (hsep : sep ∈ separators) (hs : s.isOutside = true) :
    sep.foldl Cursor.step s = .start := by
  obtain ⟨depth, quote, escaped⟩ := s
  simp only [Cursor.isOutside, Bool.and_eq_true, decide_eq_true_eq, Option.isNone_iff_eq_none] at hs
  obtain ⟨rfl, rfl⟩ := hs
  simp only [separators, List.mem_cons, List.not_mem_nil, or_false] at hsep
  rcases hsep with rfl | rfl <;> rfl

theorem scan_separator_append (hsep : sep ∈ separators) (ha : (scan a).isOutside = true) :
    scan (a ++ (sep ++ b)) = scan b := by
  rw [scan, List.foldl_append, List.foldl_append, ← scan, foldl_step_separator hsep ha]
  rfl

theorem Separates.ne_nil (h : Separates a b) : b ≠ [] := by
  rintro rfl
  obtain ⟨-, sep, hsep, hprefix⟩ := h
  rw [List.prefix_nil.1 hprefix] at hsep
  revert hsep
  decide

theorem Separates.append (h : Separates a b) (rest : List Char) : Separates a (b ++ rest) := by
  obtain ⟨ha, sep, hsep, hprefix⟩ := h
  exact ⟨ha, sep, hsep, hprefix.trans (List.prefix_append b rest)⟩

/-- No separator that counts begins in a piece, not even one that ends in the text after it. -/
def Free (piece rest : List Char) : Prop :=
  ∀ a b, piece = a ++ b → b ≠ [] → ¬ Separates a (b ++ rest)

theorem free_nil (rest : List Char) : Free [] rest :=
  fun _ _ hab hne => absurd (List.append_eq_nil_iff.1 hab.symm).2 hne

theorem Free.concat {piece rest : List Char} {c : Char} (h : Free piece (c :: rest))
    (hnot : ¬ Separates piece (c :: rest)) : Free (piece ++ [c]) rest := by
  intro a b hab hne
  obtain ⟨b', d, rfl⟩ := (List.eq_nil_or_concat' b).resolve_left hne
  rw [← List.append_assoc] at hab
  obtain ⟨rfl, hd⟩ := List.append_inj' hab rfl
  obtain rfl : c = d := List.singleton_inj.1 hd
  rw [List.append_assoc, List.singleton_append]
  by_cases hb : b' = []
  · subst hb
    rwa [List.append_nil] at hnot
  · exact h a b' rfl hb

end

/-! ## Cuts -/

/-- A text that is cut: its first piece, and the others, each with the separator before it. -/
structure Cutting where
  first : List Char
  others : List (List Char × List Char)

namespace Cutting

/-- The text that is cut. -/
def text (c : Cutting) : List Char :=
  c.first ++ c.others.flatMap fun e => e.1 ++ e.2

/-- The pieces into which it is cut. -/
def pieces (c : Cutting) : List (List Char) :=
  c.first :: c.others.map (·.2)

/-- A position in the text is one of a separator. -/
def Covers (c : Cutting) (n : Nat) : Prop :=
  ∃ earlier e later, c.others = earlier ++ e :: later ∧
    (Cutting.mk c.first earlier).text.length ≤ n ∧
      n < (Cutting.mk c.first earlier).text.length + e.1.length

variable {piece sep : List Char} {c : Cutting} {n : Nat}

/-- A piece and a separator before what is cut already. -/
def cons (piece sep : List Char) (c : Cutting) : Cutting :=
  ⟨piece, (sep, c.first) :: c.others⟩

theorem text_cons : (cons piece sep c).text = piece ++ (sep ++ c.text) := by
  simp [cons, text]

theorem covers_cons (hle : piece.length ≤ n) (hlt : n < piece.length + sep.length) :
    (cons piece sep c).Covers n :=
  ⟨[], (sep, c.first), c.others, rfl, by simpa [cons, text] using hle,
    by simpa [cons, text] using hlt⟩

theorem Covers.cons (h : c.Covers n) :
    (cons piece sep c).Covers (piece.length + (sep.length + n)) := by
  obtain ⟨earlier, e, later, hothers, hle, hlt⟩ := h
  have hlength : (mk piece ((sep, c.first) :: earlier)).text.length =
      piece.length + (sep.length + (mk c.first earlier).text.length) := by
    simp [text]
  refine ⟨(sep, c.first) :: earlier, e, later, congrArg ((sep, c.first) :: ·) hothers, ?_, ?_⟩
  · rw [Cutting.cons, hlength]
    omega
  · rw [Cutting.cons, hlength]
    omega

end Cutting

/-- A text is cut at the first separator that counts, and then what comes after this separator is
cut. -/
inductive Cuts : List Char → Cutting → Prop
  | whole {piece : List Char} (hfree : Free piece []) : Cuts piece ⟨piece, []⟩
  | cut {piece sep rest : List Char} {c : Cutting} (hsep : sep ∈ separators)
      (houtside : (scan piece).isOutside = true)
      (hfree : Free piece (sep ++ rest)) (hrest : Cuts rest c) :
      Cuts (piece ++ (sep ++ rest)) (.cons piece sep c)

namespace Cuts

variable {text : List Char} {c : Cutting}

theorem text_eq (h : Cuts text c) : c.text = text := by
  induction h with
  | whole => exact List.append_nil _
  | cut _ _ _ _ ih => rw [Cutting.text_cons, ih]

theorem mem_separators (h : Cuts text c) : ∀ e ∈ c.others, e.1 ∈ separators := by
  induction h with
  | whole => simp
  | cut hsep _ _ _ ih => exact List.forall_mem_cons.2 ⟨hsep, ih⟩

/-- No separator counts in a piece. -/
theorem free (h : Cuts text c) : ∀ p ∈ c.pieces, ∀ a b, p = a ++ b → ¬ Separates a b := by
  induction h with
  | whole hfree =>
    refine List.forall_mem_singleton.2 fun a b hp hsep => ?_
    exact hfree a b hp hsep.ne_nil (hsep.append [])
  | cut _ _ hfree _ ih =>
    refine List.forall_mem_cons.2 ⟨fun a b hp hsep => ?_, ih⟩
    exact hfree a b hp hsep.ne_nil (hsep.append _)

/-- At the end of a piece that is cut off, brackets and quotes are closed. -/
theorem outside (h : Cuts text c) : ∀ p ∈ c.pieces.dropLast, (scan p).isOutside = true := by
  induction h with
  | whole => simp [Cutting.pieces]
  | @cut piece sep rest c _ houtside _ _ ih =>
    have hlast : (Cutting.cons piece sep c).pieces.dropLast = piece :: c.pieces.dropLast := rfl
    rw [hlast]
    exact List.forall_mem_cons.2 ⟨houtside, ih⟩

/-- Each separator that counts is cut out, or it begins within one that is. -/
theorem covers (h : Cuts text c) : ∀ a b, text = a ++ b → Separates a b → c.Covers a.length := by
  induction h with
  | whole hfree => exact fun a b hab hsep => absurd (hsep.append []) (hfree a b hab hsep.ne_nil)
  | @cut piece sep rest c hmem houtside hfree _ ih =>
    intro a b hab hsep
    have hlength := congrArg List.length hab
    simp only [List.length_append] at hlength
    by_cases hpiece : a.length < piece.length
    · -- in the piece no separator counts
      obtain ⟨b', rfl⟩ : a <+: piece := List.prefix_of_prefix_length_le
        (hab ▸ List.prefix_append a b) (List.prefix_append piece _) hpiece.le
      rw [List.append_assoc] at hab
      obtain rfl := List.append_cancel_left hab
      have hne : b' ≠ [] := by
        rintro rfl
        simp at hpiece
      exact absurd hsep (hfree a b' rfl hne)
    by_cases hwithin : a.length < piece.length + sep.length
    · exact Cutting.covers_cons (Nat.not_lt.1 hpiece) hwithin
    · obtain ⟨a', rfl⟩ : piece ++ sep <+: a := List.prefix_of_prefix_length_le
        (List.append_assoc .. ▸ List.prefix_append (piece ++ sep) rest)
        (hab ▸ List.prefix_append a b) (by simpa using hwithin)
      simp only [List.append_assoc] at hab hsep
      have hrest := List.append_cancel_left (List.append_cancel_left hab)
      rw [Separates, scan_separator_append hmem houtside] at hsep
      rw [List.append_assoc, List.length_append, List.length_append]
      exact (ih a' b hrest hsep).cons

end Cuts

/-- A piece and a separator that counts come before what is cut already. -/
theorem exists_cuts_cut {piece sep rest : List Char} {ps : List (List Char)}
    (hsep : sep ∈ separators) (houtside : (scan piece).isOutside = true)
    (hfree : Free piece (sep ++ rest)) (h : ∃ c, Cuts rest c ∧ c.pieces = ps) :
    ∃ c, Cuts (piece ++ (sep ++ rest)) c ∧ c.pieces = piece :: ps := by
  obtain ⟨c, hc, rfl⟩ := h
  exact ⟨.cons piece sep c, .cut hsep houtside hfree hc, rfl⟩

/-- A character at which no separator that counts begins is read as part of the piece. -/
theorem exists_cuts_read {piece rest : List Char} {d : Char} {ps : List (List Char)}
    (hfree : Free piece.reverse (d :: rest)) (hnot : ¬ Separates piece.reverse (d :: rest))
    (h : scan (d :: piece).reverse = (scan piece.reverse).step d → Free (d :: piece).reverse rest →
      ∃ c, Cuts ((d :: piece).reverse ++ rest) c ∧ c.pieces = ps) :
    ∃ c, Cuts (piece.reverse ++ d :: rest) c ∧ c.pieces = ps := by
  rw [List.reverse_cons, List.append_assoc, List.singleton_append] at h
  refine h ?_ (hfree.concat hnot)
  rw [scan, List.foldl_append]
  rfl

/-- The pieces of a text are those of its cuts. `piece` is what has been read since the last one. -/
theorem exists_cuts {s : Cursor} {piece text : List Char} (hs : scan piece.reverse = s)
    (hfree : Free piece.reverse text) :
    ∃ c, Cuts (piece.reverse ++ text) c ∧ c.pieces = piecesFrom s piece text := by
  fun_induction piecesFrom s piece text with
  | case1 s piece =>
    rw [List.append_nil]
    exact ⟨⟨piece.reverse, []⟩, .whole hfree, rfl⟩
  | case2 s piece rest hout ih =>
    have hsep : [','] ∈ separators := by decide
    exact exists_cuts_cut hsep (hs ▸ hout) hfree (ih rfl (free_nil rest))
  | case3 s piece rest hout ih =>
    subst hs
    exact exists_cuts_read hfree (fun h => hout h.1) ih
  | case4 s piece rest hout ih =>
    have hsep : orText ∈ separators := by decide
    exact exists_cuts_cut hsep (hs ▸ hout) hfree (ih rfl (free_nil rest))
  | case5 s piece rest hout ih =>
    subst hs
    exact exists_cuts_read hfree (fun h => hout h.1) ih
  | case6 s piece d rest hcomma hor ih =>
    subst hs
    refine exists_cuts_read hfree ?_ ih
    rintro ⟨-, sep, hsep, more, hmore⟩
    simp only [separators, List.mem_cons, List.not_mem_nil, or_false] at hsep
    rcases hsep with rfl | rfl
    · exact hcomma (List.cons.inj hmore).1.symm
    · obtain ⟨hd, hrest⟩ := List.cons.inj hmore
      exact hor more hd.symm hrest.symm

/-- The segments of a text are cleaned pieces of it: those that are left of the text when it is cut
at the leftmost of the separators that count, without the empty ones. -/
theorem segments_cutting (text : List Char) :
    ∃ c : Cutting, c.text = text ∧ (∀ e ∈ c.others, e.1 ∈ separators) ∧
      segments text = (c.pieces.map clean).filter (fun s => !s.isEmpty) ∧
      (∀ p ∈ c.pieces, ∃ t u, Text.Strips Text.isBlank p t ∧ Text.Strips (· = backquote) t u ∧
        Text.Strips Text.isBlank u (clean p)) ∧
      (∀ p ∈ c.pieces, ∀ a b, p = a ++ b → ¬ Separates a b) ∧
      (∀ p ∈ c.pieces.dropLast, (scan p).isOutside = true) ∧
      ∀ a b, text = a ++ b → Separates a b → c.Covers a.length := by
  obtain ⟨c, hc, hpieces⟩ : ∃ c, Cuts ([].reverse ++ text) c ∧ c.pieces = rawPieces text :=
    exists_cuts rfl (free_nil text)
  refine ⟨c, hc.text_eq, hc.mem_separators, ?_, ?_, hc.free, hc.outside, hc.covers⟩
  · rw [segments, hpieces]
  · intro p _
    exact ⟨_, _, Text.strips_stripWhere _ _, Text.strips_stripWhere _ _,
      Text.strips_stripWhere _ _⟩

/-- Of two separators that overlap the first one counts. -/
example : segments "int or or `str, (a, b".toList =
    ["int", "or `str", "(a, b"].map String.toList := by
  cbv

end TypeText

end ApiEvolution
