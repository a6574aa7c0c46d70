import Mathlib.Data.List.FinRange
import Mathlib.Data.List.Induction
import ApiEvolution.Proofs.Ledger

/-!
# The log that a ledger is

However a ledger is filled, it is the ledger of all annotations that were added, in order
(`run_eq_ofList`). It has exactly those that no later one excludes (`survivors_eq_map`), and an
addition evicts one annotation at most (`Settled.evictedBy_spec`).

A ledger may also be seen as a table with one row for each kind and target, in which an addition
looks for what it evicts under the keys of all conflicting kinds (`addByKey`). Since conflicting is
an equivalence, rows under two of these keys never are there at once, and the two ways to add come
to the same (`Settled.addByKey_eq`).

* `run_latestWins` says all this of a ledger after any additions.
-/

namespace ApiEvolution

/-! ## Conflicts are an equivalence -/

theorem AnnotationKind.conflicts_trans {a b c : AnnotationKind} (hab : a.conflicts b = true)
    (hbc : b.conflicts c = true) : a.conflicts c = true := by
  simp only [conflicts, Bool.or_eq_true, decide_eq_true_eq, Bool.and_eq_true] at hab hbc ⊢
  rcases hab with rfl | ⟨ha, hb⟩
  · exact hbc
  · rcases hbc with rfl | ⟨-, hc⟩
    · exact .inr ⟨ha, hb⟩
    · exact .inr ⟨ha, hc⟩

theorem Annotation.conflicts_trans {a b c : Annotation} (hab : a.conflicts b = true)
    (hbc : b.conflicts c = true) : a.conflicts c = true := by
  obtain ⟨htarget, hkind⟩ := conflicts_iff.1 hab
  obtain ⟨htarget', hkind'⟩ := conflicts_iff.1 hbc
  exact conflicts_iff.2 ⟨htarget.trans htarget', AnnotationKind.conflicts_trans hkind hkind'⟩

namespace Ledger

variable {l : Ledger} {a b : Annotation}

/-! ## Survivors by position -/

/-- No later annotation of a sequence has the target of the one at a position and a kind that
conflicts with its kind. -/
def Survives (annotations : List Annotation) (i : Fin annotations.length) : Prop :=
  ∀ j, i < j → ¬ ((annotations.get j).target = (annotations.get i).target ∧
    (annotations.get j).kind.conflicts (annotations.get i).kind = true)

instance (annotations : List Annotation) : DecidablePred (Survives annotations) :=
  fun _ => inferInstanceAs (Decidable (∀ _, _ → ¬ (_ ∧ _)))

theorem survives_cons_zero {rest : List Annotation} :
    Survives (a :: rest) 0 ↔ rest.any (·.conflicts a) = false := by
  simp only [Survives, ← Annotation.conflicts_iff, List.any_eq_false]
  constructor
  · intro h b hb
    obtain ⟨i, rfl⟩ := List.mem_iff_get.1 hb
    exact h i.succ (Fin.succ_pos i)
  · intro h j hj
    obtain ⟨k, rfl⟩ := Fin.exists_succ_eq.2 (Fin.pos_iff_ne_zero.1 hj)
    exact h _ (List.get_mem rest k)

theorem survives_cons_succ {rest : List Annotation} {i : Fin rest.length} :
    Survives (a :: rest) i.succ ↔ Survives rest i := by
  constructor
  · exact fun h j hj => h j.succ (Fin.succ_lt_succ_iff.2 hj)
  · intro h j hj
    have hpos : j ≠ 0 := Fin.pos_iff_ne_zero.1 (lt_trans (Fin.succ_pos i) hj)
    obtain ⟨k, rfl⟩ := Fin.exists_succ_eq.2 hpos
    exact h k (Fin.succ_lt_succ_iff.1 hj)

/-- The survivors are the annotations at the positions that survive, in order. -/
theorem survivors_eq_map (annotations : List Annotation) :
    survivors annotations =
      ((List.finRange annotations.length).filter (Survives annotations ·)).map annotations.get := by
  induction annotations with
  | nil => rfl
  | cons a rest ih =>
    have hlater : (((List.finRange rest.length).map Fin.succ).filter
        (Survives (a :: rest) ·)).map (a :: rest).get = survivors rest := by
      rw [List.filter_map, List.map_map, ih]
      refine congrArg (List.map rest.get) (List.filter_congr ?_)
      intro i _
      exact decide_eq_decide.2 survives_cons_succ
    have hsplit : List.finRange (a :: rest).length =
        0 :: (List.finRange rest.length).map Fin.succ :=
      List.finRange_succ
    rw [survivors, hsplit]
    by_cases hany : rest.any (·.conflicts a) = true
    · have hzero : ¬ Survives (a :: rest) 0 := by
        rw [survives_cons_zero, hany]
        simp
      rw [if_pos hany, List.filter_cons_of_neg (by simpa using hzero), hlater]
    · have hzero : Survives (a :: rest) 0 := survives_cons_zero.2 (Bool.eq_false_iff.2 hany)
      rw [if_neg hany, List.filter_cons_of_pos (by simpa using hzero), List.map_cons, hlater]
      rfl

/-! ## Evictions -/

/-- No two annotations of a ledger conflict. -/
def Settled (l : Ledger) : Prop :=
  l.entries.Pairwise fun a b => b.conflicts a = false

theorem Settled.eq_of_conflicts (h : l.Settled) (ha : a ∈ l.entries) (hb : b ∈ l.entries)
    (hab : a.conflicts b = true) : a = b := by
  by_contra hne
  rw [conflicts_eq_false_of_pairwise h ha hb hne] at hab
  cases hab

theorem Settled.nodup (h : l.Settled) : l.entries.Nodup :=
  nodup_of_pairwise h

/-- An annotation conflicts with nothing in a ledger, or with a single annotation at some place. -/
theorem Settled.free_or_split (h : l.Settled) (a : Annotation) :
    (∀ b ∈ l.entries, a.conflicts b = false) ∨ ∃ before b after,
      l.entries = before ++ b :: after ∧ a.conflicts b = true ∧
        (∀ c ∈ before, a.conflicts c = false) ∧ ∀ c ∈ after, a.conflicts c = false := by
  by_cases hev : ∃ b ∈ l.entries, a.conflicts b = true
  · right
    obtain ⟨b, hb, hab⟩ := hev
    obtain ⟨before, after, hsplit⟩ := List.append_of_mem hb
    -- whatever else conflicts with `a` conflicts with `b` as well
    have hother : ∀ c ∈ before ++ after, a.conflicts c = false := by
      intro c hc
      rw [Bool.eq_false_iff]
      intro hac
      have hba : b.conflicts a = true := (b.conflicts_comm a).trans hab
      have hmem : c ∈ l.entries := by
        rw [hsplit]
        rcases List.mem_append.1 hc with hc | hc <;> simp [hc]
      have hbc : b = c := h.eq_of_conflicts hb hmem <| Annotation.conflicts_trans hba hac
      have hnodup := h.nodup
      rw [hsplit, List.nodup_middle] at hnodup
      exact (List.nodup_cons.1 hnodup).1 (hbc ▸ hc)
    exact ⟨before, b, after, hsplit, hab, fun c hc => hother c (List.mem_append_left _ hc),
      fun c hc => hother c (List.mem_append_right _ hc)⟩
  · left
    simpa using hev

theorem add_of_free (h : ∀ b ∈ l.entries, a.conflicts b = false) :
    l.evictedBy a = [] ∧ (l.add a).entries = l.entries ++ [a] := by
  constructor
  · exact List.filter_eq_nil_iff.2 fun c hc => by simp [h c hc]
  · rw [add, List.filter_eq_self.2 fun c hc => by simp [h c hc]]

theorem add_of_split {before after : List Annotation} (hsplit : l.entries = before ++ b :: after)
    (hab : a.conflicts b = true) (hbefore : ∀ c ∈ before, a.conflicts c = false)
    (hafter : ∀ c ∈ after, a.conflicts c = false) :
    l.evictedBy a = [b] ∧ (l.add a).entries = before ++ after ++ [a] := by
  constructor
  · rw [evictedBy, hsplit, List.filter_append, List.filter_cons_of_pos hab,
      List.filter_eq_nil_iff.2 fun c hc => by simp [hbefore c hc],
      List.filter_eq_nil_iff.2 fun c hc => by simp [hafter c hc]]
    rfl
  · rw [add, hsplit, List.filter_append, List.filter_cons_of_neg (by simp [hab]),
      List.filter_eq_self.2 fun c hc => by simp [hbefore c hc],
      List.filter_eq_self.2 fun c hc => by simp [hafter c hc]]

/-- An addition evicts one annotation at most. It takes this one out of its place and puts the new
one at the end. -/
theorem Settled.evictedBy_spec (h : l.Settled) (a : Annotation) :
    (l.evictedBy a).length ≤ 1 ∧ ∃ before after,
      l.entries = before ++ l.evictedBy a ++ after ∧ (l.add a).entries = before ++ after ++ [a] := by
  rcases h.free_or_split a with hfree | ⟨before, b, after, hsplit, hab, hbefore, hafter⟩
  · obtain ⟨hev, hadd⟩ := add_of_free hfree
    rw [hev]
    exact ⟨by simp, l.entries, [], by simp, by simpa using hadd⟩
  · obtain ⟨hev, hadd⟩ := add_of_split hsplit hab hbefore hafter
    rw [hev]
    exact ⟨by simp, before, after, by simpa using hsplit, hadd⟩

/-! ## A table by kind and target -/

/-- The row of a kind and a target, and the table without it. -/
def takeOut (l : Ledger) (kind : AnnotationKind) (target : String) : Option Annotation × Ledger :=
  (l.get? kind target, ⟨l.entries.eraseP fun b => b.kind = kind && b.target = target⟩)

/-- Take out the rows of some kinds that a new row conflicts with, one kind after the other. -/
def evictByKey (a : Annotation) (l : Ledger) : List AnnotationKind → List Annotation × Ledger
  | [] => ([], l)
  | kind :: rest =>
    if kind.conflicts a.kind then
      let (row, left) := l.takeOut kind a.target
      let (more, last) := evictByKey a left rest
      (row.toList ++ more, last)
    else evictByKey a l rest

/-- Add a row after taking out those that it conflicts with, in the order of their kinds. -/
def addByKey (l : Ledger) (a : Annotation) : List Annotation × Ledger :=
  let (evicted, left) := evictByKey a l AnnotationKind.all
  (evicted, ⟨left.entries ++ [a]⟩)

theorem takeOut_of_absent {kind : AnnotationKind} {target : String}
    (h : ∀ b ∈ l.entries, b.kind = kind → b.target ≠ target) :
    l.takeOut kind target = (none, l) := by
  have habsent : ∀ b ∈ l.entries, ¬ (b.kind = kind && b.target = target) = true := by
    intro b hb
    simpa using h b hb
  rw [takeOut, get?, List.find?_eq_none.2 habsent, List.eraseP_of_forall_not habsent]

theorem takeOut_of_split {before after : List Annotation}
    (hsplit : l.entries = before ++ b :: after)
    (h : ∀ c ∈ before, c.kind = b.kind → c.target ≠ b.target) :
    l.takeOut b.kind b.target = (some b, ⟨before ++ after⟩) := by
  have habsent : ∀ c ∈ before, ¬ (c.kind = b.kind && c.target = b.target) = true := by
    intro c hc
    simpa using h c hc
  rw [takeOut, get?, hsplit, List.find?_append, List.find?_eq_none.2 habsent,
    List.eraseP_append_right _ habsent]
  simp

/-- A row that does not conflict is not one of those that are looked for. -/
theorem target_ne_of_free {kind : AnnotationKind} (hkind : kind.conflicts a.kind = true)
    (hab : a.conflicts b = false) : b.kind = kind → b.target ≠ a.target := by
  rintro rfl htarget
  have hconflict : b.conflicts a = true := Annotation.conflicts_iff.2 ⟨htarget, hkind⟩
  rw [b.conflicts_comm, hab] at hconflict
  cases hconflict

theorem evictByKey_of_free (h : ∀ b ∈ l.entries, a.conflicts b = false)
    (kinds : List AnnotationKind) : evictByKey a l kinds = ([], l) := by
  induction kinds with
  | nil => rfl
  | cons kind rest ih =>
    rw [evictByKey]
    split
    · next hkind =>
      rw [takeOut_of_absent fun b hb => target_ne_of_free hkind (h b hb)]
      simp [ih]
    · exact ih

theorem evictByKey_of_split {before after : List Annotation}
    (hsplit : l.entries = before ++ b :: after) (hab : a.conflicts b = true)
    (hbefore : ∀ c ∈ before, a.conflicts c = false) (hafter : ∀ c ∈ after, a.conflicts c = false)
    {kinds : List AnnotationKind} (hb : b.kind ∈ kinds) :
    evictByKey a l kinds = ([b], ⟨before ++ after⟩) := by
  obtain ⟨htarget, hkinds⟩ := Annotation.conflicts_iff.1 hab
  induction kinds with
  | nil => cases hb
  | cons kind rest ih =>
    rw [evictByKey]
    by_cases hkind : kind = b.kind
    · -- the row is found under this kind, and nothing under the kinds after it
      have hfree : ∀ c ∈ (⟨before ++ after⟩ : Ledger).entries, a.conflicts c = false := by
        intro c hc
        rcases List.mem_append.1 hc with hc | hc
        · exact hbefore c hc
        · exact hafter c hc
      have hconflict : kind.conflicts a.kind = true := by
        rw [hkind, AnnotationKind.conflicts_symm]
        exact hkinds
      have hout : l.takeOut kind a.target = (some b, ⟨before ++ after⟩) := by
        rw [hkind, htarget]
        refine takeOut_of_split hsplit fun c hc => ?_
        rw [← htarget]
        exact target_ne_of_free (hkind ▸ hconflict) (hbefore c hc)
      rw [if_pos hconflict, hout]
      dsimp only
      rw [evictByKey_of_free hfree]
      rfl
    · have hrest := ih ((List.mem_cons.1 hb).resolve_left (Ne.symm hkind))
      split
      · next hconflict =>
        have hout : l.takeOut kind a.target = (none, l) := by
          refine takeOut_of_absent fun c hc => ?_
          rw [hsplit, List.mem_append, List.mem_cons] at hc
          rcases hc with hc | rfl | hc
          · exact target_ne_of_free hconflict (hbefore c hc)
          · exact fun hc => absurd hc.symm hkind
          · exact target_ne_of_free hconflict (hafter c hc)
        simp [hout, hrest]
      · exact hrest

/-- Adding by key evicts and leaves the same annotations. -/
theorem Settled.addByKey_eq (h : l.Settled) (a : Annotation) :
    l.addByKey a = (l.evictedBy a, l.add a) := by
  have heq : ∀ {evicted left : List Annotation},
      evictByKey a l AnnotationKind.all = (evicted, ⟨left⟩) →
      l.evictedBy a = evicted → (l.add a).entries = left ++ [a] →
      l.addByKey a = (l.evictedBy a, l.add a) := by
    intro evicted left hkey hev hadd
    rw [addByKey, hkey, hev]
    simp [← hadd]
  rcases h.free_or_split a with hfree | ⟨before, b, after, hsplit, hab, hbefore, hafter⟩
  · obtain ⟨hev, hadd⟩ := add_of_free hfree
    exact heq (evictByKey_of_free hfree _) hev hadd
  · obtain ⟨hev, hadd⟩ := add_of_split hsplit hab hbefore hafter
    exact heq (evictByKey_of_split hsplit hab hbefore hafter b.kind.mem_all) hev hadd

/-- In a ledger without conflicts there is one annotation of a kind on a target at most, and it is
found. -/
theorem Settled.get?_eq_some_iff (h : l.Settled) {kind : AnnotationKind} {target : String} :
    l.get? kind target = some a ↔ a ∈ l.entries ∧ a.kind = kind ∧ a.target = target := by
  constructor
  · intro ha
    have hkey := List.find?_some ha
    exact ⟨List.mem_of_find?_eq_some ha, by simpa using hkey⟩
  · rintro ⟨ha, rfl, rfl⟩
    cases hfound : l.get? a.kind a.target with
    | none =>
      have hno := List.find?_eq_none.1 hfound a ha
      simp at hno
    | some b =>
      have hkey : b.kind = a.kind ∧ b.target = a.target := by simpa using List.find?_some hfound
      have hconflict : b.conflicts a = true :=
        Annotation.conflicts_iff.2 ⟨hkey.2, hkey.1 ▸ b.kind.conflicts_self⟩
      rw [h.eq_of_conflicts (List.mem_of_find?_eq_some hfound) ha hconflict]

/-! ## Additions in any mixture -/

/-- An addition to a ledger: of one annotation, or of several. -/
inductive Addition where
  | one (added : Annotation)
  | several (added : List Annotation)

/-- The annotations of an addition. -/
def Addition.content : Addition → List Annotation
  | .one a => [a]
  | .several as => as

/-- The ledger after an addition. -/
def after (l : Ledger) : Addition → Ledger
  | .one a => l.add a
  | .several as => l.extend as

/-- The ledger that is made of a sequence, and then after some additions. -/
def run (first : List Annotation) (additions : List Addition) : Ledger :=
  additions.foldl after (ofList first)

/-- All that is added in a run, in order. -/
def log (first : List Annotation) (additions : List Addition) : List Annotation :=
  first ++ additions.flatMap Addition.content

theorem after_eq_extend (l : Ledger) (addition : Addition) :
    l.after addition = l.extend addition.content := by
  cases addition <;> rfl

/-- A run makes the ledger of its log. -/
theorem run_eq_ofList (first : List Annotation) (additions : List Addition) :
    run first additions = ofList (log first additions) := by
  induction additions using List.reverseRecOn with
  | nil => simp [run, log]
  | append_singleton additions addition ih =>
    have hstep : run first (additions ++ [addition]) =
        (run first additions).after addition := by
      simp [run]
    have hlog : log first (additions ++ [addition]) =
        log first additions ++ addition.content := by
      simp [log]
    rw [hstep, ih, after_eq_extend, hlog, ofList, ofList, extend, extend, extend,
      List.foldl_append]

/-- After any additions a ledger has exactly those annotations of its log of which no later one has
the same target and a conflicting kind, in the order of the log. One more addition evicts a single
annotation at most and takes nothing else away, in the ledger as in a table by kind and target. An
annotation is found under its kind and target exactly if it survives. -/
theorem run_latestWins (first : List Annotation) (additions : List Addition) :
    let added := log first additions
    let l := run first additions
    l.entries = ((List.finRange added.length).filter (Survives added ·)).map added.get ∧
    (∀ a, (l.evictedBy a).length ≤ 1 ∧
      (∃ before after, l.entries = before ++ l.evictedBy a ++ after ∧
        (l.add a).entries = before ++ after ++ [a]) ∧
      l.addByKey a = (l.evictedBy a, l.add a)) ∧
    ∀ kind target a, l.get? kind target = some a ↔
      (∃ i, Survives added i ∧ added.get i = a) ∧ a.kind = kind ∧ a.target = target := by
  intro added l
  have hlist : l = ofList added := run_eq_ofList first additions
  have hentries : l.entries =
      ((List.finRange added.length).filter (Survives added ·)).map added.get := by
    rw [hlist, entries_ofList, survivors_eq_map]
  have hsettled : l.Settled := by
    rw [hlist]
    exact entries_pairwise added
  have hmem : ∀ a, a ∈ l.entries ↔ ∃ i, Survives added i ∧ added.get i = a := by
    intro a
    simp [hentries]
  refine ⟨hentries, ?_, ?_⟩
  · intro a
    obtain ⟨hlength, hplaces⟩ := hsettled.evictedBy_spec a
    exact ⟨hlength, hplaces, hsettled.addByKey_eq a⟩
  · intro kind target a
    rw [hsettled.get?_eq_some_iff, hmem]

end Ledger

end ApiEvolution
