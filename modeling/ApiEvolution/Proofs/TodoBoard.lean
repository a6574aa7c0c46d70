import Mathlib.Data.List.Induction
import Mathlib.Data.List.Nodup
import Mathlib.Tactic.Common
import ApiEvolution.Proofs.Ledger
import ApiEvolution.Migration.TodoBoard

/-!
# Boards group notes by target

Leaving notes one after the other groups them by target: the board has every target once, in the
order of the first notes, and with it the texts that were left on the target, each once and in their
order (`notes_extend_empty`). The annotations of a board are on different targets, so that none of
them evicts another one (`entries_ofList_toAnnotations`).
-/

namespace ApiEvolution

/-! ## Lists without repetition -/

section

variable {α : Type} [DecidableEq α]

/-- An element at the end of a list is kept if it is new. -/
theorem eraseDups_concat (xs : List α) (x : α) :
    (xs ++ [x]).eraseDups = if x ∈ xs then xs.eraseDups else xs.eraseDups ++ [x] := by
  rw [List.eraseDups_append]
  by_cases hx : x ∈ xs
  · simp [List.removeAll, hx]
  · simp [List.removeAll, hx, List.eraseDups_cons]

theorem nodup_eraseDups (xs : List α) : xs.eraseDups.Nodup := by
  induction xs using List.reverseRecOn with
  | nil => exact List.nodup_nil
  | append_singleton xs x ih =>
    rw [eraseDups_concat]
    split
    · exact ih
    · next hx =>
      refine List.nodup_append.2 ⟨ih, List.nodup_singleton x, ?_⟩
      rintro y hy z hz rfl
      rw [List.mem_singleton.1 hz, List.mem_eraseDups] at hy
      exact hx hy

end

namespace TodoBoard

variable {posts : List (String × String)} {target text : String}

/-- Leave notes, each with its target, one after the other. -/
def extend (b : TodoBoard) (posts : List (String × String)) : TodoBoard :=
  posts.foldl (fun b p => b.push p.1 p.2) b

theorem extend_append (b : TodoBoard) (posts posts' : List (String × String)) :
    b.extend (posts ++ posts') = (b.extend posts).extend posts' :=
  List.foldl_append

/-- The texts that are left on a target, each once. -/
def textsOn (posts : List (String × String)) (target : String) : List String :=
  ((posts.filter fun p => p.1 = target).map Prod.snd).eraseDups

theorem textsOn_concat_self (posts : List (String × String)) (target text : String) :
    textsOn (posts ++ [(target, text)]) target =
      if text ∈ textsOn posts target then textsOn posts target
      else textsOn posts target ++ [text] := by
  have hlast : [(target, text)].filter (fun p => p.1 = target) = [(target, text)] := by simp
  rw [textsOn, List.filter_append, hlast, List.map_append, List.map_singleton, eraseDups_concat]
  simp only [textsOn, List.mem_eraseDups]

theorem textsOn_concat_of_ne {other : String} (h : target ≠ other) :
    textsOn (posts ++ [(target, text)]) other = textsOn posts other := by
  have hlast : [(target, text)].filter (fun p => p.1 = other) = [] := by simp [h]
  rw [textsOn, List.filter_append, hlast, List.append_nil, textsOn]

theorem textsOn_eq_nil (h : target ∉ posts.map Prod.fst) : textsOn posts target = [] := by
  have hnone : posts.filter (fun p => p.1 = target) = [] := by
    refine List.filter_eq_nil_iff.2 fun p hp => ?_
    rw [decide_eq_true_iff]
    rintro rfl
    exact h (List.mem_map_of_mem hp)
  rw [textsOn, hnone]
  rfl

/-! ## The notes of some targets -/

/-- The notes of some targets. -/
def notesOn (keys : List String) (posts : List (String × String)) : List (String × List String) :=
  keys.map fun t => (t, textsOn posts t)

variable {keys : List String}

theorem notesOn_cons (key : String) (keys : List String) (posts : List (String × String)) :
    notesOn (key :: keys) posts = (key, textsOn posts key) :: notesOn keys posts := rfl

/-- A note on another target changes nothing. -/
theorem notesOn_concat_of_not_mem (h : target ∉ keys) :
    notesOn keys (posts ++ [(target, text)]) = notesOn keys posts := by
  refine List.map_congr_left fun t ht => ?_
  have hne : target ≠ t := by
    rintro rfl
    exact h ht
  rw [textsOn_concat_of_ne hne]

/-- A note on one of the targets is put among those of the target. -/
theorem pushNote_notesOn_of_mem (hkeys : keys.Nodup) (h : target ∈ keys) :
    pushNote target text (notesOn keys posts) = notesOn keys (posts ++ [(target, text)]) := by
  induction keys with
  | nil => cases h
  | cons key rest ih =>
    obtain ⟨hkey, hrest⟩ := List.nodup_cons.1 hkeys
    rw [notesOn_cons, notesOn_cons, pushNote]
    by_cases heq : key = target
    · subst heq
      rw [if_pos rfl, notesOn_concat_of_not_mem hkey, textsOn_concat_self]
      by_cases htext : text ∈ textsOn posts key
      · rw [if_pos htext, if_pos htext]
      · rw [if_neg htext, if_neg htext]
    · have hmem : target ∈ rest := by
        rcases List.mem_cons.1 h with rfl | hmem
        · exact absurd rfl heq
        · exact hmem
      rw [if_neg heq, ih hrest hmem, textsOn_concat_of_ne (Ne.symm heq)]

/-- A note on another target is put behind those of the targets. -/
theorem pushNote_notesOn_of_not_mem (h : target ∉ keys) :
    pushNote target text (notesOn keys posts) = notesOn keys posts ++ [(target, [text])] := by
  induction keys with
  | nil => rfl
  | cons key rest ih =>
    have hne : key ≠ target := (List.ne_of_not_mem_cons h).symm
    rw [notesOn_cons, pushNote, if_neg hne, ih (List.not_mem_of_not_mem_cons h)]
    rfl

/-- A board has every target once, with the texts that were left on it. -/
theorem notes_extend_empty (posts : List (String × String)) :
    (empty.extend posts).notes = notesOn (posts.map Prod.fst).eraseDups posts := by
  induction posts using List.reverseRecOn with
  | nil => rfl
  | append_singleton posts p ih =>
    obtain ⟨target, text⟩ := p
    have hpush : (empty.extend (posts ++ [(target, text)])).notes =
        pushNote target text (empty.extend posts).notes := by
      rw [extend_append]
      rfl
    rw [hpush, ih, List.map_append, List.map_singleton, eraseDups_concat]
    by_cases hmem : target ∈ posts.map Prod.fst
    · rw [if_pos hmem]
      exact pushNote_notesOn_of_mem (nodup_eraseDups _) (List.mem_eraseDups.2 hmem)
    · have hkey : target ∉ (posts.map Prod.fst).eraseDups := fun h => hmem (List.mem_eraseDups.1 h)
      have hself : notesOn [target] (posts ++ [(target, text)]) = [(target, [text])] := by
        rw [notesOn_cons, textsOn_concat_self, textsOn_eq_nil hmem]
        rfl
      have happend : ∀ keys keys' posts, notesOn (keys ++ keys') posts =
          notesOn keys posts ++ notesOn keys' posts := fun _ _ _ => List.map_append
      rw [if_neg hmem, pushNote_notesOn_of_not_mem hkey, happend, notesOn_concat_of_not_mem hkey,
        hself]

end TodoBoard

/-! ## The annotations of a board -/

/-- The annotation that stands for the notes on a target. -/
def reviewNote (author target : String) (texts : List String) : Annotation where
  target := target
  authors := [author]
  reviewers := []
  comment := "ambiguous mapping"
  review := .unsure
  payload := .todo ("\n".intercalate texts)

namespace TodoBoard

/-- The annotations of a board are one for each target that got a note. -/
theorem toAnnotations_extend_empty (posts : List (String × String)) (author : String) :
    (empty.extend posts).toAnnotations author =
      (posts.map Prod.fst).eraseDups.map fun t => reviewNote author t (textsOn posts t) := by
  rw [toAnnotations, notes_extend_empty, notesOn, List.map_map]
  rfl

/-- The annotations of a board make a ledger without evicting each other. -/
theorem entries_ofList_toAnnotations (posts : List (String × String)) (author : String) :
    (Ledger.ofList ((empty.extend posts).toAnnotations author)).entries =
      (posts.map Prod.fst).eraseDups.map fun t => reviewNote author t (textsOn posts t) := by
  rw [Ledger.entries_ofList, toAnnotations_extend_empty]
  refine Ledger.survivors_eq_self (List.pairwise_map.2 ?_)
  refine (nodup_eraseDups (posts.map Prod.fst)).imp ?_
  intro t t' hne
  rw [← Bool.not_eq_true, Annotation.conflicts_iff]
  rintro ⟨htarget, -⟩
  exact hne htarget.symm

end TodoBoard

end ApiEvolution
