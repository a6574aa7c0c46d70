import ApiEvolution.Proofs.Migration
import ApiEvolution.Proofs.TodoBoard

/-!
# Review notes of a migration

Where an element was split, or several became several others, a migration leaves notes.

* `NeedsReview` says which targets of a mapping get notes, and `noteTexts` what they say.
* `unsure_of_migrate`: the annotations to be reviewed are those of a board on which every annotation
  has left its notes.
* `target_mem_flatMap_notesLeft_iff` and `textsOn_notesLeft` say which targets are on the board and
  with which texts.

`migrate_reviews` puts these together.
-/

namespace ApiEvolution

/-! ## Targets that need review -/

/-- It is in doubt what a target of a mapping inherits. -/
inductive Mapping.NeedsReview (m : Mapping) (target : String) : Prop
  /-- The element was split, and this is not its most similar part. -/
  | part : m.multiplicity = .oneToMany → target ∈ m.targets.tail → NeedsReview m target
  /-- Several elements became several others, and this is one of them. -/
  | several : m.multiplicity = .manyToMany → target ∈ m.targets → NeedsReview m target

/-- The texts of the notes that the annotations on the sources of a mapping leave, each once and in
the order of the annotations. -/
def Mapping.noteTexts (m : Mapping) (annotations : List Annotation) : List String :=
  ((annotations.filter fun a => a.target ∈ m.sources).map fun a => todoText a m.targets).eraseDups

namespace Mapping

variable {m : Mapping} {target : String}

theorem NeedsReview.mem_targets (h : m.NeedsReview target) : target ∈ m.targets := by
  cases h with
  | part _ hmem => exact List.mem_of_mem_tail hmem
  | several _ hmem => exact hmem

theorem fate_candidates (m : Mapping) : m.fate.candidates = m.targets := by
  obtain ⟨kind, sides, similarity⟩ := m
  cases sides <;> rfl

theorem fate_noted_sublist (m : Mapping) : m.fate.noted.Sublist m.targets := by
  obtain ⟨kind, sides, similarity⟩ := m
  cases sides with
  | oneToOne s t => exact List.nil_sublist _
  | manyToOne ss t => exact List.nil_sublist _
  | oneToMany s ts => exact List.tail_sublist ts
  | manyToMany ss ts => exact List.Sublist.refl ts

theorem mem_fate_noted_iff : target ∈ m.fate.noted ↔ m.NeedsReview target := by
  obtain ⟨kind, sides, similarity⟩ := m
  constructor
  · intro h
    cases sides with
    | oneToOne s t => cases h
    | manyToOne ss t => cases h
    | oneToMany s ts => exact .part rfl h
    | manyToMany ss ts => exact .several rfl h
  · intro h
    cases h with
    | part hmult hmem =>
      cases sides with
      | oneToMany s ts => exact hmem
      | _ => cases hmult
    | several hmult hmem =>
      cases sides with
      | manyToMany ss ts => exact hmem
      | _ => cases hmult

end Mapping

/-! ## The notes that are left -/

variable {set : MappingSet} {new : Snapshot} {author target : String} {m : Mapping}

variable (set) in
/-- The notes that an annotation leaves, each with its target. -/
def notesLeft (a : Annotation) : List (String × String) :=
  match set.forSource? a.target with
  | none => []
  | some m => m.fate.noted.map fun t => (t, todoText a m.fate.candidates)

namespace Migration

@[simp] theorem board_settle (m : Migration) (a : Annotation) (target : String) :
    (m.settle new author a target).board = m.board := by
  rw [settle]
  cases carry? new author a target <;> rfl

theorem board_note (m : Migration) (a : Annotation) (targets candidates : List String) :
    (m.note a targets candidates).board =
      m.board.extend (targets.map fun t => (t, todoText a candidates)) := by
  rw [TodoBoard.extend, List.foldl_map]
  rfl

/-- A step leaves the notes of its annotation. -/
theorem step_board (m : Migration) (a : Annotation) :
    (step set new author m a).board = m.board.extend (notesLeft set a) := by
  rw [step, notesLeft]
  cases set.forSource? a.target with
  | none => rfl
  | some mapping =>
    simp only [board_note]
    cases mapping.fate.heir with
    | none => rfl
    | some target => simp only [board_settle]

theorem foldl_step_board (annotations : List Annotation) (m : Migration) :
    (annotations.foldl (step set new author) m).board =
      m.board.extend (annotations.flatMap (notesLeft set)) := by
  induction annotations generalizing m with
  | nil => rfl
  | cons a rest ih =>
    rw [List.foldl_cons, ih, step_board, List.flatMap_cons, TodoBoard.extend_append]

end Migration

/-- The annotations to be reviewed are those of the notes that all annotations leave. -/
theorem unsure_of_migrate {previous : Ledger} {r : MigrationResult}
    (h : migrate previous set new author = .ok r) :
    r.unsure.entries =
      ((previous.entries.flatMap (notesLeft set)).map Prod.fst).eraseDups.map fun t =>
        reviewNote author t (TodoBoard.textsOn (previous.entries.flatMap (notesLeft set)) t) := by
  obtain ⟨⟨⟩, -, hr⟩ := bind_eq_ok_iff.1 h
  cases hr
  rw [← TodoBoard.entries_ofList_toAnnotations, Migration.foldl_step_board]
  rfl

/-- An annotation leaves notes on the targets that need review on its mapping. -/
theorem target_mem_notesLeft_iff (hset : set.Partitioned) {a : Annotation} :
    target ∈ (notesLeft set a).map Prod.fst ↔
      ∃ m ∈ set.mappings, m.NeedsReview target ∧ a.target ∈ m.sources := by
  rw [notesLeft]
  cases hfound : set.forSource? a.target with
  | none =>
    have homits := MappingSet.forSource?_eq_none_iff.1 hfound
    refine iff_of_false List.not_mem_nil ?_
    rintro ⟨m, hm, -, hsource⟩
    exact homits m hm hsource
  | some m =>
    obtain ⟨hm, hsource⟩ := (MappingSet.forSource?_eq_some_iff hset).1 hfound
    have hfst : (m.fate.noted.map fun t => (t, todoText a m.fate.candidates)).map Prod.fst =
        m.fate.noted := by
      rw [List.map_map]
      exact List.map_id _
    simp only [hfst, Mapping.mem_fate_noted_iff]
    constructor
    · exact fun hreview => ⟨m, hm, hreview, hsource⟩
    · rintro ⟨m', hm', hreview, hsource'⟩
      have heq : m = m' := MappingSet.eq_of_mem_sources hset hm hm' hsource hsource'
      rw [heq]
      exact hreview

/-- Notes are left on the targets that need review on a mapping with an annotated source. -/
theorem target_mem_flatMap_notesLeft_iff (hset : set.Partitioned) {annotations : List Annotation} :
    target ∈ (annotations.flatMap (notesLeft set)).map Prod.fst ↔
      ∃ m ∈ set.mappings, m.NeedsReview target ∧ ∃ a ∈ annotations, a.target ∈ m.sources := by
  rw [List.map_flatMap, List.mem_flatMap]
  simp only [target_mem_notesLeft_iff hset]
  constructor
  · rintro ⟨a, ha, m, hm, hreview, hsource⟩
    exact ⟨m, hm, hreview, a, ha, hsource⟩
  · rintro ⟨m, hm, hreview, a, ha, hsource⟩
    exact ⟨a, ha, m, hm, hreview, hsource⟩

theorem filter_eq_singleton {α : Type} [DecidableEq α] {xs : List α} {x : α} (hxs : xs.Nodup)
    (hx : x ∈ xs) : xs.filter (fun y => y = x) = [x] := by
  rw [List.filter_eq, List.count_eq_one_of_mem hxs hx]
  rfl

/-- On a target that needs review each annotation on a source of the mapping leaves one text, and no
other annotation leaves any. -/
theorem filter_notesLeft (hset : set.Partitioned) (hm : m ∈ set.mappings) (hnodup : m.targets.Nodup)
    (hreview : m.NeedsReview target) (a : Annotation) :
    ((notesLeft set a).filter fun p => p.1 = target) =
      if a.target ∈ m.sources then [(target, todoText a m.targets)] else [] := by
  have hfilter : ∀ (ts : List String) (text : String),
      ((ts.map fun t => (t, text)).filter fun p => p.1 = target) =
        (ts.filter fun t => t = target).map fun t => (t, text) := fun _ _ => List.filter_map
  by_cases hsource : a.target ∈ m.sources
  · have hfound : set.forSource? a.target = some m :=
      (MappingSet.forSource?_eq_some_iff hset).2 ⟨hm, hsource⟩
    have hnoted : (m.fate.noted.filter fun t => t = target) = [target] :=
      filter_eq_singleton (hnodup.sublist m.fate_noted_sublist)
        (Mapping.mem_fate_noted_iff.2 hreview)
    rw [if_pos hsource, notesLeft, hfound]
    simp only [hfilter, hnoted, List.map_singleton, Mapping.fate_candidates]
  · rw [if_neg hsource, List.filter_eq_nil_iff]
    intro p hp
    rw [decide_eq_true_iff]
    rintro rfl
    -- no other mapping has the target, so that its notes are about sources of `m` only
    obtain ⟨m', hm', hreview', hsource'⟩ :=
      (target_mem_notesLeft_iff hset).1 (List.mem_map_of_mem hp)
    have heq : m' = m := MappingSet.eq_of_mem_targets hset hm' hm
      hreview'.mem_targets hreview.mem_targets
    rw [heq] at hsource'
    exact hsource hsource'

/-- The texts on a target that needs review are those of the annotations on the sources of its
mapping. -/
theorem textsOn_notesLeft (hset : set.Partitioned) (hm : m ∈ set.mappings)
    (hnodup : m.targets.Nodup) (hreview : m.NeedsReview target) (annotations : List Annotation) :
    TodoBoard.textsOn (annotations.flatMap (notesLeft set)) target = m.noteTexts annotations := by
  have hposts : ((annotations.flatMap (notesLeft set)).filter fun p => p.1 = target) =
      (annotations.filter fun a => a.target ∈ m.sources).map fun a =>
        (target, todoText a m.targets) := by
    induction annotations with
    | nil => rfl
    | cons a rest ih =>
      rw [List.flatMap_cons, List.filter_append, ih, filter_notesLeft hset hm hnodup hreview]
      by_cases hsource : a.target ∈ m.sources
      · rw [if_pos hsource, List.filter_cons_of_pos (by simpa using hsource)]
        rfl
      · rw [if_neg hsource, List.filter_cons_of_neg (by simpa using hsource)]
        rfl
  rw [TodoBoard.textsOn, hposts, List.map_map]
  rfl

/-! ## The result -/

/-- A target that needs review is not an heir. -/
theorem Mapping.NeedsReview.not_inherits (hset : set.Partitioned) (hm : m ∈ set.mappings)
    (hnodup : m.targets.Nodup) (hreview : m.NeedsReview target) (id : String) :
    ¬ set.Inherits id target := by
  rintro ⟨m', hm', -, hmult, hhead⟩
  have heq : m' = m := MappingSet.eq_of_mem_targets hset hm' hm
    (List.mem_of_head? hhead) hreview.mem_targets
  subst heq
  cases hreview with
  | several hmany _ => exact hmult hmany
  | part _ htail =>
    obtain ⟨ts, hts⟩ := List.head?_eq_some_iff.1 hhead
    rw [hts] at hnodup htail
    exact (List.nodup_cons.1 hnodup).1 htail

/-- What is carried over in a migration comes from an annotation before it. -/
theorem exists_carriedOver_of_mem_confident {previous : Ledger} {r : MigrationResult}
    (hset : set.Partitioned) (h : migrate previous set new author = .ok r) {b : Annotation}
    (hb : b ∈ r.confident.entries) : ∃ a ∈ previous.entries, CarriedOver set new author a b := by
  obtain ⟨hvalid, hconfident, -⟩ := of_migrate h
  rw [hconfident, Ledger.entries_ofList] at hb
  obtain ⟨a, ha, hcarried⟩ := List.mem_filterMap.1 ((Ledger.survivors_sublist _).subset hb)
  exact ⟨a, ha, (carried?_eq_some_iff hset hvalid).1 hcarried⟩

/-- A result has one annotation to be reviewed for each target that needs review, and no others. -/
structure MigrationResult.Reviews (r : MigrationResult) (previous : Ledger) (set : MappingSet)
    (author : String) : Prop where
  /-- Where a source of the mapping was annotated, the annotation has the notes on all of these. -/
  one : ∀ m ∈ set.mappings, ∀ target, m.NeedsReview target →
    (∃ a ∈ previous.entries, a.target ∈ m.sources) →
      (r.unsure.entries.filter fun b => b.target = target) =
        [reviewNote author target (m.noteTexts previous.entries)]
  only : ∀ b ∈ r.unsure.entries, ∃ m ∈ set.mappings, m.NeedsReview b.target ∧
    ∃ a ∈ previous.entries, a.target ∈ m.sources
  apart : ∀ b ∈ r.confident.entries, ∀ b' ∈ r.unsure.entries, b.target ≠ b'.target

/-- A migration leaves notes for review exactly where it is in doubt what is inherited, and carries
nothing over to there. -/
theorem migrate_reviews {previous : Ledger} {r : MigrationResult} (hset : set.Built)
    (hnodup : ∀ m ∈ set.mappings, m.targets.Nodup)
    (h : migrate previous set new author = .ok r) : r.Reviews previous set author := by
  have hpart := hset.partitioned
  have hunsure := unsure_of_migrate h
  have honly : ∀ b ∈ r.unsure.entries, ∃ m ∈ set.mappings, m.NeedsReview b.target ∧
      ∃ a ∈ previous.entries, a.target ∈ m.sources := by
    intro b hb
    rw [hunsure] at hb
    obtain ⟨t, ht, rfl⟩ := List.mem_map.1 hb
    exact (target_mem_flatMap_notesLeft_iff hpart).1 (List.mem_eraseDups.1 ht)
  refine ⟨?_, honly, ?_⟩
  · intro m hm target hreview hsource
    have hmem := List.mem_eraseDups.2
      ((target_mem_flatMap_notesLeft_iff hpart).2 ⟨m, hm, hreview, hsource⟩)
    have hfilter := filter_eq_singleton (nodup_eraseDups _) hmem
    rw [hunsure, List.filter_map]
    have hcomp : ((fun b : Annotation => decide (b.target = target)) ∘ fun t =>
        reviewNote author t (TodoBoard.textsOn (previous.entries.flatMap (notesLeft set)) t)) =
          fun t => decide (t = target) := rfl
    rw [hcomp, hfilter, List.map_singleton,
      textsOn_notesLeft hpart hm (hnodup m hm) hreview]
  · intro b hb b' hb' heq
    obtain ⟨m, hm, hreview, -⟩ := honly b' hb'
    obtain ⟨a, -, hcarried⟩ := exists_carriedOver_of_mem_confident hpart h hb
    exact hreview.not_inherits hpart hm (hnodup m hm) a.target (heq ▸ hcarried.inherits)

/-- A class that was split in two, and two functions that became two others. -/
def splitting : MappingSet :=
  ⟨[⟨.classKind, .oneToMany "lib/a" ["lib/b", "lib/c"], 1⟩,
    ⟨.functionKind, .manyToMany ["lib/f", "lib/g"] ["lib/h", "lib/i"], 1⟩]⟩

/-- Annotations before the split. -/
def beforeSplit : Ledger :=
  .ofList [.ofPayload "lib/f" "x" .remove, .ofPayload "lib/a" "x" .expert,
    .ofPayload "lib/g" "y" .expert, .ofPayload "lib/a" "y" .required]

/-- The more similar part of the class has the annotations of the class, the other one has a note on
each of them, and each of the two functions one on each annotation of the functions before. -/
def afterSplit : MigrationResult where
  confident := ⟨[⟨"lib/b", ["x", "m"], [], "", .none, .expert⟩,
    ⟨"lib/b", ["y", "m"], [], "", .none, .required⟩]⟩
  unsure := ⟨["lib/h", "lib/i"].map (fun id => reviewNote "m" id
      [todoText (.ofPayload "lib/f" "x" .remove) ["lib/h", "lib/i"],
        todoText (.ofPayload "lib/g" "y" .expert) ["lib/h", "lib/i"]]) ++
    [reviewNote "m" "lib/c" [todoText (.ofPayload "lib/a" "x" .expert) ["lib/b", "lib/c"],
      todoText (.ofPayload "lib/a" "y" .required) ["lib/b", "lib/c"]]]⟩
  dropped := 0

theorem migrate_reviews_splitting :
    migrate beforeSplit splitting (merged.addClass { id := "lib/b", qname := "lib.b" }) "m" =
        .ok afterSplit ∧ afterSplit.Reviews beforeSplit splitting "m" := by
  have hrun : migrate beforeSplit splitting
      (merged.addClass { id := "lib/b", qname := "lib.b" }) "m" = .ok afterSplit :=
    eq_ok_of_toOption_eq_some (by decide +kernel)
  exact ⟨hrun, migrate_reviews (by decide +kernel) (by decide +kernel) hrun⟩

end ApiEvolution
