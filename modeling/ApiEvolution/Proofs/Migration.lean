import Mathlib.Data.List.Forall2
import ApiEvolution.Proofs.Carrying
import ApiEvolution.Proofs.Ledger
import ApiEvolution.Proofs.Outcome

/-!
# Migrating a whole ledger

Each step of a migration adds what it carries over to the ledger of confident annotations, or counts
an annotation that it drops (`step_confident`, `step_dropped`). A whole migration therefore makes
the ledger of everything that is carried over, in the order of the annotations, and counts
everything that is dropped (`of_migrate`). `migrate_carries` says the same without the functions
that compute it.
-/

namespace ApiEvolution

variable {set : MappingSet} {new : Snapshot} {author : String}

namespace Migration

variable {m : Migration} {a : Annotation}

@[simp] theorem confident_note (a : Annotation) (targets candidates : List String) :
    (m.note a targets candidates).confident = m.confident := rfl

@[simp] theorem dropped_note (a : Annotation) (targets candidates : List String) :
    (m.note a targets candidates).dropped = m.dropped := rfl

@[simp] theorem confident_drop : m.drop.confident = m.confident := rfl

@[simp] theorem dropped_drop : m.drop.dropped = m.dropped + 1 := rfl

theorem settle_confident (target : String) :
    (m.settle new author a target).confident =
      m.confident.extend (carry? new author a target).toList := by
  rw [settle]
  cases carry? new author a target <;> rfl

theorem settle_dropped (target : String) :
    (m.settle new author a target).dropped =
      m.dropped + (carry? new author a target).isNone.toNat := by
  rw [settle]
  cases carry? new author a target <;> rfl

/-- A step adds what is carried over of its annotation. -/
theorem step_confident :
    (step set new author m a).confident =
      m.confident.extend (carried? set new author a).toList := by
  rw [step, carried?, heir?]
  cases set.forSource? a.target with
  | none => rfl
  | some mapping =>
    cases hheir : mapping.fate.heir with
    | none => simp [hheir, Ledger.extend]
    | some target => simp [hheir, settle_confident]

/-- A step counts its annotation if this is dropped. -/
theorem step_dropped :
    (step set new author m a).dropped = m.dropped + (isLost set new author a).toNat := by
  rw [step, isLost, heir?]
  cases set.forSource? a.target with
  | none => rfl
  | some mapping =>
    cases hheir : mapping.fate.heir with
    | none => simp [hheir]
    | some target => simp [hheir, settle_dropped]

theorem foldl_step_confident (annotations : List Annotation) (m : Migration) :
    (annotations.foldl (step set new author) m).confident =
      m.confident.extend (annotations.filterMap (carried? set new author)) := by
  induction annotations generalizing m with
  | nil => rfl
  | cons a rest ih =>
    rw [List.foldl_cons, ih, step_confident]
    cases hcarried : carried? set new author a with
    | none => simp [hcarried, Ledger.extend]
    | some b => simp [hcarried, Ledger.extend]

theorem foldl_step_dropped (annotations : List Annotation) (m : Migration) :
    (annotations.foldl (step set new author) m).dropped =
      m.dropped + annotations.countP (isLost set new author) := by
  induction annotations generalizing m with
  | nil => rfl
  | cons a rest ih =>
    rw [List.foldl_cons, ih, step_dropped]
    cases hlost : isLost set new author a with
    | false => simp [hlost]
    | true =>
      simp only [List.countP_cons, hlost, Bool.toNat_true, if_true]
      omega

end Migration

/-! ## The result -/

/-- A migration succeeds if the new sides of the mappings fit the snapshot. -/
theorem exists_migrate (previous : Ledger) (hvalid : set.validateTargets new = .ok ()) :
    ∃ r, migrate previous set new author = .ok r :=
  ⟨_, bind_eq_ok_iff.2 ⟨(), hvalid, rfl⟩⟩

/-- A migration makes the ledger of what is carried over and counts what is dropped. -/
theorem of_migrate {previous : Ledger} {r : MigrationResult}
    (h : migrate previous set new author = .ok r) :
    set.validateTargets new = .ok () ∧
      r.confident = Ledger.ofList (previous.entries.filterMap (carried? set new author)) ∧
        r.dropped = previous.entries.countP (isLost set new author) := by
  obtain ⟨⟨⟩, hvalid, hr⟩ := bind_eq_ok_iff.1 h
  cases hr
  refine ⟨hvalid, Migration.foldl_step_confident _ _, ?_⟩
  exact (Migration.foldl_step_dropped _ _).trans (Nat.zero_add _)

/-! ## What is carried over and what is dropped -/

open Classical in
/-- A result has the latest of the annotations that are carried over, in the order in which they
were, and counts those that have no mapping or an heir that cannot hold them. -/
structure MigrationResult.Carries (r : MigrationResult) (previous : Ledger) (set : MappingSet)
    (new : Snapshot) (author : String) (carried : List Annotation) : Prop where
  carried_over : List.Forall₂ (CarriedOver set new author)
    (previous.entries.filter fun a =>
      ∃ heir, set.Inherits a.target heir ∧ new.CanHold heir a.kind) carried
  confident : r.confident.entries = Ledger.survivors carried
  dropped : r.dropped = (previous.entries.countP fun a => set.Omits a.target) +
    previous.entries.countP fun a =>
      ∃ heir, set.Inherits a.target heir ∧ ¬ new.CanHold heir a.kind

theorem forall₂_filter_filterMap {α β : Type} {f : α → Option β} {p : α → Bool}
    {R : α → β → Prop} (hp : ∀ a, p a = (f a).isSome) (hR : ∀ a b, f a = some b → R a b)
    (xs : List α) : List.Forall₂ R (xs.filter p) (xs.filterMap f) := by
  induction xs with
  | nil => exact .nil
  | cons a rest ih =>
    rw [List.filter_cons, List.filterMap_cons, hp]
    cases hf : f a with
    | none => exact ih
    | some b => exact .cons (hR a b hf) ih

theorem countP_or_of_disjoint {α : Type} {p q : α → Bool} (h : ∀ a, p a = true → q a = false)
    (xs : List α) : xs.countP (fun a => p a || q a) = xs.countP p + xs.countP q := by
  induction xs with
  | nil => rfl
  | cons a rest ih =>
    simp only [List.countP_cons, ih]
    cases hp : p a with
    | false => simp [Nat.add_assoc]
    | true =>
      simp only [h a hp, Bool.or_false, if_true, Bool.false_eq_true, if_false]
      omega

/-- A migration carries over all annotations that an heir can hold, and no others. -/
theorem migrate_carries {previous : Ledger} {r : MigrationResult} (hset : set.Built)
    (h : migrate previous set new author = .ok r) :
    ∃ carried, r.Carries previous set new author carried := by
  classical
  obtain ⟨hvalid, hconfident, hdropped⟩ := of_migrate h
  have hpart := hset.partitioned
  refine ⟨previous.entries.filterMap (carried? set new author), ?_, ?_, ?_⟩
  · refine forall₂_filter_filterMap ?_ ?_ previous.entries
    · intro a
      rw [Bool.eq_iff_iff, decide_eq_true_iff, isSome_carried?_iff hpart]
    · exact fun a b hb => (carried?_eq_some_iff hpart hvalid).1 hb
  · rw [hconfident, Ledger.entries_ofList]
  · rw [hdropped, ← countP_or_of_disjoint]
    · refine List.countP_congr fun a _ => ?_
      rw [isLost_iff hpart, Bool.or_eq_true, decide_eq_true_iff, decide_eq_true_iff]
    · intro a homits
      rw [decide_eq_true_iff] at homits
      rw [decide_eq_false_iff_not]
      rintro ⟨heir, ⟨m, hm, hid, -⟩, -⟩
      exact homits m hm hid

/-- Two classes that were merged into one, and two functions that became two others. -/
def merger : MappingSet :=
  ⟨[⟨.classKind, .manyToOne ["lib/a", "lib/b"] "lib/c", 1⟩,
    ⟨.functionKind, .manyToMany ["lib/f", "lib/g"] ["lib/h", "lib/i"], 1⟩]⟩

/-- The snapshot after the merger. -/
def merged : Snapshot :=
  ((({} : Snapshot).addClass { id := "lib/c", qname := "lib.c" }).addFunction
    { id := "lib/h", qname := "lib.h" }).addFunction { id := "lib/i", qname := "lib.i" }

/-- Annotations before the merger, one of which is on an element that is gone. -/
def beforeMerger : Ledger :=
  .ofList [.ofPayload "lib/a" "x" .remove, .ofPayload "lib/a" "x" (.rename "e"),
    .ofPayload "lib/b" "y" .required, .ofPayload "lib/z" "y" .expert]

/-- The removal of `a` loses against what is required of `b`, and the renaming of `a` is out of
date for `c`. -/
def afterMerger : MigrationResult where
  confident := ⟨[⟨"lib/c", ["x", "m"], [], renameComment "a" "c" "e", .unsure, .rename "e"⟩,
    ⟨"lib/c", ["y", "m"], [], "", .none, .required⟩]⟩
  unsure := .empty
  dropped := 1

theorem migrate_carries_merger :
    migrate beforeMerger merger merged "m" = .ok afterMerger ∧
      ∃ carried, afterMerger.Carries beforeMerger merger merged "m" carried := by
  have hrun : migrate beforeMerger merger merged "m" = .ok afterMerger :=
    eq_ok_of_toOption_eq_some (by decide +kernel)
  exact ⟨hrun, migrate_carries (by decide +kernel) hrun⟩

end ApiEvolution
