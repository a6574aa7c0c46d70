import Mathlib.Data.List.Induction
import Mathlib.Data.List.Nodup
import Mathlib.Data.List.Pairwise
import Mathlib.Tactic.Common
import ApiEvolution.Mapping.Basic
import ApiEvolution.Snapshot.Document

/-!
# Mapping sets keep their sides apart

A set that is made by pushing never has an identity on the same side of two mappings.

* `push_eq_ok_iff` says when a mapping is accepted, and `Partitioned.push` that the sides stay
  apart; `built_iff_partitioned` is the result for every set that can be made.
* `ofList_eq_ok_iff` says when a whole list is accepted.
* In such a set looking an identity up gives the one mapping that has it
  (`forSide?_eq_some_iff`).
* `validate_eq_ok_iff` says what it means that a set fits two snapshots.
-/

namespace ApiEvolution

/-! ## Sides of a mapping -/

/-- The one of two things that belongs to a side. -/
def Side.choose {α : Type} (side : Side) (old new : α) : α :=
  match side with
  | .source => old
  | .target => new

/-- The identities on one side of a mapping. -/
def Mapping.ids (m : Mapping) : Side → List String
  | .source => m.sources
  | .target => m.targets

/-- Two mappings share no identity on a side. -/
def Mapping.Apart (m m' : Mapping) : Prop :=
  ∀ side, (m.ids side).Disjoint (m'.ids side)

theorem Mapping.Apart.symm {m m' : Mapping} (h : m.Apart m') : m'.Apart m :=
  fun side _ hid' hid => h side hid hid'

instance : Std.Symm Mapping.Apart :=
  ⟨fun _ _ => Mapping.Apart.symm⟩

theorem Mapping.apart_iff {m m' : Mapping} :
    m.Apart m' ↔ (∀ id ∈ m.sources, id ∉ m'.sources) ∧ ∀ id ∈ m.targets, id ∉ m'.targets := by
  constructor
  · intro h
    exact ⟨fun id hid hid' => h .source hid hid', fun id hid hid' => h .target hid hid'⟩
  · rintro ⟨hs, ht⟩ side id
    cases side with
    | source => exact hs id
    | target => exact ht id

instance : DecidableRel Mapping.Apart :=
  fun _ _ => decidable_of_iff _ Mapping.apart_iff.symm

/-- Mappings do not overlap if no identity is twice on a side of all of them. -/
theorem Mapping.pairwise_apart_of_nodup {ms : List Mapping}
    (h : ∀ side, (ms.flatMap fun m => m.ids side).Nodup) : ms.Pairwise Mapping.Apart := by
  have hsource := (List.nodup_flatMap.1 (h .source)).2
  have htarget := (List.nodup_flatMap.1 (h .target)).2
  refine (hsource.and htarget).imp ?_
  intro m m' hapart side
  cases side with
  | source => exact hapart.1
  | target => exact hapart.2

namespace MappingSet

variable {s s' : MappingSet} {m : Mapping} {side : Side} {id : String}

/-! ## Looking identities up -/

/-- The mapping that has an identity on a side. -/
def forSide? (s : MappingSet) : Side → String → Option Mapping
  | .source => s.forSource?
  | .target => s.forTarget?

theorem forSide?_eq_find? (s : MappingSet) (side : Side) (id : String) :
    s.forSide? side id = s.mappings.find? fun m => (m.ids side).contains id := by
  cases side <;> rfl

theorem mem_of_forSide? (h : s.forSide? side id = some m) : m ∈ s.mappings ∧ id ∈ m.ids side := by
  rw [forSide?_eq_find?] at h
  exact ⟨List.mem_of_find?_eq_some h, by simpa using List.find?_some h⟩

theorem forSide?_eq_none_iff : s.forSide? side id = none ↔ ∀ m ∈ s.mappings, id ∉ m.ids side := by
  rw [forSide?_eq_find?, List.find?_eq_none]
  simp

/-! ## Sets without overlap -/

/-- No two mappings of the set share an identity on a side. -/
def Partitioned (s : MappingSet) : Prop :=
  s.mappings.Pairwise Mapping.Apart

/-- In a set without overlap an identity is found in the one mapping that has it. -/
theorem forSide?_eq_some_iff (h : s.Partitioned) :
    s.forSide? side id = some m ↔ m ∈ s.mappings ∧ id ∈ m.ids side := by
  refine ⟨mem_of_forSide?, ?_⟩
  rintro ⟨hm, hid⟩
  cases hf : s.forSide? side id with
  | none => exact absurd hid (forSide?_eq_none_iff.1 hf m hm)
  | some m' =>
    obtain ⟨hm', hid'⟩ := mem_of_forSide? hf
    by_contra hne
    have hne' : m' ≠ m := fun heq => hne (congrArg some heq)
    exact List.Pairwise.forall h hm' hm hne' side hid' hid

theorem eq_of_mem_ids (h : s.Partitioned) {m' : Mapping} (hm : m ∈ s.mappings)
    (hm' : m' ∈ s.mappings) (hid : id ∈ m.ids side) (hid' : id ∈ m'.ids side) : m = m' := by
  have hfound : s.forSide? side id = some m := (forSide?_eq_some_iff h).2 ⟨hm, hid⟩
  rw [(forSide?_eq_some_iff h).2 ⟨hm', hid'⟩] at hfound
  exact (Option.some_inj.1 hfound).symm

theorem eq_of_mem_sources (h : s.Partitioned) {m' : Mapping} (hm : m ∈ s.mappings)
    (hm' : m' ∈ s.mappings) (hid : id ∈ m.sources) (hid' : id ∈ m'.sources) : m = m' := by
  have hside : id ∈ m.ids .source := hid
  exact eq_of_mem_ids h hm hm' hside hid'

theorem eq_of_mem_targets (h : s.Partitioned) {m' : Mapping} (hm : m ∈ s.mappings)
    (hm' : m' ∈ s.mappings) (hid : id ∈ m.targets) (hid' : id ∈ m'.targets) : m = m' := by
  have hside : id ∈ m.ids .target := hid
  exact eq_of_mem_ids h hm hm' hside hid'

theorem forSource?_eq_some_iff (h : s.Partitioned) :
    s.forSource? id = some m ↔ m ∈ s.mappings ∧ id ∈ m.sources := by
  have hside : s.forSide? .source id = some m ↔ m ∈ s.mappings ∧ id ∈ m.ids .source :=
    forSide?_eq_some_iff h
  exact hside

theorem forSource?_eq_none_iff : s.forSource? id = none ↔ ∀ m ∈ s.mappings, id ∉ m.sources := by
  have hside : s.forSide? .source id = none ↔ ∀ m ∈ s.mappings, id ∉ m.ids .source :=
    forSide?_eq_none_iff
  exact hside

theorem maps_iff {source target : String} :
    s.maps source target = true ↔ ∃ m ∈ s.mappings, source ∈ m.sources ∧ target ∈ m.targets := by
  simp [maps]

theorem nodup_flatMap_ids (h : s.Partitioned) (hm : ∀ m ∈ s.mappings, (m.ids side).Nodup) :
    (s.mappings.flatMap fun m => m.ids side).Nodup :=
  List.nodup_flatMap.2 ⟨hm, h.imp fun hab => hab side⟩

/-! ## Pushing -/

theorem obstacle?_eq_none_iff : s.obstacle? m = none ↔ ∀ m' ∈ s.mappings, m'.Apart m := by
  have hside : ∀ side, (m.ids side).find? (fun id => (s.forSide? side id).isSome) = none ↔
      ∀ m' ∈ s.mappings, (m'.ids side).Disjoint (m.ids side) := by
    intro side
    simp only [List.find?_eq_none, Option.not_isSome_iff_eq_none, forSide?_eq_none_iff]
    exact ⟨fun h m' hm' id hid' hid => h id hid m' hm' hid',
      fun h id hid m' hm' hid' => h m' hm' hid' hid⟩
  have hboth : s.obstacle? m = none ↔
      (m.ids .source).find? (fun id => (s.forSide? .source id).isSome) = none ∧
        (m.ids .target).find? (fun id => (s.forSide? .target id).isSome) = none := by
    simp [obstacle?, Mapping.ids, forSide?]
  rw [hboth, hside, hside, ← forall₂_and]
  exact forall₂_congr fun m' _ => Mapping.apart_iff.symm

/-- A mapping is accepted exactly if it shares no identity on a side with those in the set; it is
put at the end. -/
theorem push_eq_ok_iff :
    s.push m = .ok s' ↔ (∀ m' ∈ s.mappings, m'.Apart m) ∧ s' = ⟨s.mappings ++ [m]⟩ := by
  rw [← obstacle?_eq_none_iff, push]
  cases s.obstacle? m with
  | none => simp [eq_comm]
  | some cause => simp

theorem Partitioned.push (h : s.Partitioned) (hpush : s.push m = .ok s') : s'.Partitioned := by
  obtain ⟨hapart, rfl⟩ := push_eq_ok_iff.1 hpush
  refine List.pairwise_append.2 ⟨h, List.pairwise_singleton _ m, ?_⟩
  intro a ha b hb
  rw [List.mem_singleton.1 hb]
  exact hapart a ha

/-- The sets that are made by pushing. -/
inductive Built : MappingSet → Prop
  | empty : Built .empty
  | push {s s' : MappingSet} {m : Mapping} : Built s → s.push m = .ok s' → Built s'

/-- Whatever is pushed, no two mappings of the set overlap. -/
theorem Built.partitioned (h : s.Built) : s.Partitioned := by
  induction h with
  | empty => exact List.Pairwise.nil
  | push _ hpush ih => exact ih.push hpush

/-- All of a list is accepted exactly if nothing overlaps in the end; it is put at the end. -/
theorem extend_eq_iff {ms : List Mapping} (h : s.Partitioned) :
    s.extend ms = (s', none) ↔
      (s.mappings ++ ms).Pairwise Mapping.Apart ∧ s' = ⟨s.mappings ++ ms⟩ := by
  induction ms generalizing s with
  | nil =>
    have hs : s.mappings.Pairwise Mapping.Apart := h
    simp [MappingSet.extend, hs, eq_comm]
  | cons m rest ih =>
    have hassoc : s.mappings ++ m :: rest = (s.mappings ++ [m]) ++ rest := by simp
    rw [MappingSet.extend, hassoc]
    cases hpush : s.push m with
    | ok more =>
      have hmore : more = ⟨s.mappings ++ [m]⟩ := (push_eq_ok_iff.1 hpush).2
      subst hmore
      exact ih (h.push hpush)
    | error cause =>
      have hnot : ¬ ((s.mappings ++ [m]) ++ rest).Pairwise Mapping.Apart := by
        intro hall
        have hapart : ∀ m' ∈ s.mappings, m'.Apart m := fun m' hm' =>
          (List.pairwise_append.1 (List.pairwise_append.1 hall).1).2.2 m' hm' m (by simp)
        rw [push_eq_ok_iff.2 ⟨hapart, rfl⟩] at hpush
        cases hpush
      exact iff_of_false (fun heq => by cases heq) fun hall => hnot hall.1

/-- The set of a list has the mappings of the list, and there is one unless they overlap. -/
theorem ofList_eq_ok_iff {ms : List Mapping} :
    ofList ms = .ok s ↔ ms.Pairwise Mapping.Apart ∧ s = ⟨ms⟩ := by
  have hext : ∀ s', empty.extend ms = (s', none) ↔ ms.Pairwise Mapping.Apart ∧ s' = ⟨ms⟩ :=
    fun _ => extend_eq_iff List.Pairwise.nil
  rw [ofList, ← hext]
  split
  · next s₀ hs₀ => simp [hs₀]
  · next s₀ cause hs₀ => simp [hs₀]

/-- Pushing the mappings of a set without overlap one by one makes the set. -/
theorem Partitioned.built (h : s.Partitioned) : s.Built := by
  obtain ⟨ms⟩ := s
  induction ms using List.reverseRecOn with
  | nil => exact .empty
  | append_singleton ms m ih =>
    obtain ⟨hms, -, hcross⟩ := List.pairwise_append.1 h
    exact .push (ih hms)
      (push_eq_ok_iff.2 ⟨fun m' hm' => hcross m' hm' m (List.mem_singleton_self m), rfl⟩)

/-- The sets that are made by pushing are those without overlap. -/
theorem built_iff_partitioned : s.Built ↔ s.Partitioned :=
  ⟨Built.partitioned, Partitioned.built⟩

instance (s : MappingSet) : Decidable s.Built :=
  decidable_of_iff (s.mappings.Pairwise Mapping.Apart) built_iff_partitioned.symm

/-! ## Fitting the snapshots -/

theorem memberFault?_eq_none_iff {snapshot : Snapshot} {kind : ElementKind} :
    memberFault? snapshot side kind id = none ↔ snapshot.declares kind id = true := by
  rw [memberFault?, Snapshot.declares]
  cases snapshot.element? id with
  | none => simp
  | some e => simp

theorem refuse_eq_ok_iff {fault : Option Inconsistency} : refuse fault = .ok () ↔ fault = none := by
  cases fault <;> simp [refuse]

/-- A set fits two snapshots if every identity is declared on its side with the kind of its
mapping. -/
theorem validate_eq_ok_iff {old new : Snapshot} :
    s.validate old new = .ok () ↔ ∀ m ∈ s.mappings, ∀ side, ∀ id ∈ m.ids side,
      (side.choose old new).declares m.kind id = true := by
  have hsides : ∀ m : Mapping, (∀ side, ∀ id ∈ m.ids side,
      (side.choose old new).declares m.kind id = true) ↔
        (∀ id ∈ m.sources, old.declares m.kind id = true) ∧
          ∀ id ∈ m.targets, new.declares m.kind id = true := fun m =>
    ⟨fun h => ⟨h .source, h .target⟩, fun h side => by
      cases side with
      | source => exact h.1
      | target => exact h.2⟩
  simp [hsides, validate, refuse_eq_ok_iff, sourceFault?, targetFault?, memberFault?_eq_none_iff]

theorem validateTargets_eq_ok_iff {new : Snapshot} :
    s.validateTargets new = .ok () ↔
      ∀ m ∈ s.mappings, ∀ id ∈ m.targets, new.declares m.kind id = true := by
  simp [validateTargets, refuse_eq_ok_iff, targetFault?, memberFault?_eq_none_iff]

end MappingSet

end ApiEvolution
