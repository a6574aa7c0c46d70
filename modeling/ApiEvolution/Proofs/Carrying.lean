import ApiEvolution.Migration.Basic
import ApiEvolution.Proofs.Declarations
import ApiEvolution.Proofs.MappingSet

/-!
# Carrying one annotation over

What a migration does with one annotation follows from the mappings, the new snapshot and the
annotation alone:

* `Inherits` says which new element is the heir of an old one, `CanHold` whether an element can hold
  an annotation, and `CarriedTo` what an annotation looks like on an element to which it was
  carried.
* `carried?_eq_some_iff` says that these three describe what is carried over, and `isLost_iff` what
  is dropped. Everything else is on a mapping of several elements to several, so that the three
  cases add up (`carried_lost_scattered`).
-/

namespace ApiEvolution

/-! ## Heirs -/

/-- An old identity has the new one as heir: it is on a mapping with several elements on one side at
most, of which the new identity is the only or the first target. -/
def MappingSet.Inherits (s : MappingSet) (id heir : String) : Prop :=
  ∃ m ∈ s.mappings, id ∈ m.sources ∧ m.multiplicity ≠ .manyToMany ∧ m.targets.head? = some heir

/-- An old identity is on a mapping of several elements to several. -/
def MappingSet.Scatters (s : MappingSet) (id : String) : Prop :=
  ∃ m ∈ s.mappings, id ∈ m.sources ∧ m.multiplicity = .manyToMany

/-- No old side of a mapping has the identity. -/
def MappingSet.Omits (s : MappingSet) (id : String) : Prop :=
  ∀ m ∈ s.mappings, id ∉ m.sources

instance (s : MappingSet) (id : String) : Decidable (s.Scatters id) :=
  inferInstanceAs (Decidable (∃ m ∈ s.mappings, id ∈ m.sources ∧ m.multiplicity = .manyToMany))

instance (s : MappingSet) (id : String) : Decidable (s.Omits id) :=
  inferInstanceAs (Decidable (∀ m ∈ s.mappings, id ∉ m.sources))

theorem Mapping.fate_heir (m : Mapping) :
    m.fate.heir = if m.multiplicity = .manyToMany then none else m.targets.head? := by
  obtain ⟨kind, sides, similarity⟩ := m
  cases sides <;> rfl

/-! ## Types -/

/-- A type, or a member of a union, is of a family. -/
inductive ValueType.HasFamily : ValueType → TypeFamily → Prop
  | self (t : ValueType) : HasFamily t t.family
  | member {t : ValueType} {members : List ValueType} : t ∈ members →
    HasFamily (.union members) t.family

theorem ValueType.containsFamily_iff {t : ValueType} {f : TypeFamily} (hf : f ≠ .union) :
    t.containsFamily f = true ↔ t.HasFamily f := by
  have hany : t.containsFamily f = true ↔ ∃ m ∈ t.members, m.family = f := by
    simp [containsFamily]
  rw [hany]
  constructor
  · rintro ⟨m, hm, rfl⟩
    cases t with
    | union members => exact .member hm
    | _ =>
      rw [List.mem_singleton.1 hm]
      exact .self _
  · intro h
    cases h with
    | member hm => exact ⟨_, hm, rfl⟩
    | self =>
      cases t with
      | union members => exact absurd rfl hf
      | _ => exact ⟨_, List.mem_singleton_self _, rfl⟩

/-- An element of a snapshot has a type of a family. -/
def Snapshot.HasTypeOf (s : Snapshot) (id : String) (f : TypeFamily) : Prop :=
  ∃ e t, s.element? id = some e ∧ e.type = some t ∧ t.HasFamily f

/-- An element can hold annotations of a kind. -/
def Snapshot.CanHold (s : Snapshot) (id : String) : AnnotationKind → Prop
  | .boundary => s.HasTypeOf id .boundary
  | .enumeration => s.HasTypeOf id .enumeration
  | _ => True

theorem canHold_iff {s : Snapshot} {id : String} {kind : AnnotationKind} :
    canHold (s.element? id) kind = true ↔ s.CanHold id kind := by
  have hfamily : ∀ f, f ≠ .union → (((s.element? id).bind Element.type).any
      (fun t => t.containsFamily f) = true ↔ s.HasTypeOf id f) := by
    intro f hf
    simp only [Option.any_eq_true, Option.bind_eq_some_iff, Snapshot.HasTypeOf,
      ValueType.containsFamily_iff hf]
    constructor
    · rintro ⟨t, ⟨e, he, ht⟩, hmem⟩
      exact ⟨e, t, he, ht, hmem⟩
    · rintro ⟨e, t, he, ht, hmem⟩
      exact ⟨t, ⟨e, he, ht⟩, hmem⟩
  cases kind with
  | boundary => exact hfamily .boundary (by decide)
  | enumeration => exact hfamily .enumeration (by decide)
  | _ => simp [canHold, AnnotationKind.requiredFamily?, Snapshot.CanHold]

/-! ## The carried annotation -/

/-- A renaming is out of date for an element that has neither the name which it was to get nor the
one which it had. -/
structure Annotation.Outdated (a : Annotation) (e : Element) (newName : String) : Prop where
  rename : a.payload = .rename newName
  not_new : e.name ≠ newName
  not_old : e.name ≠ simpleName a.target

/-- An annotation on an element to which another one was carried by an author. -/
structure Annotation.CarriedTo (a : Annotation) (author : String) (e : Element) (b : Annotation) :
    Prop where
  payload : b.payload = a.payload
  authors : b.authors = a.authors ++ [author]
  reviewers : b.reviewers = a.reviewers
  /-- A renaming that is out of date has to be reviewed. -/
  outdated : ∀ newName, a.Outdated e newName →
    b.review = .unsure ∧ b.comment = renameComment (simpleName a.target) e.name newName
  /-- The review of any other annotation stays. -/
  kept : (∀ newName, ¬ a.Outdated e newName) → b.review = a.review ∧ b.comment = a.comment

theorem Annotation.CarriedTo.eq {a b b' : Annotation} {author : String} {e : Element}
    (h : a.CarriedTo author e b) (h' : a.CarriedTo author e b') (htarget : b.target = b'.target) :
    b = b' := by
  have hreview : b.review = b'.review ∧ b.comment = b'.comment := by
    by_cases hout : ∃ newName, a.Outdated e newName
    · obtain ⟨newName, hnew⟩ := hout
      obtain ⟨hr, hc⟩ := h.outdated newName hnew
      obtain ⟨hr', hc'⟩ := h'.outdated newName hnew
      exact ⟨hr.trans hr'.symm, hc.trans hc'.symm⟩
    · rw [not_exists] at hout
      obtain ⟨hr, hc⟩ := h.kept hout
      obtain ⟨hr', hc'⟩ := h'.kept hout
      exact ⟨hr.trans hr'.symm, hc.trans hc'.symm⟩
  have hpayload : b.payload = b'.payload := h.payload.trans h'.payload.symm
  have hauthors : b.authors = b'.authors := h.authors.trans h'.authors.symm
  have hreviewers : b.reviewers = b'.reviewers := h.reviewers.trans h'.reviewers.symm
  cases b
  cases b'
  simp_all

theorem reviewRename_of_outdated {a migrated : Annotation} {e : Element} {newName : String}
    (h : a.Outdated e newName) :
    reviewRename a migrated e.name =
      migrated.markUnsure (renameComment (simpleName a.target) e.name newName) := by
  simp [reviewRename, h.rename, h.not_new, h.not_old]

theorem reviewRename_of_not_outdated {a migrated : Annotation} {e : Element}
    (h : ∀ newName, ¬ a.Outdated e newName) : reviewRename a migrated e.name = migrated := by
  rw [reviewRename]
  split
  · next newName hrename =>
    refine if_neg ?_
    rintro ⟨hnew, hold⟩
    exact h newName ⟨hrename, hnew, hold⟩
  · rfl

theorem carriedTo_reviewRename (a : Annotation) (author target : String) (e : Element) :
    a.CarriedTo author e (reviewRename a (a.migrated target author) e.name) ∧
      (reviewRename a (a.migrated target author) e.name).target = target := by
  by_cases hout : ∃ newName, a.Outdated e newName
  · obtain ⟨newName, hnew⟩ := hout
    rw [reviewRename_of_outdated hnew]
    refine ⟨⟨rfl, rfl, rfl, ?_, fun hnone => absurd hnew (hnone newName)⟩, rfl⟩
    intro other hother
    have hname : newName = other := by
      simpa [hnew.rename] using hother.rename
    rw [← hname]
    exact ⟨rfl, rfl⟩
  · rw [not_exists] at hout
    rw [reviewRename_of_not_outdated hout]
    exact ⟨⟨rfl, rfl, rfl, fun newName hnew => absurd hnew (hout newName),
      fun _ => ⟨rfl, rfl⟩⟩, rfl⟩

theorem carry?_eq_some_iff {new : Snapshot} {author target : String} {a b : Annotation}
    {e : Element} (he : new.element? target = some e) :
    carry? new author a target = some b ↔
      new.CanHold target a.kind ∧ b.target = target ∧ a.CarriedTo author e b := by
  obtain ⟨hcarried, htarget⟩ := carriedTo_reviewRename a author target e
  rw [← canHold_iff, carry?, he]
  constructor
  · intro h
    split at h
    · next hhold =>
      cases h
      exact ⟨hhold, htarget, hcarried⟩
    · cases h
  · rintro ⟨hhold, hb, hcarriedTo⟩
    simp only [hhold, if_true]
    exact congrArg some (hcarried.eq hcarriedTo (htarget.trans hb.symm))

theorem isSome_carry?_iff {new : Snapshot} {author target : String} {a : Annotation} :
    (carry? new author a target).isSome = true ↔ new.CanHold target a.kind := by
  rw [← canHold_iff, carry?]
  cases canHold (new.element? target) a.kind <;> simp

/-! ## What becomes of an annotation -/

/-- An annotation is carried over to the heir of its target. -/
structure CarriedOver (set : MappingSet) (new : Snapshot) (author : String) (a b : Annotation) :
    Prop where
  inherits : set.Inherits a.target b.target
  canHold : new.CanHold b.target a.kind
  carriedTo : ∃ e, new.element? b.target = some e ∧ a.CarriedTo author e b

theorem CarriedOver.kind {set : MappingSet} {new : Snapshot} {author : String} {a b : Annotation}
    (h : CarriedOver set new author a b) : b.kind = a.kind := by
  obtain ⟨e, -, hcarried⟩ := h.carriedTo
  exact congrArg Payload.kind hcarried.payload

section

variable {set : MappingSet} {new : Snapshot} {author : String} {a b : Annotation} {id heir : String}

variable (set) in
/-- The heir of an old identity. -/
def heir? (id : String) : Option String :=
  (set.forSource? id).bind fun m => m.fate.heir

variable (set new author) in
/-- What is carried over of an annotation. -/
def carried? (a : Annotation) : Option Annotation :=
  (heir? set a.target).bind (carry? new author a)

variable (set new author) in
/-- Whether an annotation is dropped. -/
def isLost (a : Annotation) : Bool :=
  (set.forSource? a.target).isNone ||
    (heir? set a.target).any fun t => (carry? new author a t).isNone

variable (set) in
/-- Whether an annotation is on a mapping of several elements to several. -/
def isScattered (a : Annotation) : Bool :=
  (set.forSource? a.target).any fun m => m.multiplicity = .manyToMany

theorem heir?_eq_some_iff (h : set.Partitioned) :
    heir? set id = some heir ↔ set.Inherits id heir := by
  rw [heir?, Option.bind_eq_some_iff]
  constructor
  · rintro ⟨m, hm, hheir⟩
    obtain ⟨hmem, hid⟩ := (MappingSet.forSource?_eq_some_iff h).1 hm
    rw [Mapping.fate_heir] at hheir
    split at hheir
    · cases hheir
    · next hmult => exact ⟨m, hmem, hid, hmult, hheir⟩
  · rintro ⟨m, hmem, hid, hmult, hhead⟩
    exact ⟨m, (MappingSet.forSource?_eq_some_iff h).2 ⟨hmem, hid⟩,
      by rw [Mapping.fate_heir, if_neg hmult, hhead]⟩

/-- The heirs are declared if the new sides of the mappings fit the snapshot. -/
theorem exists_element_of_inherits (hvalid : set.validateTargets new = .ok ())
    (h : set.Inherits id heir) : ∃ e, new.element? heir = some e := by
  obtain ⟨m, hm, -, -, hhead⟩ := h
  have hdeclared := MappingSet.validateTargets_eq_ok_iff.1 hvalid m hm heir
    (List.mem_of_head? hhead)
  obtain ⟨e, he, -⟩ := Snapshot.declares_iff.1 hdeclared
  exact ⟨e, he⟩

theorem carried?_eq_some_iff (hset : set.Partitioned) (hvalid : set.validateTargets new = .ok ()) :
    carried? set new author a = some b ↔ CarriedOver set new author a b := by
  rw [carried?, Option.bind_eq_some_iff]
  constructor
  · rintro ⟨t, ht, hcarry⟩
    have hinherits := (heir?_eq_some_iff hset).1 ht
    obtain ⟨e, he⟩ := exists_element_of_inherits hvalid hinherits
    obtain ⟨hhold, rfl, hcarried⟩ := (carry?_eq_some_iff he).1 hcarry
    exact ⟨hinherits, hhold, e, he, hcarried⟩
  · rintro ⟨hinherits, hhold, e, he, hcarried⟩
    exact ⟨b.target, (heir?_eq_some_iff hset).2 hinherits,
      (carry?_eq_some_iff he).2 ⟨hhold, rfl, hcarried⟩⟩

/-- Something is carried over exactly if there is an heir that can hold it. -/
theorem isSome_carried?_iff (hset : set.Partitioned) :
    (carried? set new author a).isSome = true ↔
      ∃ heir, set.Inherits a.target heir ∧ new.CanHold heir a.kind := by
  rw [carried?, Option.isSome_bind, Option.any_eq_true]
  simp only [heir?_eq_some_iff hset, isSome_carry?_iff]

/-- An annotation is dropped exactly if no mapping has its target, or the heir of its target cannot
hold it. -/
theorem isLost_iff (hset : set.Partitioned) :
    isLost set new author a = true ↔ set.Omits a.target ∨
      ∃ heir, set.Inherits a.target heir ∧ ¬ new.CanHold heir a.kind := by
  have homits : (set.forSource? a.target).isNone = true ↔ set.Omits a.target := by
    rw [Option.isNone_iff_eq_none, MappingSet.forSource?_eq_none_iff]
    rfl
  have hnone : ∀ t, (carry? new author a t).isNone = true ↔ ¬ new.CanHold t a.kind := by
    intro t
    rw [← isSome_carry?_iff, Option.not_isSome_iff_eq_none, Option.isNone_iff_eq_none]
  rw [isLost, Bool.or_eq_true, homits, Option.any_eq_true]
  simp only [heir?_eq_some_iff hset, hnone]

theorem isScattered_iff (hset : set.Partitioned) :
    isScattered set a = true ↔ set.Scatters a.target := by
  rw [isScattered, Option.any_eq_true]
  simp only [MappingSet.forSource?_eq_some_iff hset, and_assoc, decide_eq_true_eq]
  rfl

/-- An annotation is carried over, dropped, or on a mapping of several elements to several, and only
one of these. -/
theorem carried_lost_scattered (hsides : ∀ m ∈ set.mappings, m.targets ≠ []) :
    (carried? set new author a).isSome.toNat + (isLost set new author a).toNat +
      (isScattered set a).toNat = 1 := by
  cases hm : set.forSource? a.target with
  | none =>
    have hheir : heir? set a.target = none := by rw [heir?, hm, Option.bind_none]
    simp [carried?, isLost, isScattered, hheir, hm]
  | some m =>
    have hheir : heir? set a.target =
        if m.multiplicity = .manyToMany then none else m.targets.head? := by
      rw [heir?, hm, Option.bind_some, Mapping.fate_heir]
    by_cases hmult : m.multiplicity = .manyToMany
    · rw [if_pos hmult] at hheir
      simp [carried?, isLost, isScattered, hheir, hm, hmult]
    · have hmem : m ∈ set.mappings := List.mem_of_find?_eq_some hm
      obtain ⟨t, ts, ht⟩ := List.exists_cons_of_ne_nil (hsides m hmem)
      rw [if_neg hmult, ht, List.head?_cons] at hheir
      cases hcarry : carry? new author a t with
      | none => simp [carried?, isLost, isScattered, hheir, hm, hmult, hcarry]
      | some b => simp [carried?, isLost, isScattered, hheir, hm, hmult, hcarry]

end

end ApiEvolution
