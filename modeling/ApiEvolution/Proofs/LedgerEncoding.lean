import ApiEvolution.Proofs.AnnotationFields
import ApiEvolution.Proofs.LatestWins
import ApiEvolution.Proofs.LedgerDocument

/-!
# Documents of ledgers are canonical

The document of a ledger is read as a ledger with the same annotations, listed by kind and then by
target (`read_write`). As the document does not depend on the order of the annotations
(`toJson_eq_of_mem_iff`), two ledgers have the same document exactly if they have the same
annotations.

Texts are ordered by their characters' code points, which is the order of their bytes in UTF-8.
-/

namespace ApiEvolution

open Json

namespace Ledger

variable {l : Ledger} {kind : AnnotationKind} {a : Annotation}

/-! ## The annotations of a kind by target -/

/-- An annotation as a member of its kind's section. -/
def entryMember (a : Annotation) : String × Json :=
  (a.target, a.fields)

/-- The annotations of a kind, sorted by target. -/
def inOrder (l : Ledger) (kind : AnnotationKind) : List Annotation :=
  (l.ofKind kind).mergeSort fun a b => a.target ≤ b.target

theorem mem_ofKind : a ∈ l.ofKind kind ↔ a ∈ l.entries ∧ a.kind = kind := by
  simp [ofKind]

theorem perm_inOrder (l : Ledger) (kind : AnnotationKind) : (l.inOrder kind).Perm (l.ofKind kind) :=
  List.mergeSort_perm _ _

theorem mem_inOrder : a ∈ l.inOrder kind ↔ a ∈ l.entries ∧ a.kind = kind := by
  rw [(l.perm_inOrder kind).mem_iff, mem_ofKind]

theorem Settled.targets_ne (h : l.Settled) (kind : AnnotationKind) :
    (l.ofKind kind).Pairwise fun a b => a.target ≠ b.target := by
  refine (h.filter _).imp_of_mem fun {a b} ha hb hfree htarget => ?_
  have hkind : b.kind = a.kind := (mem_ofKind.1 hb).2.trans (mem_ofKind.1 ha).2.symm
  rw [Bool.eq_false_iff] at hfree
  have hkinds : b.kind.conflicts a.kind = true := by
    rw [hkind]
    exact AnnotationKind.conflicts_self _
  exact hfree <| Annotation.conflicts_iff.2 ⟨htarget.symm, hkinds⟩

theorem Settled.distinct (h : l.Settled) (kind : AnnotationKind) :
    Distinct ((l.ofKind kind).map entryMember) := by
  rw [Distinct, List.map_map, List.Nodup, List.pairwise_map]
  exact h.targets_ne kind

theorem Settled.inOrder_pairwise (h : l.Settled) (kind : AnnotationKind) :
    (l.inOrder kind).Pairwise fun a b => a.target < b.target := by
  have hle : (l.inOrder kind).Pairwise fun a b => decide (a.target ≤ b.target) = true := by
    refine List.pairwise_mergeSort ?_ ?_ _
    · intro a b c hab hbc
      simp only [decide_eq_true_eq] at hab hbc ⊢
      exact le_trans hab hbc
    · intro a b
      simp [le_total]
  have hne : (l.inOrder kind).Pairwise fun a b => a.target ≠ b.target :=
    (l.perm_inOrder kind).symm.pairwise (h.targets_ne kind) fun hab => hab.symm
  refine (hle.and hne).imp fun {a b} hab => ?_
  exact lt_of_le_of_ne (by simpa using hab.1) hab.2

/-- The entries of a kind in its document. -/
theorem Settled.map_inOrder (h : l.Settled) (kind : AnnotationKind) :
    (l.inOrder kind).map entryMember = sortMembers ((l.ofKind kind).map entryMember) := by
  have hsorted : Sorted ((l.inOrder kind).map entryMember) :=
    List.pairwise_map.2 (h.inOrder_pairwise kind)
  exact hsorted.eq_of_perm (sorted_sortMembers _)
    (((l.perm_inOrder kind).map _).trans (h.distinct kind).perm_sortMembers.symm)

/-! ## The document -/

/-- The sections of a ledger's document, in the order of the kinds. -/
def sectionMembers (l : Ledger) : List (String × Json) :=
  AnnotationKind.all.map fun k => (k.storeKey, l.kindToJson k)

/-- The members of a ledger's document. -/
def documentMembers (l : Ledger) : List (String × Json) :=
  (versionKey, .integer schemaVersion) :: sortMembers l.sectionMembers

theorem toJson_eq (l : Ledger) : l.toJson = .object l.documentMembers :=
  rfl

theorem distinct_sectionMembers (l : Ledger) : Distinct l.sectionMembers := by
  have hkeys : (AnnotationKind.all.map AnnotationKind.storeKey).Nodup := by decide
  rw [Distinct, sectionMembers, List.map_map]
  exact hkeys

theorem mem_sortMembers_sectionMembers {m : String × Json} :
    m ∈ sortMembers l.sectionMembers ↔
      ∃ kind : AnnotationKind, m = (kind.storeKey, l.kindToJson kind) := by
  rw [l.distinct_sectionMembers.perm_sortMembers.mem_iff, sectionMembers, List.mem_map]
  constructor
  · rintro ⟨kind, -, rfl⟩
    exact ⟨kind, rfl⟩
  · rintro ⟨kind, rfl⟩
    exact ⟨kind, kind.mem_all, rfl⟩

theorem distinct_documentMembers (l : Ledger) : Distinct l.documentMembers := by
  refine List.nodup_cons.2 ⟨?_, (sorted_sortMembers _).distinct⟩
  intro hmem
  obtain ⟨m, hm, hkey⟩ := List.mem_map.1 hmem
  obtain ⟨kind, rfl⟩ := mem_sortMembers_sectionMembers.1 hm
  exact kind.storeKey_ne_versionKey hkey

theorem sectionsDistinct_documentMembers (l : Ledger) : SectionsDistinct l.documentMembers := by
  intro m hm entries hentries
  rcases List.mem_cons.1 hm with rfl | hm
  · cases hentries
  · obtain ⟨kind, rfl⟩ := mem_sortMembers_sectionMembers.1 hm
    cases hentries
    exact (sorted_sortMembers _).distinct

theorem Settled.entriesOf_documentMembers (h : l.Settled) (kind : AnnotationKind) :
    entriesOf l.documentMembers kind = (l.inOrder kind).map entryMember := by
  have hlookup : lookup kind.storeKey l.documentMembers = some (l.kindToJson kind) :=
    l.distinct_documentMembers.lookup_eq_some_iff.2
      (List.mem_cons_of_mem _ (mem_sortMembers_sectionMembers.2 ⟨kind, rfl⟩))
  rw [entriesOf, hlookup, h.map_inOrder]
  rfl

/-! ## Reading it back -/

/-- The numbers of an annotation are finite, and the reader gives them back from their digits. -/
def HasExactNumbers (a : Annotation) : Prop :=
  ∀ x ∈ a.payload.numbers, x.isFinite = true ∧ readsBack x = true

instance (a : Annotation) : Decidable (HasExactNumbers a) :=
  inferInstanceAs (Decidable (∀ x ∈ _, _ ∧ _))

theorem readEntry_fields (h : HasExactNumbers a) : readEntry a.kind a.target a.fields = .ok a := by
  have hfields : Annotation.ofFields a.kind a.fields = .ok a :=
    Annotation.ofFields_fields fun x hx => (h x hx).1
  have hneat := Annotation.isNeat_fields fun x hx => (h x hx).2
  have hcanonical : a.fields.canonical = .object (sortMembers a.members) := hneat.canonical
  have htarget : ("target", Json.text a.target) ∈ sortMembers a.members :=
    a.distinct_members.perm_sortMembers.mem_iff.2 (List.mem_cons_self ..)
  have hkeep : withTarget a.target (sortMembers a.members) = sortMembers a.members :=
    if_pos (List.any_eq_true.2 ⟨_, htarget, by simp⟩)
  rw [a.fields_eq] at hfields
  rw [readEntry, hcanonical]
  simp only [hkeep, hfields, if_true]

theorem Settled.loads_documentMembers (h : l.Settled)
    (hnumbers : ∀ a ∈ l.entries, HasExactNumbers a) : Loads l.documentMembers l.inOrder where
  version := by
    refine ⟨schemaVersion, ?_, by decide, le_rfl⟩
    rw [versionOf, documentMembers, lookup_cons, if_pos rfl]
    rfl
  sections := by
    intro m hm hkey
    rcases List.mem_cons.1 hm with rfl | hm
    · exact absurd rfl hkey
    · obtain ⟨kind, rfl⟩ := mem_sortMembers_sectionMembers.1 hm
      exact ⟨kind, _, rfl⟩
  entries := by
    intro kind
    rw [h.entriesOf_documentMembers, List.forall₂_map_left_iff, List.forall₂_same]
    intro a ha
    obtain ⟨hmem, rfl⟩ := mem_inOrder.1 ha
    exact readEntry_fields (hnumbers a hmem)

theorem Settled.isNeat_kindToJson (h : l.Settled) (hnumbers : ∀ a ∈ l.entries, HasExactNumbers a)
    (kind : AnnotationKind) : IsNeat 4 (l.kindToJson kind) := by
  refine isNeat_object (sorted_sortMembers _) fun m hm => ?_
  obtain ⟨a, ha, rfl⟩ := List.mem_map.1 ((h.distinct kind).perm_sortMembers.mem_iff.1 hm)
  exact Annotation.isNeat_fields fun x hx => (hnumbers a (mem_ofKind.1 ha).1 x hx).2

theorem Settled.isNeat_documentMembers (h : l.Settled)
    (hnumbers : ∀ a ∈ l.entries, HasExactNumbers a) :
    ∀ m ∈ l.documentMembers, IsNeat 4 m.2 := by
  intro m hm
  rcases List.mem_cons.1 hm with rfl | hm
  · exact ⟨rfl, by decide, Nat.zero_le 4⟩
  · obtain ⟨kind, rfl⟩ := mem_sortMembers_sectionMembers.1 hm
    exact h.isNeat_kindToJson hnumbers kind

/-- The document can be printed and is read back as a whole. -/
theorem Settled.read?_write (h : l.Settled) (hnumbers : ∀ a ∈ l.entries, HasExactNumbers a) :
    Json.read? l.write = some l.toJson ∧ l.toJson.isReadable 0 = true := by
  have hneat := h.isNeat_documentMembers hnumbers
  have hfaithful : l.toJson.isFaithful = true :=
    membersAreFaithful_iff.2 fun m hm => (hneat m hm).isFaithful
  have hdepth : membersDepth l.documentMembers ≤ 4 :=
    membersDepth_le_iff.2 fun m hm => (hneat m hm).depth_le
  refine ⟨read?_pretty hfaithful, ?_⟩
  rw [isReadable, isUsable_of_isFaithful hfaithful, toJson_eq, depth, Bool.true_and,
    decide_eq_true_iff]
  omega

/-! ## The order in which a ledger is read back -/

/-- An annotation comes before another one in the order of documents: by kind, and within a kind by
target. -/
def Precedes (a b : Annotation) : Prop :=
  a.kind.rank < b.kind.rank ∨ a.kind = b.kind ∧ a.target < b.target

theorem Settled.pairwise_precedes (h : l.Settled) :
    (AnnotationKind.all.flatMap l.inOrder).Pairwise Precedes := by
  rw [List.pairwise_flatMap]
  constructor
  · intro kind _
    refine (h.inOrder_pairwise kind).imp_of_mem fun {a b} ha hb hlt => .inr ⟨?_, hlt⟩
    exact (mem_inOrder.1 ha).2.trans (mem_inOrder.1 hb).2.symm
  · refine AnnotationKind.pairwise_all.imp fun {first second} hrank a ha b hb => .inl ?_
    rw [(mem_inOrder.1 ha).2, (mem_inOrder.1 hb).2]
    exact hrank

theorem nodup_of_pairwise_precedes {annotations : List Annotation}
    (h : annotations.Pairwise Precedes) : annotations.Nodup := by
  refine h.imp ?_
  rintro a _ (hlt | ⟨-, hlt⟩) rfl
  · exact lt_irrefl _ hlt
  · exact lt_irrefl _ hlt

theorem mem_flatMap_inOrder : a ∈ AnnotationKind.all.flatMap l.inOrder ↔ a ∈ l.entries := by
  simp only [List.mem_flatMap, mem_inOrder]
  exact ⟨fun ⟨_, _, ha, _⟩ => ha, fun ha => ⟨a.kind, a.kind.mem_all, ha, rfl⟩⟩

theorem Settled.perm_flatMap_inOrder (h : l.Settled) :
    (AnnotationKind.all.flatMap l.inOrder).Perm l.entries :=
  (List.perm_ext_iff_of_nodup (nodup_of_pairwise_precedes h.pairwise_precedes) h.nodup).2
    fun _ => mem_flatMap_inOrder

/-- Read back, nothing of a ledger is evicted. -/
theorem Settled.entries_ofList_inOrder (h : l.Settled) :
    (ofList (AnnotationKind.all.flatMap l.inOrder)).entries =
      AnnotationKind.all.flatMap l.inOrder := by
  have hfree : (AnnotationKind.all.flatMap l.inOrder).Pairwise fun a b => b.conflicts a = false :=
    h.perm_flatMap_inOrder.symm.pairwise h fun {a b} hab => (a.conflicts_comm b).trans hab
  rw [entries_ofList, survivors_eq_self hfree]

/-! ## Documents and sets of annotations -/

/-- The document does not depend on the order of the annotations. -/
theorem Settled.toJson_eq_of_mem_iff {l' : Ledger} (h : l.Settled) (h' : l'.Settled)
    (hmem : ∀ a, a ∈ l.entries ↔ a ∈ l'.entries) : l.toJson = l'.toJson := by
  have hperm : l.entries.Perm l'.entries := (List.perm_ext_iff_of_nodup h.nodup h'.nodup).2 hmem
  have hkind : ∀ kind, l.kindToJson kind = l'.kindToJson kind := by
    intro kind
    have hentries : ((l.ofKind kind).map entryMember).Perm ((l'.ofKind kind).map entryMember) :=
      (hperm.filter _).map _
    exact congrArg Json.object ((h.distinct kind).sortMembers_eq_of_perm hentries)
  rw [toJson, toJson]
  simp only [hkind]

/-- A ledger's document is read as the ledger with its annotations sorted by kind and target. -/
theorem Settled.read_write (h : l.Settled) (hnumbers : ∀ a ∈ l.entries, HasExactNumbers a) :
    read l.write = .ok (ofList (AnnotationKind.all.flatMap l.inOrder)) := by
  obtain ⟨hread, hreadable⟩ := h.read?_write hnumbers
  refine (read_eq_ok_iff hread).2 ⟨hreadable, ?_⟩
  rw [toJson_eq]
  exact (ofJson_eq_ok_iff l.distinct_documentMembers l.sectionsDistinct_documentMembers).2
    ⟨l.inOrder, h.loads_documentMembers hnumbers, rfl⟩

/-- Two ledgers with the same document have the same annotations. -/
theorem Settled.mem_iff_of_write_eq {l' : Ledger} (h : l.Settled) (h' : l'.Settled)
    (hnumbers : ∀ a ∈ l.entries, HasExactNumbers a)
    (hnumbers' : ∀ a ∈ l'.entries, HasExactNumbers a) (hwrite : l.write = l'.write) (a : Annotation) :
    a ∈ l.entries ↔ a ∈ l'.entries := by
  have hread := h.read_write hnumbers
  rw [hwrite, h'.read_write hnumbers'] at hread
  have hentries := congrArg Ledger.entries (Except.ok.inj hread)
  rw [h.entries_ofList_inOrder, h'.entries_ofList_inOrder] at hentries
  rw [← mem_flatMap_inOrder, ← hentries, mem_flatMap_inOrder]

/-- The document of a ledger is a canonical, lossless encoding of its annotations. Reading it gives
exactly these annotations, by kind and then by target, and writes the same document again; and two
ledgers have the same document exactly if they have the same annotations, in whatever order. -/
theorem write_canonical {first second : List Annotation}
    (hfirst : ∀ a ∈ (ofList first).entries, HasExactNumbers a)
    (hsecond : ∀ a ∈ (ofList second).entries, HasExactNumbers a) :
    (∃ reloaded, read (ofList first).write = .ok reloaded ∧
      reloaded.entries.Perm (ofList first).entries ∧ reloaded.entries.Pairwise Precedes ∧
      reloaded.write = (ofList first).write) ∧
    ((ofList first).write = (ofList second).write ↔
      ∀ a, a ∈ (ofList first).entries ↔ a ∈ (ofList second).entries) := by
  have hsettled : (ofList first).Settled := entries_pairwise first
  have hsettled' : (ofList second).Settled := entries_pairwise second
  constructor
  · refine ⟨_, hsettled.read_write hfirst, ?_, ?_, ?_⟩
    · rw [hsettled.entries_ofList_inOrder]
      exact hsettled.perm_flatMap_inOrder
    · rw [hsettled.entries_ofList_inOrder]
      exact hsettled.pairwise_precedes
    · refine congrArg pretty (Settled.toJson_eq_of_mem_iff (entries_pairwise _) hsettled ?_)
      intro a
      rw [hsettled.entries_ofList_inOrder]
      exact mem_flatMap_inOrder
  · refine ⟨hsettled.mem_iff_of_write_eq hsettled' hfirst hsecond, fun hmem => ?_⟩
    exact congrArg pretty (hsettled.toJson_eq_of_mem_iff hsettled' hmem)

/-- A default value and an interval with fractions, and an annotation without numbers. -/
def sampleAnnotations : List Annotation :=
  [.ofPayload "q" "me" (.boundary ⟨false, -0.25, .inclusive, 1000000, .exclusive⟩),
    .ofPayload "q" "me" .expert, .ofPayload "p" "me" (.optional (.number 0.1))]

theorem write_canonical_sampleAnnotations :
    (∀ a ∈ (ofList sampleAnnotations).entries, HasExactNumbers a) ∧
    (∃ reloaded, read (ofList sampleAnnotations).write = .ok reloaded ∧
      reloaded.entries.Perm (ofList sampleAnnotations).entries ∧
      reloaded.entries.Pairwise Precedes ∧
      reloaded.write = (ofList sampleAnnotations).write) ∧
    ((ofList sampleAnnotations).write = (ofList sampleAnnotations.reverse).write ↔
      ∀ a, a ∈ (ofList sampleAnnotations).entries ↔
        a ∈ (ofList sampleAnnotations.reverse).entries) := by
  have hfirst : ∀ a ∈ (ofList sampleAnnotations).entries, HasExactNumbers a := by decide +kernel
  have hsecond : ∀ a ∈ (ofList sampleAnnotations.reverse).entries, HasExactNumbers a := by
    decide +kernel
  exact ⟨hfirst, write_canonical hfirst hsecond⟩

end Ledger

end ApiEvolution
