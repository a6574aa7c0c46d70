import Mathlib.Data.Set.List
import ApiEvolution.Annotation.Document
import ApiEvolution.Proofs.JsonText
import ApiEvolution.Proofs.Ledger
import ApiEvolution.Proofs.Members
import ApiEvolution.Proofs.Outcome

/-!
# What a ledger has of its document

Of a document without repeated keys, reading is a function of what stands under which key:
`ofJson_eq_ok_iff` says in one place what the document must be (`Loads`) and which annotations are
added, those of all kinds, one kind after the other. `Loads` does not see where a member of the
document stands (`Loads.perm`).

Annotations of one kind are on distinct targets, so that only the kinds that say how a value is
supplied get in each other's way, and of these the last one stays (`survivors_flatMap`).

* `read_laterKindWins`: the ledger lists all entries by kind and then in the order of the document,
  without those that an entry of a later kind outranks, and a document with its top-level members in
  another order gives the same ledger.
-/

namespace ApiEvolution

open Json

/-! ## Kinds by their keys -/

namespace AnnotationKind

theorem ofStoreKey?_eq_some_iff {key : String} {kind : AnnotationKind} :
    ofStoreKey? key = some kind ↔ key = kind.storeKey := by
  constructor
  · intro h
    have hkey : kind.storeKey = key := by simpa using List.find?_some h
    exact hkey.symm
  · rintro rfl
    exact ofStoreKey?_storeKey kind

theorem storeKey_inj {a b : AnnotationKind} (h : a.storeKey = b.storeKey) : a = b := by
  have ha := ofStoreKey?_storeKey a
  rw [h, ofStoreKey?_storeKey] at ha
  exact (Option.some.inj ha).symm

theorem storeKey_ne_versionKey (kind : AnnotationKind) : kind.storeKey ≠ Ledger.versionKey := by
  cases kind <;> decide

/-- The position of a kind in the order of stores. -/
def rank (kind : AnnotationKind) : Nat :=
  all.idxOf kind

theorem pairwise_all : all.Pairwise fun a b => a.rank < b.rank := by
  decide

/-- Of all kinds one contributes. -/
theorem flatMap_all_ite {α : Type} (kind : AnnotationKind) (xs : List α) :
    (all.flatMap fun k => if k = kind then xs else []) = xs := by
  cases kind <;> simp [all]

end AnnotationKind

namespace Ledger

variable {members : List (String × Json)} {entries : List (String × Json)}

/-- The entries that a document lists for a kind. -/
def entriesOf (members : List (String × Json)) (kind : AnnotationKind) : List (String × Json) :=
  match lookup kind.storeKey members with
  | some (.object entries) => entries
  | _ => []

/-- The version that a document has. -/
def versionOf (members : List (String × Json)) : Reading Int :=
  match lookup versionKey members with
  | some version => asSigned version
  | none => .ok oldestSchemaVersion

/-- A document's section as a member of it. -/
def sectionMember (s : AnnotationKind × List (String × Json)) : String × Json :=
  (s.1.storeKey, .object s.2)

/-- No section of a document repeats a key. -/
def SectionsDistinct (members : List (String × Json)) : Prop :=
  ∀ m ∈ members, ∀ entries, m.2 = .object entries → Distinct entries

theorem asMap_object (h : Distinct entries) : asMap .ok (.object entries) = .ok entries := by
  have hread : (entries.mapM fun m => (.ok m.2 : Reading Json).map fun v => (m.1, v)) =
      .ok entries :=
    mapM_eq_ok_iff.2 (List.forall₂_same.2 fun _ _ => rfl)
  rw [asMap, hread]
  exact congrArg Except.ok h.latest_eq

theorem asMap_eq_ok_iff {v : Json} (h : ∀ entries, v = .object entries → Distinct entries) :
    asMap .ok v = .ok entries ↔ v = .object entries := by
  cases v with
  | object members =>
    rw [asMap_object (h members rfl)]
    simp
  | _ => simp [asMap]

/-- A relation that determines the first item by the second one holds along two lists exactly if
the first list is made from the second one. -/
theorem forall₂_iff_eq_map {α β : Type} {R : α → β → Prop} {f : β → α} {xs : List α} {ys : List β}
    (h : ∀ x ∈ xs, ∀ y, R x y ↔ x = f y) : List.Forall₂ R xs ys ↔ xs = ys.map f := by
  induction xs generalizing ys with
  | nil => cases ys <;> simp
  | cons x xs ih =>
    have hx := h x List.mem_cons_self
    have hxs : ∀ {ys}, List.Forall₂ R xs ys ↔ xs = ys.map f :=
      ih fun z hz => h z (List.mem_cons_of_mem x hz)
    cases ys <;> simp [hx, hxs]

/-- The members other than the version are the sections. -/
theorem sections_eq_ok_iff {parts : List (String × List (String × Json))}
    (hdistinct : Distinct members) (hsections : SectionsDistinct members) :
    sections members = .ok parts ↔
      members.filter (fun m => m.1 ≠ versionKey) = parts.map fun p => (p.1, .object p.2) := by
  have hparts : ∀ {read}, ((members.filter fun m => m.1 ≠ versionKey).mapM fun m =>
      (asMap .ok m.2).map fun entries => (m.1, entries)) = .ok read ↔
        members.filter (fun m => m.1 ≠ versionKey) = read.map fun p => (p.1, .object p.2) := by
    intro read
    rw [mapM_eq_ok_iff]
    refine forall₂_iff_eq_map fun m hm p => ?_
    have hm' : ∀ entries, m.2 = .object entries → Distinct entries :=
      hsections m (List.mem_of_mem_filter hm)
    constructor
    · intro hread
      cases hmap : asMap .ok m.2 with
      | error cause =>
        rw [hmap] at hread
        cases hread
      | ok entries =>
        rw [hmap] at hread
        cases hread
        rw [← (asMap_eq_ok_iff hm').1 hmap]
    · intro heq
      have hobject : m.2 = .object p.2 := by rw [heq]
      rw [(asMap_eq_ok_iff hm').2 hobject, heq]
      rfl
  have hkeys : ∀ {read : List (String × List (String × Json))},
      members.filter (fun m => m.1 ≠ versionKey) = read.map (fun p => (p.1, .object p.2)) →
        latest read = read := by
    intro read heq
    have hfilter : Distinct (members.filter fun m => m.1 ≠ versionKey) :=
      List.Nodup.sublist (List.filter_sublist.map _) hdistinct
    have hread : Distinct read := by
      rw [heq, Distinct, List.map_map] at hfilter
      exact hfilter
    exact hread.latest_eq
  rw [sections, bind_eq_ok_iff]
  constructor
  · rintro ⟨read, hread, hlatest⟩
    have heq := hparts.1 hread
    rw [hkeys heq] at hlatest
    cases hlatest
    exact heq
  · intro heq
    refine ⟨parts, hparts.2 heq, ?_⟩
    rw [hkeys heq]
    rfl

theorem kindSections_eq_ok_iff {parts : List (String × List (String × Json))}
    {kinds : List (AnnotationKind × List (String × Json))} :
    kindSections parts = .ok kinds ↔ parts = kinds.map fun s => (s.1.storeKey, s.2) := by
  rw [kindSections, mapM_eq_ok_iff]
  refine forall₂_iff_eq_map fun p _ s => ?_
  split
  · next kind hkind =>
    obtain ⟨key, entries⟩ := p
    obtain ⟨kind', entries'⟩ := s
    rw [AnnotationKind.ofStoreKey?_eq_some_iff] at hkind
    dsimp only at hkind
    subst hkind
    simp only [Except.ok.injEq, Prod.mk.injEq]
    refine and_congr_left fun _ => ⟨fun h => by rw [h], AnnotationKind.storeKey_inj⟩
  · next hnone =>
    constructor
    · intro h
      cases h
    · rintro rfl
      rw [AnnotationKind.ofStoreKey?_storeKey] at hnone
      cases hnone

theorem outline_eq_ok_iff {version : Int} {parts : List (String × List (String × Json))}
    (hdistinct : Distinct members) :
    outline (.object members) = .ok (version, parts) ↔
      versionOf members = .ok version ∧ sections members = .ok parts := by
  have houtline : outline (.object members) = (do
      let found ← versionOf members
      return (found, ← sections members)) := by
    simp only [outline, hdistinct.repeatedKey?_eq_none, versionOf]
    cases lookup versionKey members <;> rfl
  rw [houtline, bind_eq_ok_iff]
  constructor
  · rintro ⟨found, hfound, hrest⟩
    obtain ⟨read, hread, heq⟩ := bind_eq_ok_iff.1 hrest
    cases heq
    exact ⟨hfound, hread⟩
  · rintro ⟨hfound, hread⟩
    exact ⟨version, hfound, bind_eq_ok_iff.2 ⟨parts, hread, rfl⟩⟩

theorem entriesOf_eq {kinds : List (AnnotationKind × List (String × Json))}
    (h : members.filter (fun m => m.1 ≠ versionKey) = kinds.map sectionMember)
    (kind : AnnotationKind) :
    entriesOf members kind = ((kinds.find? fun s => s.1 = kind).map (·.2)).getD [] := by
  have hfilter : members.find? (fun m => m.1 = kind.storeKey) =
      (members.filter fun m => m.1 ≠ versionKey).find? fun m => m.1 = kind.storeKey := by
    rw [List.find?_filter]
    refine congrArg (fun p => members.find? p) (funext fun m => ?_)
    by_cases hm : m.1 = kind.storeKey
    · simp [hm, kind.storeKey_ne_versionKey]
    · simp [hm]
  have hkind : (fun m : String × Json => decide (m.1 = kind.storeKey)) ∘ sectionMember =
      fun s => decide (s.1 = kind) := by
    funext s
    exact decide_eq_decide.2 ⟨AnnotationKind.storeKey_inj, fun h => by rw [sectionMember, h]⟩
  rw [entriesOf, lookup, hfilter, h, List.find?_map, hkind]
  cases kinds.find? fun s => s.1 = kind <;> rfl

/-- How each kind's entries of a document without repeated keys become annotations. -/
structure Loads (members : List (String × Json)) (loaded : AnnotationKind → List Annotation) :
    Prop where
  version : ∃ version, versionOf members = .ok version ∧ oldestSchemaVersion ≤ version ∧
    version ≤ schemaVersion
  sections : ∀ m ∈ members, m.1 ≠ versionKey →
    ∃ (kind : AnnotationKind) (entries : List (String × Json)), m = (kind.storeKey, .object entries)
  entries : ∀ kind, List.Forall₂ (fun e a => readEntry kind e.1 e.2 = .ok a)
    (entriesOf members kind) (loaded kind)

theorem readEntries_eq_ok_iff {kinds : List (AnnotationKind × List (String × Json))}
    (h : members.filter (fun m => m.1 ≠ versionKey) = kinds.map sectionMember)
    {annotations : List Annotation} :
    readEntries kinds = .ok annotations ↔ ∃ loaded : AnnotationKind → List Annotation,
      (∀ kind, List.Forall₂ (fun e a => readEntry kind e.1 e.2 = .ok a) (entriesOf members kind)
        (loaded kind)) ∧ annotations = AnnotationKind.all.flatMap loaded := by
  have hread : readEntries kinds = (do
      let groups ← AnnotationKind.all.mapM fun kind =>
        (entriesOf members kind).mapM fun e => readEntry kind e.1 e.2
      return groups.flatten) := by
    unfold readEntries
    congr 2
    funext kind
    rw [entriesOf_eq h]
    cases kinds.find? fun s => s.1 = kind <;> rfl
  rw [hread, bind_eq_ok_iff]
  constructor
  · rintro ⟨groups, hgroups, hflatten⟩
    obtain ⟨loaded, hloaded, rfl⟩ := mapM_eq_ok_iff_map.1 hgroups
    cases hflatten
    exact ⟨loaded, fun kind => mapM_eq_ok_iff.1 (hloaded kind kind.mem_all), rfl⟩
  · rintro ⟨loaded, hloaded, rfl⟩
    exact ⟨AnnotationKind.all.map loaded, mapM_eq_ok_iff_map.2 ⟨loaded,
      fun kind _ => mapM_eq_ok_iff.2 (hloaded kind), rfl⟩, rfl⟩

theorem ofJson_eq_ok_iff_outline {v : Json} {l : Ledger} :
    ofJson v = .ok l ↔ ∃ version parts kinds annotations, outline v = .ok (version, parts) ∧
      oldestSchemaVersion ≤ version ∧ version ≤ schemaVersion ∧
      kindSections parts = .ok kinds ∧ readEntries kinds = .ok annotations ∧
      l = ofList annotations := by
  rw [ofJson, bind_eq_ok_iff]
  constructor
  · rintro ⟨⟨version, parts⟩, houtline, hrest⟩
    dsimp only at hrest
    split at hrest
    · cases hrest
    · next hlate =>
      split at hrest
      · cases hrest
      · next hearly =>
        obtain ⟨kinds, hkinds, hrest⟩ := bind_eq_ok_iff.1 hrest
        obtain ⟨annotations, hannotations, heq⟩ := bind_eq_ok_iff.1 hrest
        cases heq
        exact ⟨version, parts, kinds, annotations, Outcome.ofReading_eq_ok_iff.1 houtline,
          not_lt.1 hearly, not_lt.1 hlate, hkinds, hannotations, rfl⟩
  · rintro ⟨version, parts, kinds, annotations, houtline, hearly, hlate, hkinds, hannotations, rfl⟩
    refine ⟨(version, parts), Outcome.ofReading_eq_ok_iff.2 houtline, ?_⟩
    dsimp only
    rw [if_neg (not_lt.2 hlate), if_neg (not_lt.2 hearly), bind_eq_ok_iff]
    exact ⟨kinds, hkinds, bind_eq_ok_iff.2 ⟨annotations, hannotations, rfl⟩⟩

/-- A ledger is read from a document without repeated keys exactly if each of its parts is read, and
then it is the ledger of the annotations of all kinds, one kind after the other. -/
theorem ofJson_eq_ok_iff {l : Ledger} (hdistinct : Distinct members)
    (hsections : SectionsDistinct members) :
    ofJson (.object members) = .ok l ↔
      ∃ loaded, Loads members loaded ∧ l = ofList (AnnotationKind.all.flatMap loaded) := by
  have hmember : ∀ kinds : List (AnnotationKind × List (String × Json)),
      kinds.map sectionMember =
        (kinds.map fun s => (s.1.storeKey, s.2)).map fun p => (p.1, .object p.2) := by
    intro kinds
    rw [List.map_map]
    rfl
  rw [ofJson_eq_ok_iff_outline]
  constructor
  · rintro ⟨version, parts, kinds, annotations, houtline, hearly, hlate, hkinds, hread, rfl⟩
    obtain ⟨hversion, hparts⟩ := (outline_eq_ok_iff hdistinct).1 houtline
    have hfilter := (sections_eq_ok_iff hdistinct hsections).1 hparts
    rw [kindSections_eq_ok_iff.1 hkinds, ← hmember] at hfilter
    obtain ⟨loaded, hloaded, rfl⟩ := (readEntries_eq_ok_iff hfilter).1 hread
    refine ⟨loaded, ⟨⟨version, hversion, hearly, hlate⟩, ?_, hloaded⟩, rfl⟩
    intro m hm hkey
    have hmem : m ∈ members.filter fun m => m.1 ≠ versionKey :=
      List.mem_filter.2 ⟨hm, by simpa using hkey⟩
    rw [hfilter] at hmem
    obtain ⟨s, -, rfl⟩ := List.mem_map.1 hmem
    exact ⟨s.1, s.2, rfl⟩
  · rintro ⟨loaded, ⟨⟨version, hversion, hearly, hlate⟩, hall, hloaded⟩, rfl⟩
    have hrange : members.filter (fun m => m.1 ≠ versionKey) ∈
        Set.range (List.map sectionMember) := by
      rw [Set.range_list_map]
      intro m hm
      obtain ⟨hm, hkey⟩ := List.mem_filter.1 hm
      obtain ⟨kind, entries, rfl⟩ := hall m hm (by simpa using hkey)
      exact ⟨(kind, entries), rfl⟩
    obtain ⟨kinds, hkinds⟩ := hrange
    refine ⟨version, kinds.map fun s => (s.1.storeKey, s.2), kinds, _, ?_, hearly, hlate,
      kindSections_eq_ok_iff.2 rfl, (readEntries_eq_ok_iff hkinds.symm).2 ⟨loaded, hloaded, rfl⟩,
      rfl⟩
    rw [outline_eq_ok_iff hdistinct, sections_eq_ok_iff hdistinct hsections, ← hmember]
    exact ⟨hversion, hkinds.symm⟩

/-- Where the members of a document stand makes no difference. -/
theorem Loads.perm {others : List (String × Json)} {loaded : AnnotationKind → List Annotation}
    (h : Loads members loaded) (hdistinct : Distinct members) (hperm : members.Perm others) :
    Loads others loaded where
  version := by
    rw [versionOf, ← hdistinct.lookup_eq_of_perm hperm]
    exact h.version
  sections := fun m hm => h.sections m (hperm.mem_iff.2 hm)
  entries := by
    intro kind
    rw [entriesOf, ← hdistinct.lookup_eq_of_perm hperm]
    exact h.entries kind

/-! ## Entries -/

theorem exists_record_of_asRecord {α : Type} {shape : String} {names : List String}
    {read : Record → Reading α} {v : Json} {a : α} (h : asRecord shape names read v = .ok a) :
    ∃ r, read r = .ok a := by
  cases v with
  | object members =>
    rw [asRecord] at h
    split at h
    · cases h
    · exact ⟨_, h⟩
  | array items =>
    rw [asRecord] at h
    obtain ⟨b, hread, hrest⟩ := bind_eq_ok_iff.1 h
    split at hrest
    · cases hrest
      exact ⟨_, hread⟩
    · cases hrest
  | _ => simp [asRecord] at h

theorem kind_of_ofFields_payload {v : Json} {kind : AnnotationKind} {p : Payload}
    (h : Payload.ofFields v kind = .ok p) : p.kind = kind := by
  cases kind with
  | remove | required | expert =>
    cases h
    rfl
  | optional | constant | boundary | move | rename | description | todo | calledAfter =>
    obtain ⟨x, -, hp⟩ := bind_eq_ok_iff.1 h
    cases hp
    rfl
  | enumeration =>
    obtain ⟨r, hread⟩ := exists_record_of_asRecord h
    obtain ⟨_, -, hread⟩ := bind_eq_ok_iff.1 hread
    obtain ⟨_, -, hread⟩ := bind_eq_ok_iff.1 hread
    obtain ⟨_, -, hp⟩ := bind_eq_ok_iff.1 hread
    cases hp
    rfl
  | group =>
    obtain ⟨r, hread⟩ := exists_record_of_asRecord h
    obtain ⟨_, -, hread⟩ := bind_eq_ok_iff.1 hread
    obtain ⟨_, -, hread⟩ := bind_eq_ok_iff.1 hread
    obtain ⟨_, -, hp⟩ := bind_eq_ok_iff.1 hread
    cases hp
    rfl

theorem payload_of_ofRecord {r : Record} {annotate : Payload → Annotation}
    (h : Annotation.ofRecord r = .ok annotate) (p : Payload) : (annotate p).payload = p := by
  obtain ⟨_, -, h⟩ := bind_eq_ok_iff.1 h
  obtain ⟨_, -, h⟩ := bind_eq_ok_iff.1 h
  obtain ⟨_, -, h⟩ := bind_eq_ok_iff.1 h
  obtain ⟨_, -, h⟩ := bind_eq_ok_iff.1 h
  obtain ⟨_, -, h⟩ := bind_eq_ok_iff.1 h
  cases h
  rfl

theorem kind_of_ofFields {v : Json} {kind : AnnotationKind} {a : Annotation}
    (h : Annotation.ofFields kind v = .ok a) : a.kind = kind := by
  obtain ⟨annotate, hannotate, h⟩ := bind_eq_ok_iff.1 h
  obtain ⟨p, hp, heq⟩ := bind_eq_ok_iff.1 h
  obtain ⟨r, hread⟩ := exists_record_of_asRecord hannotate
  cases heq
  have hpayload := payload_of_ofRecord hread p
  exact (congrArg Payload.kind hpayload).trans (kind_of_ofFields_payload hp)

/-- An entry is read as an annotation of its section's kind on the target that is its key. -/
theorem readEntry_eq_ok {kind : AnnotationKind} {target : String} {v : Json} {a : Annotation}
    (h : readEntry kind target v = .ok a) : a.kind = kind ∧ a.target = target := by
  unfold readEntry at h
  split at h
  · split at h
    · cases h
    · next hfields =>
      split at h
      · next htarget =>
        cases h
        exact ⟨kind_of_ofFields hfields, htarget⟩
      · cases h
  · cases h

/-! ## The later kind wins -/

/-- Whether a later one of some kinds has an annotation in the place of this one: both kinds say how
the value of a parameter is supplied, and the targets are the same. -/
def Outranked (kinds : List AnnotationKind) (loaded : AnnotationKind → List Annotation)
    (a : Annotation) : Prop :=
  a.kind.suppliesValue = true ∧ ∃ later ∈ kinds, a.kind.rank < later.rank ∧
    later.suppliesValue = true ∧ ∃ b ∈ loaded later, b.target = a.target

instance (kinds : List AnnotationKind) (loaded : AnnotationKind → List Annotation) :
    DecidablePred (Outranked kinds loaded) :=
  fun _ => inferInstanceAs (Decidable (_ ∧ _))

theorem survivors_append (earlier later : List Annotation) :
    survivors (earlier ++ later) =
      (survivors earlier).filter (fun a => !later.any (·.conflicts a)) ++ survivors later := by
  have hsplit : ofList (earlier ++ later) = (ofList earlier).extend later := by
    rw [ofList, extend, List.foldl_append]
    rfl
  rw [← entries_ofList, hsplit, entries_extend, entries_ofList]

section

variable {loaded : AnnotationKind → List Annotation} {kind : AnnotationKind}
  {kinds : List AnnotationKind} {a : Annotation}

theorem conflicts_iff_of_rank {b : Annotation} (hrank : a.kind.rank < b.kind.rank) :
    b.conflicts a = true ↔
      b.target = a.target ∧ b.kind.suppliesValue = true ∧ a.kind.suppliesValue = true := by
  have hne : b.kind ≠ a.kind := by
    intro heq
    rw [heq] at hrank
    exact lt_irrefl _ hrank
  simp [AnnotationKind.conflicts, hne, Annotation.conflicts_iff]

/-- What is added after the annotations of a kind evicts those of them that are outranked. -/
theorem any_conflicts_iff (hkind : ∀ kind, ∀ a ∈ loaded kind, a.kind = kind)
    (hkinds : ∀ later ∈ kinds, kind.rank < later.rank) (ha : a ∈ loaded kind) :
    (kinds.flatMap loaded).any (·.conflicts a) = true ↔ Outranked (kind :: kinds) loaded a := by
  simp only [List.any_eq_true, List.mem_flatMap, Outranked, hkind kind a ha]
  constructor
  · rintro ⟨b, ⟨later, hlater, hb⟩, hconflict⟩
    have hrank : a.kind.rank < b.kind.rank := by
      rw [hkind kind a ha, hkind later b hb]
      exact hkinds later hlater
    obtain ⟨htarget, hsupplies, hsupplies'⟩ := (conflicts_iff_of_rank hrank).1 hconflict
    rw [hkind later b hb] at hsupplies
    rw [hkind kind a ha] at hsupplies'
    exact ⟨hsupplies', later, List.mem_cons_of_mem kind hlater, hkinds later hlater, hsupplies, b,
      hb, htarget⟩
  · rintro ⟨hsupplies', later, hlater, hrank, hsupplies, b, hb, htarget⟩
    have hmem : later ∈ kinds := by
      rcases List.mem_cons.1 hlater with rfl | hmem
      · exact absurd hrank (lt_irrefl _)
      · exact hmem
    refine ⟨b, ⟨later, hmem, hb⟩, ?_⟩
    rw [← hkind kind a ha, ← hkind later b hb] at hrank
    rw [conflicts_iff_of_rank hrank, hkind later b hb, hkind kind a ha]
    exact ⟨htarget, hsupplies, hsupplies'⟩

/-- An earlier kind outranks nothing. -/
theorem outranked_cons_iff (h : kind.rank < a.kind.rank) :
    Outranked (kind :: kinds) loaded a ↔ Outranked kinds loaded a := by
  have hnot : ¬ a.kind.rank < kind.rank := not_lt.2 h.le
  simp [Outranked, hnot]

/-- Of annotations that are added kind after kind those survive that are not outranked. -/
theorem survivors_flatMap (hkind : ∀ kind, ∀ a ∈ loaded kind, a.kind = kind)
    (htargets : ∀ kind, (loaded kind).Pairwise fun a b => a.target ≠ b.target)
    (hkinds : kinds.Pairwise fun a b => a.rank < b.rank) :
    survivors (kinds.flatMap loaded) =
      kinds.flatMap fun kind => (loaded kind).filter fun a => ¬ Outranked kinds loaded a := by
  induction kinds with
  | nil => rfl
  | cons kind kinds ih =>
    obtain ⟨hfirst, hrest⟩ := List.pairwise_cons.1 hkinds
    have hown : survivors (loaded kind) = loaded kind := by
      refine survivors_eq_self ((htargets kind).imp fun hne => ?_)
      rw [Bool.eq_false_iff]
      intro hconflict
      have htarget := Annotation.conflicts_iff.1 hconflict
      exact hne htarget.1.symm
    have hlater : ∀ k ∈ kinds, ((loaded k).filter fun a => ¬ Outranked kinds loaded a) =
        (loaded k).filter fun a => ¬ Outranked (kind :: kinds) loaded a := by
      intro k hk
      refine List.filter_congr fun a ha => decide_eq_decide.2 (not_congr ?_)
      refine (outranked_cons_iff ?_).symm
      rw [hkind k a ha]
      exact hfirst k hk
    rw [List.flatMap_cons, survivors_append, hown, ih hrest, List.flatMap_cons,
      List.flatMap_congr hlater]
    refine congrArg (· ++ _) (List.filter_congr fun a ha => ?_)
    have hiff := any_conflicts_iff hkind hfirst ha
    cases hany : (kinds.flatMap loaded).any (·.conflicts a) <;> simp_all

/-- Among the annotations on a target that say how a value is supplied there is one of the last
kind. -/
theorem exists_not_outranked (hkind : ∀ kind, ∀ a ∈ loaded kind, a.kind = kind)
    (ha : a ∈ loaded kind) (hsupplies : kind.suppliesValue = true) :
    ∃ last b, last.suppliesValue = true ∧ kind.rank ≤ last.rank ∧ b ∈ loaded last ∧
      b.target = a.target ∧ ¬ Outranked AnnotationKind.all loaded b := by
  have hbound : ∀ kind : AnnotationKind, kind.rank < AnnotationKind.all.length := by
    intro kind
    exact List.idxOf_lt_length_of_mem kind.mem_all
  induction hn : AnnotationKind.all.length - kind.rank using Nat.strongRecOn
    generalizing kind a with
  | ind n ih =>
    by_cases hout : Outranked AnnotationKind.all loaded a
    · obtain ⟨-, later, -, hrank, hlater, b, hb, htarget⟩ := hout
      rw [hkind kind a ha] at hrank
      have hless : AnnotationKind.all.length - later.rank < n := by
        have hlast := hbound later
        omega
      obtain ⟨last, c, hlast, hle, hc, hcb, hfree⟩ := ih _ hless hb hlater rfl
      exact ⟨last, c, hlast, hrank.le.trans hle, hc, hcb.trans htarget, hfree⟩
    · exact ⟨kind, a, hsupplies, le_rfl, ha, rfl, hout⟩

end

/-! ## Reading a document -/

theorem read_eq_ok_iff {text : String} {v : Json} {l : Ledger} (hv : Json.read? text = some v) :
    read text = .ok l ↔ v.isReadable 0 = true ∧ ofJson v = .ok l := by
  simp only [read, hv]
  split
  · next h => simp [h]
  · next h => simp [h]

theorem exists_object_of_ofJson {v : Json} {l : Ledger} (h : ofJson v = .ok l) :
    ∃ members, v = .object members := by
  obtain ⟨version, parts, kinds, annotations, houtline, -⟩ := ofJson_eq_ok_iff_outline.1 h
  cases v with
  | object members => exact ⟨members, rfl⟩
  | _ => simp [outline] at houtline

theorem sectionsDistinct_of_hasDistinctKeys (h : hasDistinctKeys (.object members) = true) :
    SectionsDistinct members := by
  intro m hm entries hentries
  have hvalue := (hasDistinctKeys_object_iff.1 h).2 m hm
  rw [hentries] at hvalue
  exact (hasDistinctKeys_object_iff.1 hvalue).1

/-- What a ledger has of a document from which it was loaded. -/
structure LoadedFrom (members : List (String × Json)) (loaded : AnnotationKind → List Annotation)
    (l : Ledger) : Prop where
  /-- In the order of the document, each entry of a kind is an annotation of this kind whose target
  is the key of the entry. -/
  entry : ∀ kind, List.Forall₂
    (fun e a => readEntry kind e.1 e.2 = .ok a ∧ a.kind = kind ∧ a.target = e.1)
    (entriesOf members kind) (loaded kind)
  /-- One kind after the other, the ledger has all annotations but those that are outranked. -/
  listed : l.entries = AnnotationKind.all.flatMap fun kind =>
    (loaded kind).filter fun a => ¬ Outranked AnnotationKind.all loaded a
  /-- Of the kinds that do not say how a value is supplied nothing is missing. -/
  whole : ∀ kind, kind.suppliesValue = false → l.ofKind kind = loaded kind
  /-- Of the annotations on a target that say how a value is supplied there is exactly one, and it is
  of the last kind that has one on this target. -/
  value : ∀ kind, kind.suppliesValue = true → ∀ a ∈ loaded kind, ∃ last b,
    last.suppliesValue = true ∧ kind.rank ≤ last.rank ∧ b ∈ loaded last ∧ b.target = a.target ∧
    (∀ later, later.suppliesValue = true → last.rank < later.rank →
      ∀ c ∈ loaded later, c.target ≠ a.target) ∧
    l.entries.filter (fun c => c.target = a.target && c.kind.suppliesValue) = [b]

section

variable {loaded : AnnotationKind → List Annotation}

theorem Loads.entry (h : Loads members loaded) (kind : AnnotationKind) : List.Forall₂
    (fun e a => readEntry kind e.1 e.2 = .ok a ∧ a.kind = kind ∧ a.target = e.1)
    (entriesOf members kind) (loaded kind) :=
  (h.entries kind).imp fun _ _ hread => ⟨hread, readEntry_eq_ok hread⟩

theorem Loads.kind_eq (h : Loads members loaded) (kind : AnnotationKind) :
    ∀ a ∈ loaded kind, a.kind = kind := by
  have hkind : List.Forall₂ (fun a e => a.kind = kind ∧ True) (loaded kind)
      (entriesOf members kind) :=
    (h.entry kind).flip.imp fun _ _ hread => ⟨hread.2.1, trivial⟩
  exact ((List.forall₂_and_left (loaded kind) _).1 hkind).1

theorem Loads.targets_ne (h : Loads members loaded) (hsections : SectionsDistinct members)
    (kind : AnnotationKind) : (loaded kind).Pairwise fun a b => a.target ≠ b.target := by
  have hentries : Distinct (entriesOf members kind) := by
    unfold entriesOf
    split
    · next hlookup => exact hsections _ (mem_of_lookup hlookup) _ rfl
    · exact List.nodup_nil
  have htargets : (loaded kind).map (·.target) = (entriesOf members kind).map (·.1) := by
    rw [← List.forall₂_eq_eq_eq, List.forall₂_map_left_iff, List.forall₂_map_right_iff]
    exact (h.entry kind).flip.imp fun _ _ hread => hread.2.2
  rw [Distinct, ← htargets, List.Nodup, List.pairwise_map] at hentries
  exact hentries

theorem Loads.listed (h : Loads members loaded) (hsections : SectionsDistinct members) :
    (ofList (AnnotationKind.all.flatMap loaded)).entries = AnnotationKind.all.flatMap fun kind =>
      (loaded kind).filter fun a => ¬ Outranked AnnotationKind.all loaded a := by
  rw [entries_ofList]
  exact survivors_flatMap h.kind_eq (h.targets_ne hsections) AnnotationKind.pairwise_all

theorem Loads.whole (h : Loads members loaded) (hsections : SectionsDistinct members)
    {kind : AnnotationKind} (hsupplies : kind.suppliesValue = false) :
    (ofList (AnnotationKind.all.flatMap loaded)).ofKind kind = loaded kind := by
  have hown : ∀ k, ((loaded k).filter fun a => ¬ Outranked AnnotationKind.all loaded a).filter
      (fun a => a.kind = kind) = if k = kind then loaded kind else [] := by
    intro k
    rw [List.filter_filter]
    split
    · next heq =>
      subst heq
      refine List.filter_eq_self.2 fun a ha => ?_
      simp [Outranked, h.kind_eq k a ha, hsupplies]
    · next hne =>
      refine List.filter_eq_nil_iff.2 fun a ha => ?_
      simp [h.kind_eq k a ha, hne]
  rw [ofKind, h.listed hsections, List.filter_flatMap]
  simp only [hown]
  exact AnnotationKind.flatMap_all_ite kind (loaded kind)

/-- An annotation that says how a value is supplied is the only such one on its target. -/
theorem filter_target_eq_singleton {annotations : List Annotation} {b : Annotation}
    (hb : b ∈ (ofList annotations).entries) (hsupplies : b.kind.suppliesValue = true) :
    (ofList annotations).entries.filter
      (fun c => c.target = b.target && c.kind.suppliesValue) = [b] := by
  refine List.perm_singleton.1 ((List.perm_ext_iff_of_nodup ((nodup_entries annotations).filter _)
    (List.nodup_singleton b)).2 fun c => ?_)
  simp only [List.mem_filter, List.mem_singleton, Bool.and_eq_true, decide_eq_true_eq]
  constructor
  · rintro ⟨hc, htarget, hvalue⟩
    by_contra hne
    have hfree := conflicts_eq_false_of_mem hc hb hne
    rw [Bool.eq_false_iff] at hfree
    have hkinds : c.kind.conflicts b.kind = true := by
      simp [AnnotationKind.conflicts, hvalue, hsupplies]
    exact hfree <| Annotation.conflicts_iff.2 ⟨htarget, hkinds⟩
  · rintro rfl
    exact ⟨hb, rfl, hsupplies⟩

theorem Loads.loadedFrom (h : Loads members loaded) (hsections : SectionsDistinct members) :
    LoadedFrom members loaded (ofList (AnnotationKind.all.flatMap loaded)) where
  entry := h.entry
  listed := h.listed hsections
  whole := fun _ hsupplies => h.whole hsections hsupplies
  value := by
    intro kind hsupplies a ha
    obtain ⟨last, b, hlast, hle, hb, htarget, hfree⟩ := exists_not_outranked h.kind_eq ha hsupplies
    have hkind : b.kind = last := h.kind_eq last b hb
    refine ⟨last, b, hlast, hle, hb, htarget, ?_, ?_⟩
    · intro later hlater hrank c hc hct
      exact hfree ⟨by rw [hkind, hlast], later, later.mem_all, by rw [hkind]; exact hrank, hlater,
        c, hc, hct.trans htarget.symm⟩
    · have hmem : b ∈ (ofList (AnnotationKind.all.flatMap loaded)).entries := by
        rw [h.listed hsections, List.mem_flatMap]
        exact ⟨last, last.mem_all, List.mem_filter.2 ⟨hb, by simpa using hfree⟩⟩
      rw [← htarget]
      exact filter_target_eq_singleton hmem (by rw [hkind, hlast])

end

/-- Of a document without repeated keys the ledger has the annotations kind by kind; where several
say how the value of a parameter is supplied, it has that of the last kind. In which order the
document lists the kinds makes no difference. -/
theorem read_laterKindWins {text : String} {v : Json} {l : Ledger}
    (hv : Json.read? text = some v) (hkeys : v.hasDistinctKeys = true)
    (hread : read text = .ok l) :
    ∃ members loaded, v = .object members ∧ LoadedFrom members loaded l ∧
      ∀ others text', members.Perm others → Json.read? text' = some (.object others) →
        read text' = .ok l := by
  obtain ⟨hreadable, hjson⟩ := (read_eq_ok_iff hv).1 hread
  obtain ⟨members, rfl⟩ := exists_object_of_ofJson hjson
  have hdistinct : Distinct members := (hasDistinctKeys_object_iff.1 hkeys).1
  have hsections := sectionsDistinct_of_hasDistinctKeys hkeys
  obtain ⟨loaded, hloads, rfl⟩ := (ofJson_eq_ok_iff hdistinct hsections).1 hjson
  refine ⟨members, loaded, rfl, hloads.loadedFrom hsections, ?_⟩
  intro others text' hperm htext
  have hothers : SectionsDistinct others := fun m hm => hsections m (hperm.mem_iff.2 hm)
  rw [read_eq_ok_iff htext, ofJson_eq_ok_iff (hdistinct.perm hperm) hothers]
  exact ⟨isReadable_object_of_perm hperm hreadable, loaded, hloads.perm hdistinct hperm, rfl⟩

/-- A document that lists a constant before a removal of the same parameter. -/
def conflictingDocument : Json :=
  .object [("constantAnnotations", .object [("p", .object [("defaultType", .text "none")])]),
    ("todoAnnotations", .object [("p", .object [("newTodo", .text "rename")])]),
    ("removeAnnotations", .object [("p", .object []), ("q", .object [])])]

theorem read_laterKindWins_conflictingDocument :
    ∃ l, read conflictingDocument.pretty = .ok l ∧ l.size = 3 ∧
      ∃ members loaded, conflictingDocument = .object members ∧ LoadedFrom members loaded l ∧
        ∀ others text', members.Perm others → Json.read? text' = some (.object others) →
          read text' = .ok l := by
  have hv : Json.read? conflictingDocument.pretty = some conflictingDocument :=
    read?_pretty (by decide)
  have hload : (ofJson conflictingDocument).toOption.any (fun l => l.size = 3) = true := by
    decide +kernel
  obtain ⟨l, hjson, hsize⟩ := exists_eq_ok_of_any hload
  have hread : read conflictingDocument.pretty = .ok l :=
    (read_eq_ok_iff hv).2 ⟨by decide, hjson⟩
  exact ⟨l, hread, by simpa using hsize, read_laterKindWins hv (by decide) hread⟩

end Ledger

end ApiEvolution
