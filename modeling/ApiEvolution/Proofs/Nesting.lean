import ApiEvolution.Proofs.Acceptance
import ApiEvolution.Proofs.StrictStage

/-!
# Members are matched inside matched containers

Parameters and results are compared inside the functions of one mapping, and attributes inside the
classes of one mapping. So every mapping of such members lies inside a mapping of containers of the
same set, whatever score the stage gives and whatever mapping it consults
(`exists_nestedIn_of_mem_candidates`). Where no member is listed by two containers, the containers
are those that the snapshots have in their indices, and members that are mapped to each other have
containers that are mapped to each other (`members_nested_of_runStage`).
-/

namespace ApiEvolution

open Similarity

variable {old new : Snapshot} {m c : Mapping}

/-! ## Mappings inside mappings of containers -/

/-- What a mapping has on a side is listed, with the kind of the mapping, by what another mapping
has on this side. -/
def Mapping.NestedIn (old new : Snapshot) (m c : Mapping) : Prop :=
  ∀ side, ∀ id ∈ m.ids side, ∃ container ∈ c.ids side,
    id ∈ (side.choose old new).children container m.kind

/-- A candidate of a kind that is compared inside containers is nested in a candidate of theirs. -/
theorem Matcher.exists_nestedIn_of_mem_candidates {score : Scorer} {threshold : Float}
    {containers : ElementKind} (hkind : m.kind.container? = some containers)
    (hm : m ∈ candidates score threshold old new) :
    ∃ c ∈ candidates score threshold old new, c.kind = containers ∧ m.NestedIn old new c := by
  obtain ⟨kind, hof⟩ := mem_candidates.1 hm
  obtain rfl : m.kind = kind := kind_of_mem_candidatesOf hof
  rw [candidatesOf_of_container?_eq_some hkind, mem_matchChildren] at hof
  obtain ⟨c, hc, hmatch⟩ := hof
  exact ⟨c, mem_candidates.2 ⟨containers, hc⟩, kind_of_mem_candidatesOf hc,
    fun _ _ hid => exists_container_of_mem_ids hmatch hid⟩

/-- The only containers of two identities are on the two sides of a mapping in which a mapping of
the identities is nested. -/
theorem Mapping.NestedIn.exists_containers (hnested : m.NestedIn old new c) (hold : old.Indexed)
    (hnew : new.Indexed) (hold' : old.Unshared) (hnew' : new.Unshared)
    (hkind : m.kind.container?.isSome) {x y : String} (hx : x ∈ m.sources) (hy : y ∈ m.targets) :
    ∃ a ∈ c.sources, ∃ b ∈ c.targets, old.parentOf? x = some a ∧ new.parentOf? y = some b := by
  obtain ⟨a, ha, hxa⟩ := hnested .source x hx
  obtain ⟨b, hb, hyb⟩ := hnested .target y hy
  exact ⟨a, ha, b, hb,
    Snapshot.parentOf?_of_mem_children hold (fun a' h => hold' _ a' a x hkind h hxa) hxa,
    Snapshot.parentOf?_of_mem_children hnew (fun b' h => hnew' _ b' b y hkind h hyb) hyb⟩

/-! ## The mappings of a stage -/

variable {oldText newText : String} {stage : Stage} {previous : Option MappingSet}
  {settings : Settings} {set : MappingSet}

/-- Between accepted snapshots, each mapping of members that a stage finds is nested in a mapping of
containers that it finds: parameters and results in functions, attributes in classes. If no member
is listed by two containers, then the containers of members that are mapped to each other are mapped
to each other. -/
theorem members_nested_of_runStage (hold : Snapshot.read oldText = .ok old)
    (hnew : Snapshot.read newText = .ok new)
    (h : runStage stage old new previous settings = .ok set) :
    (∀ m ∈ set.mappings,
      (m.kind = .parameterKind ∨ m.kind = .resultKind →
        ∃ f ∈ set.mappings, f.kind = .functionKind ∧ m.NestedIn old new f) ∧
      (m.kind = .attributeKind → ∃ c ∈ set.mappings, c.kind = .classKind ∧ m.NestedIn old new c)) ∧
    (old.Unshared → new.Unshared → ∀ kind ∈ [.parameterKind, .attributeKind, .resultKind], ∀ x y,
      old.declares kind x = true → set.maps x y = true →
        ∃ a b, old.parentOf? x = some a ∧ new.parentOf? y = some b ∧ set.maps a b = true) := by
  have hfits := MappingSet.validate_eq_ok_iff.1 (runStage_eq_ok_iff.1 h).2.2
  obtain ⟨-, hcandidates⟩ := candidates_of_runStage h
  have hnested : ∀ m ∈ set.mappings, ∀ containers, m.kind.container? = some containers →
      ∃ c ∈ set.mappings, c.kind = containers ∧ m.NestedIn old new c := by
    rw [hcandidates]
    exact fun m hm containers hkind => Matcher.exists_nestedIn_of_mem_candidates hkind hm
  constructor
  · intro m hm
    constructor
    · rintro (hkind | hkind)
      · exact hnested m hm _ (by rw [hkind]; rfl)
      · exact hnested m hm _ (by rw [hkind]; rfl)
    · intro hkind
      exact hnested m hm _ (by rw [hkind]; rfl)
  · intro hold' hnew' kind hmember x y hdeclared hmaps
    have hinside : ∀ kind ∈ [ElementKind.parameterKind, .attributeKind, .resultKind],
        kind.container?.isSome := by
      decide
    obtain ⟨m, hm, hx, hy⟩ := MappingSet.maps_iff.1 hmaps
    -- a mapping has the kind with which its identities are declared
    obtain rfl : m.kind = kind :=
      Snapshot.kind_eq_of_declares (hfits m hm .source x hx) hdeclared
    obtain ⟨containers, hkind⟩ := Option.isSome_iff_exists.1 (hinside m.kind hmember)
    obtain ⟨c, hc, -, hmc⟩ := hnested m hm containers hkind
    obtain ⟨a, ha, b, hb, hparent, hparent'⟩ := hmc.exists_containers
      (Snapshot.indexed_of_read hold) (Snapshot.indexed_of_read hnew) hold' hnew'
      (hinside m.kind hmember) hx hy
    exact ⟨a, b, hparent, hparent', MappingSet.maps_iff.2 ⟨c, hc, ha, hb⟩⟩

/-! ## A class that is renamed -/

/-- A document in which the class with an attribute has got another name. -/
def renamedClass : Json :=
  .object [("distribution", .text "lib"), ("package", .text "lib"), ("version", .text "2.0"),
    ("classes", .array [.object [("id", .text "lib/As"), ("qname", .text "lib.As"),
      ("attributes", .array [.text "lib/As/x"])]]),
    ("attributes", .array [.object [("id", .text "lib/As/x"), ("name", .text "x")]])]

/-- Whether the naive stage keeps the elements of a kind with two identities. -/
def keepsNaively (old new : Snapshot) (kind : ElementKind) (s t : String) : Bool :=
  (old.element? s).any fun x => (new.element? t).any fun y => x.kind = kind ∧ y.kind = kind ∧
    Matcher.keeps (clampUnit ({} : Settings).threshold) ((⟨old, new, none⟩ : Comparison).naive x y)

theorem keepsNaively_iff {kind : ElementKind} {s t : String} :
    keepsNaively old new kind s t = true ↔ ∃ x y, old.element? s = some x ∧
      new.element? t = some y ∧ x.kind = kind ∧ y.kind = kind ∧
      Matcher.keeps (clampUnit ({} : Settings).threshold)
        ((⟨old, new, none⟩ : Comparison).naive x y) = true := by
  simp [keepsNaively, Option.any_eq_true]

open Matcher in
/-- Classes and their attributes that the naive stage keeps are mapped to each other. -/
theorem maps_of_keepsNaively (hold : old.Coherent) (hnew : new.Coherent) {c d s t : String}
    (hcd : keepsNaively old new .classKind c d = true)
    (hst : keepsNaively old new .attributeKind s t = true)
    (hs : s ∈ old.children c .attributeKind) (ht : t ∈ new.children d .attributeKind)
    (h : runStage .naive old new none {} = .ok set) : set.maps s t = true := by
  obtain ⟨-, rfl⟩ := candidates_of_runStage h
  obtain ⟨x, y, hx, hy, hxkind, hykind, hkeep⟩ := keepsNaively_iff.1 hcd
  obtain ⟨u, v, hu, hv, -, -, hkeep'⟩ := keepsNaively_iff.1 hst
  obtain ⟨hxmem, rfl⟩ := Snapshot.mem_of_element? hx
  obtain ⟨hymem, rfl⟩ := Snapshot.mem_of_element? hy
  obtain ⟨-, rfl⟩ := Snapshot.mem_of_element? hu
  obtain ⟨-, rfl⟩ := Snapshot.mem_of_element? hv
  have hmaps := maps_candidates_of_keeps hold hnew rfl
    (hxkind ▸ Snapshot.mem_allElements_iff.1 hxmem) (hykind ▸ Snapshot.mem_allElements_iff.1 hymem)
    hkeep
  obtain ⟨m, hm, hsource, htarget⟩ :=
    (maps_candidates_iff hold hnew (Snapshot.declares_iff.2 ⟨x, hx, hxkind⟩)).1 hmaps
  exact MappingSet.maps_iff.2 (exists_mem_candidates_of_keeps (.within rfl hm)
    (first?_listed_eq_some_iff.2 ⟨⟨x.id, hsource, hs⟩, hu⟩)
    (first?_listed_eq_some_iff.2 ⟨⟨y.id, htarget, ht⟩, hv⟩) hkeep')

theorem exists_read_renamedClass :
    ∃ old new, Snapshot.read classWithAttribute.pretty = .ok old ∧
      Snapshot.read renamedClass.pretty = .ok new ∧ old.Unshared ∧ new.Unshared ∧
      keepsNaively old new .classKind "lib/A" "lib/As" = true ∧
      keepsNaively old new .attributeKind "lib/A/x" "lib/As/x" = true ∧
      "lib/A/x" ∈ old.children "lib/A" .attributeKind ∧
      "lib/As/x" ∈ new.children "lib/As" .attributeKind := by
  have hkeeps : (Snapshot.ofJson classWithAttribute).toOption.any (fun old =>
      (Snapshot.ofJson renamedClass).toOption.any fun new =>
        decide (old.Unshared ∧ new.Unshared ∧
          keepsNaively old new .classKind "lib/A" "lib/As" = true ∧
          keepsNaively old new .attributeKind "lib/A/x" "lib/As/x" = true ∧
          "lib/A/x" ∈ old.children "lib/A" .attributeKind ∧
          "lib/As/x" ∈ new.children "lib/As" .attributeKind)) = true := by
    decide +kernel
  obtain ⟨old, hold, h⟩ := Snapshot.exists_read_pretty (by decide) hkeeps
  obtain ⟨new, hnew, h⟩ := Snapshot.exists_read_pretty (by decide) h
  exact ⟨old, new, hold, hnew, of_decide_eq_true h⟩

/-- The attribute of a renamed class is mapped, and so the class is. -/
theorem members_nested_of_runStage_renamedClass :
    ∃ old new set, Snapshot.read classWithAttribute.pretty = .ok old ∧
      Snapshot.read renamedClass.pretty = .ok new ∧ old.Unshared ∧ new.Unshared ∧
      runStage .naive old new none {} = .ok set ∧ set.maps "lib/A/x" "lib/As/x" = true ∧
      old.parentOf? "lib/A/x" = some "lib/A" ∧ new.parentOf? "lib/As/x" = some "lib/As" ∧
      set.maps "lib/A" "lib/As" = true := by
  obtain ⟨old, new, hread, hread', hold', hnew', hclass, hattribute, hchild, hchild'⟩ :=
    exists_read_renamedClass
  have hold := Snapshot.indexed_of_read hread
  have hnew := Snapshot.indexed_of_read hread'
  obtain ⟨set, hset⟩ : ∃ set, runStage .naive old new none {} = .ok set :=
    exists_runStage hold.toCoherent hnew.toCoherent hold' hnew' (by simp) .naive {}
  have hmaps : set.maps "lib/A/x" "lib/As/x" = true :=
    maps_of_keepsNaively hold.toCoherent hnew.toCoherent hclass hattribute hchild hchild' hset
  obtain ⟨u, v, hu, hv, hukind, -⟩ := keepsNaively_iff.1 hattribute
  have hdeclared : old.declares .attributeKind "lib/A/x" = true :=
    Snapshot.declares_iff.2 ⟨u, hu, hukind⟩
  obtain ⟨a, b, ha, hb, hab⟩ := (members_nested_of_runStage hread hread' hset).2 hold' hnew'
    .attributeKind (by simp) _ _ hdeclared hmaps
  have hparent : old.parentOf? "lib/A/x" = some "lib/A" := Snapshot.parentOf?_of_mem_children hold
    (fun a' h => hold' _ a' _ _ rfl h hchild) hchild
  have hparent' : new.parentOf? "lib/As/x" = some "lib/As" :=
    Snapshot.parentOf?_of_mem_children hnew (fun a' h => hnew' _ a' _ _ rfl h hchild') hchild'
  obtain rfl : a = "lib/A" := Option.some.inj (ha.symm.trans hparent)
  obtain rfl : b = "lib/As" := Option.some.inj (hb.symm.trans hparent')
  exact ⟨old, new, set, hread, hread', hold', hnew', hset, hmaps, hparent, hparent', hab⟩

end ApiEvolution
