import ApiEvolution.Proofs.Acceptance
import ApiEvolution.Proofs.Ancestry
import ApiEvolution.Proofs.StrictStage
import ApiEvolution.Proofs.UnitScores

/-!
# Overriding members

The inheritance stage moves the score of a member towards that of the member which it overrides, and
does not look at the containers when it does so: a pair that it has rejected would come back with a
part of the other score. In a run this does not happen (`admits_of_inheritance_pos`). What overrides
has an ancestor's member that the strict stage has mapped, and of this member the containers agree
(`containersMatch_of_mem_strict`); so the ancestor is a class to which the old container is mapped,
and the new container is one of its descendants (`areRelated_of_overridden`).
-/

namespace ApiEvolution

open Similarity

/-! ## Members that override -/

variable {old new : Snapshot} {p : MappingSet} {x y : Element}

namespace Comparison

theorem isDescendant_iff {s : Snapshot} {id d : String} :
    isDescendant s id d = true ↔ d ∈ s.descendants id := by
  rw [Snapshot.mem_descendants_iff]
  simp [isDescendant, and_assoc]

/-- There is a member that a new element overrides if one of its name is listed by an ancestor of
its class and the old element is mapped to it. -/
theorem overriddenSimilarity?_eq_some_iff {similarity : Float} :
    (⟨old, new, some p⟩ : Comparison).overriddenSimilarity? x y = some similarity ↔
      (y.kind = .functionKind ∨ y.kind = .attributeKind) ∧
        (∃ parent a id, new.parentOf? y.id = some parent ∧ a ∈ new.ancestors parent ∧
          id ∈ new.children a y.kind ∧ isNamed new id y.name = true ∧ p.maps x.id id = true) ∧
        ∃ m, p.forSource? x.id = some m ∧ m.similarity = similarity := by
  rw [overriddenSimilarity?, Option.ite_none_right_eq_some]
  refine and_congr_right fun _ => ?_
  cases hparent : new.parentOf? y.id with
  | none => simp
  | some parent =>
    simp only [Option.bind_eq_bind, Option.bind_some, Option.ite_none_right_eq_some,
      List.any_eq_true, List.mem_flatMap, Bool.and_eq_true, Option.map_eq_some_iff]
    refine and_congr_left fun _ => ?_
    constructor
    · rintro ⟨id, ⟨a, ha, hid⟩, hnamed, hmaps⟩
      exact ⟨parent, a, id, rfl, ha, hid, hnamed, hmaps⟩
    · rintro ⟨_, a, id, ⟨⟩, ha, hid, hnamed, hmaps⟩
      exact ⟨id, ⟨a, ha, hid⟩, hnamed, hmaps⟩

end Comparison

/-! ## Containers related by a class hierarchy -/

/-- The container of a new identity is an ancestor or a descendant of a class to which a mapping set
maps the container of an old one. -/
def ContainersRelated (p : MappingSet) (old new : Snapshot) (s t : String) : Prop :=
  ∃ c d mapped, old.parentOf? s = some c ∧ new.parentOf? t = some d ∧ p.maps c mapped = true ∧
    (d ∈ new.ancestors mapped ∨ d ∈ new.descendants mapped)

namespace Comparison

theorem containersRelated_of_areRelated
    (h : (⟨old, new, some p⟩ : Comparison).areRelated x y = true) :
    ContainersRelated p old new x.id y.id := by
  rw [areRelated] at h
  cases hc : old.parentOf? x.id with
  | none => simp [hc] at h
  | some c =>
    cases hd : new.parentOf? y.id with
    | none => simp [hc, hd] at h
    | some d =>
      cases hm : p.forSource? c with
      | none => simp [hc, hd, hm] at h
      | some m =>
        simp only [hc, hd, hm, List.any_eq_true, Bool.and_eq_true, Bool.or_eq_true,
          List.contains_iff_mem, isDescendant_iff] at h
        obtain ⟨mapped, hmapped, -, hrelated⟩ := h
        have hside : p.forSide? .source c = some m := hm
        obtain ⟨hmem, hcm⟩ := MappingSet.mem_of_forSide? hside
        exact ⟨c, d, mapped, hc, hd, MappingSet.maps_iff.2 ⟨m, hmem, hcm, hmapped⟩, hrelated⟩

/-- The new container is related to the old one if it is a descendant of a class to which this one
is mapped. -/
theorem areRelated_of_mem_descendants (hp : p.Partitioned) {c d mapped : String}
    (hc : old.parentOf? x.id = some c) (hd : new.parentOf? y.id = some d)
    (hmaps : p.maps c mapped = true) (hclass : new.declares .classKind mapped = true)
    (h : d ∈ new.descendants mapped) :
    (⟨old, new, some p⟩ : Comparison).areRelated x y = true := by
  obtain ⟨m, hm, hcm, hmapped⟩ := MappingSet.maps_iff.1 hmaps
  have hfound : p.forSource? c = some m := (MappingSet.forSource?_eq_some_iff hp).2 ⟨hm, hcm⟩
  simp only [areRelated, hc, hd, hfound, List.any_eq_true, Bool.and_eq_true, Bool.or_eq_true]
  exact ⟨mapped, hmapped, Snapshot.isSome_class?_iff.2 hclass, .inr (isDescendant_iff.2 h)⟩

/-- A new element that overrides a member is admitted, if the containers of everything that is
mapped agree with the mapping set itself. -/
theorem areRelated_of_overridden (hnew : new.Indexed) (hexclusive : new.Exclusive)
    (hp : p.Partitioned)
    (hagree : ∀ s t, p.maps s t = true → ContainersMatch p old new s t)
    (hy : y ∈ new.allElements) {similarity : Float}
    (h : (⟨old, new, some p⟩ : Comparison).overriddenSimilarity? x y = some similarity) :
    (⟨old, new, some p⟩ : Comparison).areRelated x y = true := by
  obtain ⟨hkind, ⟨parent, a, id, hparent, ha, hid, -, hmaps⟩, -⟩ :=
    overriddenSimilarity?_eq_some_iff.1 h
  have hida : new.parentOf? id = some a :=
    (Snapshot.parentOf?_eq_some_iff hnew hexclusive).2 ⟨y.kind, hid⟩
  cases hagree _ _ hmaps with
  | outermost _ hnone => simp [hida] at hnone
  | @inside c a' hc ha' hca =>
    obtain rfl : a = a' := Option.some.inj (hida.symm.trans ha')
    have hclass := Snapshot.declares_class_of_mem_children hnew.toCoherent hkind hid
    have hchild := Snapshot.mem_children_of_parentOf? hnew (Snapshot.mem_allElements_iff.1 hy)
      hparent
    have hparentClass := Snapshot.declares_class_of_mem_children hnew.toCoherent hkind hchild
    refine areRelated_of_mem_descendants hp hc hparent hca hclass ?_
    refine Snapshot.mem_descendants_iff.2 ⟨Snapshot.isSome_class?_iff.2 hparentClass, ?_, ha⟩
    exact (Snapshot.mem_ancestors_iff.1 ha).1.symm

/-- Where no overridden member is found, a pair that is not admitted has the score zero. -/
theorem inheritance_eq_zero {c : Comparison} {boost : Float} (hadmits : c.admits x y = false)
    (hoverridden : c.overriddenSimilarity? x y = none) : c.inheritance boost x y = 0 := by
  rw [admits, Bool.or_eq_false_iff] at hadmits
  simp only [inheritance, hadmits, hoverridden, Bool.false_eq_true, if_false]
  decide

/-- A positive score is that of a pair that is admitted, or else of one that the boost has raised;
but then the pair is admitted, too. -/
theorem admits_of_pos (hnew : new.Indexed) (hexclusive : new.Exclusive) (hp : p.Partitioned)
    (hagree : ∀ s t, p.maps s t = true → ContainersMatch p old new s t)
    (hy : y ∈ new.allElements) {boost : Float}
    (hpos : 0 < (⟨old, new, some p⟩ : Comparison).inheritance boost x y) :
    (⟨old, new, some p⟩ : Comparison).admits x y = true := by
  by_contra hnot
  have hfalse := Bool.eq_false_iff.2 hnot
  cases hoverridden : (⟨old, new, some p⟩ : Comparison).overriddenSimilarity? x y with
  | none =>
    rw [inheritance_eq_zero hfalse hoverridden] at hpos
    revert hpos
    decide
  | some similarity =>
    have hrelated := areRelated_of_overridden hnew hexclusive hp hagree hy hoverridden
    rw [admits, hrelated, Bool.or_true] at hfalse
    cases hfalse

/-- An admitted pair with the full score keeps it, since no member that is overridden has a greater
similarity. -/
theorem inheritance_eq_one {c : Comparison} {boost : Float} (hadmits : c.admits x y = true)
    (hnaive : c.naive x y = 1) (hbounded : ∀ q ∈ c.previous, ∀ m ∈ q.mappings, ¬ 1 < m.similarity) :
    c.inheritance boost x y = 1 := by
  have hone : clampUnit 1 = 1 := by decide
  have hscore : (if c.containersAgree x y then c.strict x y
      else if c.areRelated x y then c.naive x y else 0) = 1 := by
    rw [admits, Bool.or_eq_true] at hadmits
    by_cases hagree : c.containersAgree x y = true
    · rw [if_pos hagree, strict, if_pos hagree, hnaive]
    · rw [if_neg hagree, if_pos (hadmits.resolve_left hagree), hnaive]
  simp only [inheritance, hscore]
  cases hoverridden : c.overriddenSimilarity? x y with
  | none => exact hone
  | some similarity =>
    obtain ⟨old, new, _ | q⟩ := c
    · simp [overriddenSimilarity?] at hoverridden
    · obtain ⟨-, -, m, hm, rfl⟩ := overriddenSimilarity?_eq_some_iff.1 hoverridden
      have hside : q.forSide? .source x.id = some m := hm
      simp only [hbounded q rfl m (MappingSet.mem_of_forSide? hside).1, if_false]
      exact hone

end Comparison

/-! ## The strict mapping set of a run -/

/-- The containers of what the strict stage maps agree with its own result. -/
theorem containersMatch_of_maps_strict {settings : Settings} {naive strict : MappingSet}
    (hold : old.Indexed) (hnew : new.Indexed) (hold' : old.Exclusive) (hnew' : new.Exclusive)
    (hnaive : runStage .naive old new none settings = .ok naive)
    (hstrict : runStage .strict old new (some naive) settings = .ok strict) {s t : String}
    (hst : strict.maps s t = true) : ContainersMatch strict old new s t := by
  obtain ⟨m, hm, hs, ht⟩ := MappingSet.maps_iff.1 hst
  exact containersMatch_of_mem_strict hold hnew hold'.unshared hnew'.unshared hnaive hstrict hm hs
    ht

/-- Between accepted documents in which nothing is listed by two containers a run succeeds, and
after its strict stage the inheritance stage gives a positive score only to pairs that it admits:
their containers agree with the strict mapping set, or the new container is an ancestor or a
descendant of a class to which the old one is mapped. -/
theorem admits_of_inheritance_pos {oldText newText : String} {old new : Snapshot}
    (hold : Snapshot.read oldText = .ok old) (hnew : Snapshot.read newText = .ok new)
    (hold' : old.Exclusive) (hnew' : new.Exclusive) (settings : Settings) :
    ∃ r strict, runPipeline old new settings = .ok r ∧ (Stage.strict, strict) ∈ r.stages ∧
      ∀ x ∈ old.allElements, ∀ y ∈ new.allElements,
        0 < (⟨old, new, some strict⟩ : Comparison).inheritance settings.boost x y →
          (⟨old, new, some strict⟩ : Comparison).admits x y = true ∧
            (ContainersMatch strict old new x.id y.id ∨
              ContainersRelated strict old new x.id y.id) := by
  have hi := Snapshot.indexed_of_read hold
  have hi' := Snapshot.indexed_of_read hnew
  obtain ⟨r, hr⟩ := exists_runPipeline hi.toCoherent hi'.toCoherent hold'.unshared hnew'.unshared
    settings
  obtain ⟨naive, strict, _, _, hnaive, hstrict, -, -, hstages⟩ := stages_of_runPipeline hr
  refine ⟨r, strict, hr, by simp [hstages], ?_⟩
  intro x _ y hy hpos
  have hpart : strict.Partitioned := (candidates_of_runStage hstrict).1
  have hagree : ∀ s t, strict.maps s t = true → ContainersMatch strict old new s t :=
    fun _ _ => containersMatch_of_maps_strict hi hi' hold' hnew' hnaive hstrict
  have hadmits := Comparison.admits_of_pos hi' hnew' hpart hagree hy hpos
  refine ⟨hadmits, ?_⟩
  rw [Comparison.admits, Bool.or_eq_true] at hadmits
  rcases hadmits with hmatch | hrelated
  · exact .inl (containersAgree_iff.1 hmatch)
  · exact .inr (Comparison.containersRelated_of_areRelated hrelated)

/-- A class with a method that is going to be overridden. -/
def methodClass : ClassDecl :=
  { id := "A", qname := "A", methods := ["A/m"] }

/-- The method, which has no parameters. -/
def overriddenMethod : FunctionDecl :=
  { id := "A/m", qname := "A.m" }

/-- A subclass that has the method, too. -/
def overridingClass : ClassDecl :=
  { id := "B", qname := "Sub", superclasses := ["A"], methods := ["B/m"] }

/-- The method of the subclass. -/
def overridingMethod : FunctionDecl :=
  { id := "B/m", qname := "Sub.m" }

/-- A document of the class. -/
def libraryWithMethod : Json :=
  .object [("distribution", .text "l"), ("package", .text "l"), ("version", .text "1"),
    ("classes", .array [.object [("id", .text "A"), ("qname", .text "A"),
      ("methods", .array [.text "A/m"])]]),
    ("functions", .array [.object [("id", .text "A/m"), ("qname", .text "A.m")]])]

/-- A later document, with the subclass. -/
def libraryWithOverride : Json :=
  .object [("distribution", .text "l"), ("package", .text "l"), ("version", .text "2"),
    ("classes", .array [.object [("id", .text "A"), ("qname", .text "A"),
        ("methods", .array [.text "A/m"])],
      .object [("id", .text "B"), ("qname", .text "Sub"), ("superclasses", .array [.text "A"]),
        ("methods", .array [.text "B/m"])]]),
    ("functions", .array [.object [("id", .text "A/m"), ("qname", .text "A.m")],
      .object [("id", .text "B/m"), ("qname", .text "Sub.m")]])]

/-- What the snapshots of the two documents declare, which class contains and inherits what, and how
alike the declarations are. -/
structure Overrides (old new : Snapshot) : Prop where
  classes : old.classes = [methodClass] ∧ new.classes = [methodClass, overridingClass]
  functions : old.functions = [overriddenMethod] ∧
    new.functions = [overriddenMethod, overridingMethod]
  parents : old.parentOf? "A/m" = some "A" ∧ new.parentOf? "A/m" = some "A" ∧
    new.parentOf? "B/m" = some "B"
  inherits : "A" ∈ new.ancestors "B" ∧ "A/m" ∈ new.children "A" .functionKind ∧
    Comparison.isNamed new "A/m" "m" = true
  keeps_class : Matcher.keeps (clampUnit ({} : Settings).threshold)
    ((⟨old, new, none⟩ : Comparison).naive (.ofClass methodClass) (.ofClass methodClass)) = true
  rejects_subclass : Matcher.keeps (clampUnit ({} : Settings).threshold)
    ((⟨old, new, none⟩ : Comparison).naive (.ofClass methodClass) (.ofClass overridingClass)) =
      false
  naive_method : (⟨old, new, none⟩ : Comparison).naive (.ofFunction overriddenMethod)
    (.ofFunction overriddenMethod) = 1
  naive_override : (⟨old, new, none⟩ : Comparison).naive (.ofFunction overriddenMethod)
    (.ofFunction overridingMethod) = 1

theorem exists_read_override :
    ∃ old new, Snapshot.read libraryWithMethod.pretty = .ok old ∧
      Snapshot.read libraryWithOverride.pretty = .ok new ∧ old.Exclusive ∧ new.Exclusive ∧
      Overrides old new := by
  have hreads : (Snapshot.ofJson libraryWithMethod).toOption.any (fun old =>
      (Snapshot.ofJson libraryWithOverride).toOption.any fun new =>
        decide (old.Exclusive ∧ new.Exclusive ∧
          (old.classes = [methodClass] ∧ new.classes = [methodClass, overridingClass]) ∧
          (old.functions = [overriddenMethod] ∧
            new.functions = [overriddenMethod, overridingMethod]) ∧
          (old.parentOf? "A/m" = some "A" ∧ new.parentOf? "A/m" = some "A" ∧
            new.parentOf? "B/m" = some "B") ∧
          ("A" ∈ new.ancestors "B" ∧ "A/m" ∈ new.children "A" .functionKind ∧
            Comparison.isNamed new "A/m" "m" = true) ∧
          Matcher.keeps (clampUnit ({} : Settings).threshold)
            ((⟨old, new, none⟩ : Comparison).naive (.ofClass methodClass) (.ofClass methodClass)) =
              true ∧
          Matcher.keeps (clampUnit ({} : Settings).threshold)
            ((⟨old, new, none⟩ : Comparison).naive (.ofClass methodClass)
              (.ofClass overridingClass)) = false ∧
          (⟨old, new, none⟩ : Comparison).naive (.ofFunction overriddenMethod)
            (.ofFunction overriddenMethod) = 1 ∧
          (⟨old, new, none⟩ : Comparison).naive (.ofFunction overriddenMethod)
            (.ofFunction overridingMethod) = 1)) = true := by
    decide +kernel
  obtain ⟨old, hold, h⟩ := Snapshot.exists_read_pretty (by decide) hreads
  obtain ⟨new, hnew, h⟩ := Snapshot.exists_read_pretty (by decide) h
  obtain ⟨hold', hnew', h₁, h₂, h₃, h₄, h₅, h₆, h₇, h₈⟩ := of_decide_eq_true h
  exact ⟨old, new, hold, hnew, hold', hnew', h₁, h₂, h₃, h₄, h₅, h₆, h₇, h₈⟩

namespace Overrides

variable {naive strict : MappingSet}

/-- The strict stage maps the class to itself, as the naive stage does, but not to the subclass. -/
theorem maps_class (h : Overrides old new) (hold : old.Indexed) (hnew : new.Indexed)
    (hnaive : runStage .naive old new none {} = .ok naive)
    (hstrict : runStage .strict old new (some naive) {} = .ok strict) :
    naive.maps "A" "A" = true ∧ strict.maps "A" "A" = true ∧ strict.maps "A" "B" = false := by
  have hx : Element.ofClass methodClass ∈ old.elements .classKind := by
    simp [Snapshot.elements, h.classes.1]
  have hy : Element.ofClass methodClass ∈ new.elements .classKind := by
    simp [Snapshot.elements, h.classes.2]
  have hdeclared : old.declares .classKind "A" = true :=
    Snapshot.declares_of_mem_elements hold.distinct hx
  obtain rfl := eq_naiveSet hnaive
  obtain rfl := eq_strictSet hstrict
  have hself : (naiveSet old new (clampUnit ({} : Settings).threshold)).maps "A" "A" = true :=
    maps_candidates_of_keeps hold.toCoherent hnew.toCoherent rfl hx hy h.keeps_class
  refine ⟨hself, (maps_naiveSet_iff_strictSet hold hnew hdeclared).1 hself, ?_⟩
  rw [← Bool.not_eq_true, ← maps_naiveSet_iff_strictSet hold hnew hdeclared]
  intro hmaps
  obtain ⟨x', hx', y', hy', hid, hkeep⟩ :=
    exists_keeps_of_maps_candidates hold.toCoherent hnew.toCoherent rfl hdeclared hmaps
  obtain rfl : x' = .ofClass methodClass := by simpa [Snapshot.elements, h.classes.1] using hx'
  have hy'' : y' = .ofClass methodClass ∨ y' = .ofClass overridingClass := by
    simpa [Snapshot.elements, h.classes.2] using hy'
  obtain rfl | rfl := hy''
  · simp [Element.id, methodClass] at hid
  · rw [h.rejects_subclass] at hkeep
    cases hkeep

/-- And it maps the method to itself. -/
theorem maps_method (h : Overrides old new) (hold : old.Indexed) (hnew : new.Indexed)
    (hnaive : runStage .naive old new none {} = .ok naive)
    (hstrict : runStage .strict old new (some naive) {} = .ok strict) :
    strict.maps "A/m" "A/m" = true := by
  have hx : Element.ofFunction overriddenMethod ∈ old.elements .functionKind := by
    simp [Snapshot.elements, h.functions.1]
  have hy : Element.ofFunction overriddenMethod ∈ new.elements .functionKind := by
    simp [Snapshot.elements, h.functions.2]
  have hagree : (⟨old, new, some naive⟩ : Comparison).containersAgree (.ofFunction overriddenMethod)
      (.ofFunction overriddenMethod) = true :=
    containersAgree_iff.2
      (.inside h.parents.1 h.parents.2.1 (h.maps_class hold hnew hnaive hstrict).1)
  have hthreshold : ({} : Settings).threshold.isNaN = false := by decide
  obtain rfl := eq_strictSet hstrict
  refine maps_candidates_of_keeps hold.toCoherent hnew.toCoherent rfl hx hy ?_
  refine Comparison.keeps_strict_iff.2 ⟨hagree, ?_⟩
  exact h.naive_method ▸ keeps_one hthreshold

/-- So the method of the subclass overrides one to which the old method is mapped. -/
theorem exists_overridden (h : Overrides old new) (hold : old.Indexed) (hnew : new.Indexed)
    (hnaive : runStage .naive old new none {} = .ok naive)
    (hstrict : runStage .strict old new (some naive) {} = .ok strict) :
    ∃ similarity, (⟨old, new, some strict⟩ : Comparison).overriddenSimilarity?
      (.ofFunction overriddenMethod) (.ofFunction overridingMethod) = some similarity := by
  have hmethod := h.maps_method hold hnew hnaive hstrict
  obtain ⟨m, hm, hsource, -⟩ := MappingSet.maps_iff.1 hmethod
  have hpart : strict.Partitioned := (candidates_of_runStage hstrict).1
  obtain ⟨hancestor, hchild, hnamed⟩ := h.inherits
  exact ⟨m.similarity, Comparison.overriddenSimilarity?_eq_some_iff.2 ⟨.inl rfl,
    ⟨"B", "A", "A/m", h.parents.2.2, hancestor, hchild, hnamed, hmethod⟩,
    m, (MappingSet.forSource?_eq_some_iff hpart).2 ⟨hm, hsource⟩, rfl⟩⟩

/-- The two methods are alike, and no similarity of the strict stage is above theirs. -/
theorem inheritance_eq_one (h : Overrides old new)
    (hstrict : runStage .strict old new (some naive) {} = .ok strict) {boost : Float}
    (hadmits : (⟨old, new, some strict⟩ : Comparison).admits (.ofFunction overriddenMethod)
      (.ofFunction overridingMethod) = true) :
    (⟨old, new, some strict⟩ : Comparison).inheritance boost (.ofFunction overriddenMethod)
      (.ofFunction overridingMethod) = 1 := by
  refine Comparison.inheritance_eq_one hadmits h.naive_override ?_
  rintro q ⟨⟩ m hm
  rw [(candidates_of_runStage hstrict).2] at hm
  exact Matcher.not_one_lt_similarity (fun _ _ => Comparison.not_one_lt_strict) hm

end Overrides

/-- The method of the subclass overrides the one to which the old method is mapped. The strict stage
does not map their classes to each other: they are related by the inheritance alone. -/
theorem admits_of_inheritance_pos_override :
    ∃ old new r strict similarity, Snapshot.read libraryWithMethod.pretty = .ok old ∧
      Snapshot.read libraryWithOverride.pretty = .ok new ∧ old.Exclusive ∧ new.Exclusive ∧
      runPipeline old new {} = .ok r ∧ (Stage.strict, strict) ∈ r.stages ∧
      (⟨old, new, some strict⟩ : Comparison).overriddenSimilarity? (.ofFunction overriddenMethod)
        (.ofFunction overridingMethod) = some similarity ∧
      0 < (⟨old, new, some strict⟩ : Comparison).inheritance ({} : Settings).boost
        (.ofFunction overriddenMethod) (.ofFunction overridingMethod) ∧
      (⟨old, new, some strict⟩ : Comparison).admits (.ofFunction overriddenMethod)
        (.ofFunction overridingMethod) = true ∧
      ¬ ContainersMatch strict old new "A/m" "B/m" ∧
      ContainersRelated strict old new "A/m" "B/m" := by
  obtain ⟨old, new, hread, hread', hold', hnew', h⟩ := exists_read_override
  have hold := Snapshot.indexed_of_read hread
  have hnew := Snapshot.indexed_of_read hread'
  obtain ⟨r, strict, hr, hmem, hadmitted⟩ := admits_of_inheritance_pos hread hread' hold' hnew' {}
  obtain ⟨naive, strict', _, _, hnaive, hstrict, -, -, hstages⟩ := stages_of_runPipeline hr
  obtain rfl : strict = strict' := by simpa [hstages] using hmem
  have hx : Element.ofFunction overriddenMethod ∈ old.allElements :=
    Snapshot.mem_allElements_iff.2 (by simp [Snapshot.elements, Element.kind, h.functions.1])
  have hy : Element.ofFunction overridingMethod ∈ new.allElements :=
    Snapshot.mem_allElements_iff.2 (by simp [Snapshot.elements, Element.kind, h.functions.2])
  -- the score is positive since the override makes the classes related
  obtain ⟨similarity, hoverridden⟩ := h.exists_overridden hold hnew hnaive hstrict
  have hrelated := Comparison.areRelated_of_overridden hnew hnew'
    (candidates_of_runStage hstrict).1
    (fun _ _ => containersMatch_of_maps_strict hold hnew hold' hnew' hnaive hstrict) hy hoverridden
  have hpos : 0 < (⟨old, new, some strict⟩ : Comparison).inheritance ({} : Settings).boost
      (.ofFunction overriddenMethod) (.ofFunction overridingMethod) := by
    rw [h.inheritance_eq_one hstrict (by rw [Comparison.admits, hrelated, Bool.or_true])]
    decide
  have hnot : ¬ ContainersMatch strict old new "A/m" "B/m" := by
    rintro (⟨hnone, -⟩ | ⟨hc, hd, hmaps⟩)
    · simp [h.parents.1] at hnone
    · obtain rfl := Option.some.inj (h.parents.1.symm.trans hc)
      obtain rfl := Option.some.inj (h.parents.2.2.symm.trans hd)
      simp [(h.maps_class hold hnew hnaive hstrict).2.2] at hmaps
  obtain ⟨hadmits, heither⟩ := hadmitted _ hx _ hy hpos
  exact ⟨old, new, r, strict, similarity, hread, hread', hold', hnew', hr, hmem, hoverridden, hpos,
    hadmits, hnot, heither.resolve_left hnot⟩

end ApiEvolution
