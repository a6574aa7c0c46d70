import ApiEvolution.Proofs.Indices
import ApiEvolution.Proofs.Stages

/-!
# Declarations in another order

A comparison finds the same whatever order the declarations are made in (`runPipeline_reordered`),
if nothing is listed by two containers and no two new classes have one qualified name. The argument
has two parts:

* Of several entries for one text an index keeps the last. Where there are no two, the order in
  which they are made makes no difference, so that reordered snapshots answer every question of a
  comparison alike (`Reordered.alike`, `Reordered.ancestors_eq`).
* Between snapshots that answer alike all scores are the same (`Comparison.score_eq`); and the
  elements are arranged before they are compared, so that the candidates are the same
  (`Matcher.candidates_eq_of_alike`).
-/

namespace ApiEvolution

namespace Snapshot

variable {s s' : Snapshot}

/-! ## Reordered snapshots -/

/-- The header of a snapshot with other declarations. -/
def redeclare (s : Snapshot) (elements : List Element) : Snapshot :=
  ofOutline ⟨s.distribution, s.package, s.version, elements⟩

/-- The same header, and the same elements declared in another order. -/
def Reordered (s s' : Snapshot) : Prop :=
  ∃ elements, elements.Perm s.allElements ∧ s' = s.redeclare elements

theorem header_foldl_add {es : List Element} :
    (es.foldl add s).distribution = s.distribution ∧ (es.foldl add s).package = s.package ∧
      (es.foldl add s).version = s.version := by
  induction es generalizing s with
  | nil => exact ⟨rfl, rfl, rfl⟩
  | cons e rest ih =>
    rw [List.foldl_cons]
    cases e <;> exact ih

theorem header_ofOutline {o : Outline} :
    (ofOutline o).distribution = o.distribution ∧ (ofOutline o).package = o.package ∧
      (ofOutline o).version = o.version :=
  header_foldl_add

/-- The snapshots of two accepted documents that have the same header and, kind by kind, the same
declarations are reordered. -/
theorem reordered_of_read {text : String} (h : read text = .ok s')
    (hdistribution : s.distribution = s'.distribution) (hpackage : s.package = s'.package)
    (hversion : s.version = s'.version)
    (hperm : ∀ kind, (s.elements kind).Perm (s'.elements kind)) : s.Reordered s' := by
  obtain ⟨_, o, -, -, ho⟩ := read_eq_ok_iff.1 h
  obtain ⟨hnodup, -, rfl⟩ := ofOutline?_eq_ok_iff.1 ho
  obtain ⟨hd, hp, hv⟩ := header_ofOutline (o := o)
  refine ⟨o.elements, ?_, ?_⟩
  · have hall : s.allElements.Perm (ofOutline o).allElements :=
      List.Perm.flatMap_left _ fun kind _ => hperm kind
    exact (hall.trans (allElements_ofOutline_perm hnodup)).symm
  · rw [redeclare, hdistribution, hpackage, hversion, hd, hp, hv]

namespace Reordered

theorem nodup_ids {elements : List Element} (hs : s.Coherent)
    (h : elements.Perm s.allElements) : (elements.map Element.id).Nodup :=
  (h.map Element.id).nodup_iff.2 hs.distinct

theorem allElements_perm (hs : s.Coherent) (h : s.Reordered s') :
    s.allElements.Perm s'.allElements := by
  obtain ⟨elements, hperm, rfl⟩ := h
  exact ((allElements_ofOutline_perm (nodup_ids hs hperm)).trans hperm).symm

theorem distinct (hs : s.Coherent) (h : s.Reordered s') :
    (s'.allElements.map Element.id).Nodup :=
  ((allElements_perm hs h).map Element.id).nodup_iff.1 hs.distinct

theorem elements_perm (hs : s.Coherent) (h : s.Reordered s') (kind : ElementKind) :
    (s.elements kind).Perm (s'.elements kind) := by
  rw [← filter_allElements, ← filter_allElements]
  exact (allElements_perm hs h).filter _

theorem element?_eq (hs : s.Coherent) (h : s.Reordered s') : s.element? = s'.element? := by
  funext id
  refine Option.ext fun e => ?_
  rw [element?_eq_some_iff hs.distinct, element?_eq_some_iff (h.distinct hs),
    (h.allElements_perm hs).mem_iff]

theorem children_eq (hs : s.Coherent) (h : s.Reordered s') : s.children = s'.children := by
  funext container kind
  rw [Snapshot.children_eq hs.distinct, Snapshot.children_eq (h.distinct hs), element?_eq hs h]

/-- Coherence does not depend on the order of the declarations. -/
theorem coherent (hs : s.Coherent) (h : s.Reordered s') : s'.Coherent where
  distinct := h.distinct hs
  declared := by
    intro container kind id hid
    rw [← children_eq hs h] at hid
    rw [declares, ← element?_eq hs h]
    exact hs.declared container kind id hid

theorem indexed (hs : s.Coherent) (h : s.Reordered s') : s'.Indexed := by
  have hs' := h.coherent hs
  obtain ⟨elements, hperm, rfl⟩ := h
  exact indexed_ofOutline hs' (nodup_ids hs hperm)

theorem parentOf?_eq (hs : s.Indexed) (hx : s.Exclusive) (h : s.Reordered s') :
    s.parentOf? = s'.parentOf? := by
  have hchildren := children_eq hs.toCoherent h
  have hx' : s'.Exclusive := by
    rw [Exclusive, ← hchildren]
    exact hx
  funext id
  refine Option.ext fun container => ?_
  rw [parentOf?_eq_some_iff hs hx, parentOf?_eq_some_iff (h.indexed hs.toCoherent) hx', hchildren]

end Reordered

/-! ## Snapshots that answer alike -/

/-- Two snapshots have the same elements, kind by kind, and answer all questions about single
identities in the same way. -/
structure Alike (s s' : Snapshot) : Prop where
  distribution : s.distribution = s'.distribution
  version : s.version = s'.version
  elements : ∀ kind, (s.elements kind).Perm (s'.elements kind)
  element? : s.element? = s'.element?
  children : s.children = s'.children
  parentOf? : s.parentOf? = s'.parentOf?

theorem Reordered.alike (hs : s.Indexed) (hx : s.Exclusive) (h : s.Reordered s') : s.Alike s' where
  distribution := by
    obtain ⟨_, -, rfl⟩ := h
    rw [redeclare, header_ofOutline.1]
  version := by
    obtain ⟨_, -, rfl⟩ := h
    rw [redeclare, header_ofOutline.2.2]
  elements := h.elements_perm hs.toCoherent
  element? := h.element?_eq hs.toCoherent
  children := h.children_eq hs.toCoherent
  parentOf? := h.parentOf?_eq hs hx

theorem Alike.class?_eq (h : s.Alike s') : s.class? = s'.class? := by
  funext id
  refine Option.ext fun c => ?_
  rw [class?_eq_some_iff, class?_eq_some_iff, h.element?]

/-! ## Ancestors -/

/-- No two classes have one qualified name. -/
def DistinctNames (s : Snapshot) : Prop :=
  (s.classes.map ClassDecl.qname).Nodup

instance (s : Snapshot) : Decidable s.DistinctNames :=
  inferInstanceAs (Decidable (List.Nodup _))

/-- The only class of a qualified name is the one that the index has for it. -/
theorem classNames_eq_some_iff (hs : s.Indexed) (hnames : s.DistinctNames) {qname id : String} :
    s.classNames.get? qname = some id ↔ ∃ c ∈ s.classes, c.id = id ∧ c.qname = qname := by
  constructor
  · exact hs.named_of_index qname id
  · rintro ⟨c, hc, rfl, rfl⟩
    obtain ⟨id, hid⟩ := hs.index_of_named c hc
    obtain ⟨c', hc', rfl, hname⟩ := hs.named_of_index c.qname id hid
    rw [hid, List.inj_on_of_nodup_map hnames hc' hc hname]

theorem Alike.classes_perm (h : s.Alike s') : s.classes.Perm s'.classes := by
  have hinj : Function.Injective Element.ofClass := fun a b hab => by cases hab; rfl
  exact (List.map_perm_map_iff hinj).1 (h.elements .classKind)

theorem Alike.classNames_eq (hs : s.Indexed) (hs' : s'.Indexed) (hnames : s.DistinctNames)
    (h : s.Alike s') : s.classNames.get? = s'.classNames.get? := by
  have hnames' : s'.DistinctNames := (h.classes_perm.map ClassDecl.qname).nodup_iff.1 hnames
  funext qname
  refine Option.ext fun id => ?_
  rw [classNames_eq_some_iff hs hnames, classNames_eq_some_iff hs' hnames']
  simp only [h.classes_perm.mem_iff]

/-- Where qualified names are distinct, classes have the same ancestors. -/
theorem Reordered.ancestors_eq (hs : s.Indexed) (hx : s.Exclusive) (hnames : s.DistinctNames)
    (h : s.Reordered s') : s.ancestors = s'.ancestors := by
  have halike := h.alike hs hx
  have hnamed := halike.classNames_eq hs (h.indexed hs.toCoherent) hnames
  have hdirect : s.superclassIds = s'.superclassIds := by
    funext id
    simp only [superclassIds, classByName?, hnamed, halike.class?_eq]
  funext id
  rw [ancestors, ancestors, hdirect, halike.classes_perm.length_eq]

end Snapshot

/-! ## Comparisons between alike snapshots -/

variable {old old' new new' : Snapshot}

/-- Scores depend on what the snapshots answer only. -/
theorem Comparison.score_eq (hold : old.Alike old') (hnew : new.Alike new')
    (hancestors : new.ancestors = new'.ancestors) (previous : Option MappingSet) (boost : Float) :
    (⟨old, new, previous⟩ : Comparison).score boost =
      (⟨old', new', previous⟩ : Comparison).score boost := by
  have hnaive : (⟨old, new, previous⟩ : Comparison).naive =
      (⟨old', new', previous⟩ : Comparison).naive := by
    funext x y
    cases x <;> cases y <;>
      simp only [naive, Similarity.elementSimilarity, Similarity.classSimilarity,
        Similarity.functionSimilarity, Similarity.childNames, hold.element?, hnew.element?]
  have hagree : (⟨old, new, previous⟩ : Comparison).containersAgree =
      (⟨old', new', previous⟩ : Comparison).containersAgree := by
    funext x y
    simp only [containersAgree, hold.parentOf?, hnew.parentOf?]
  have hrelated : (⟨old, new, previous⟩ : Comparison).areRelated =
      (⟨old', new', previous⟩ : Comparison).areRelated := by
    funext x y
    simp only [areRelated, isDescendant, hold.parentOf?, hnew.parentOf?, hnew.class?_eq, hancestors]
  have hoverridden : (⟨old, new, previous⟩ : Comparison).overriddenSimilarity? =
      (⟨old', new', previous⟩ : Comparison).overriddenSimilarity? := by
    have hnamed : isNamed new = isNamed new' := by
      funext id name
      rw [isNamed, isNamed, hnew.element?]
    funext x y
    rw [overriddenSimilarity?, overriddenSimilarity?]
    dsimp only
    rw [hnew.parentOf?, hnew.children, hancestors, hnamed]
  have hstrict : (⟨old, new, previous⟩ : Comparison).strict =
      (⟨old', new', previous⟩ : Comparison).strict := by
    funext x y
    rw [strict, strict, hagree, hnaive]
  have hinheritance : (⟨old, new, previous⟩ : Comparison).inheritance boost =
      (⟨old', new', previous⟩ : Comparison).inheritance boost := by
    funext x y
    rw [inheritance, inheritance, hagree, hstrict, hrelated, hnaive, hoverridden]
  funext stage
  cases stage with
  | naive => exact hnaive
  | strict => exact hstrict
  | inheritance => exact hinheritance
  | unchanged =>
    funext x y
    rw [score, score, unchanged, unchanged, admits, admits, hagree, hrelated, hinheritance]

namespace Matcher

variable {score : Scorer} {threshold : Float} {kind : ElementKind}

theorem listed_eq {s s' : Snapshot} (h : s.Alike s') (kind : ElementKind)
    (containers : List String) : listed s kind containers = listed s' kind containers := by
  rw [listed, listed, h.children, h.element?]

/-- The order in which elements are declared does not matter, since they are arranged. -/
theorem matchElements_eq_of_alike (hold : old.Alike old') (hnew : new.Alike new')
    (hids : (old.allElements.map Element.id).Nodup)
    (hids' : (new.allElements.map Element.id).Nodup) :
    matchElements score threshold kind (old.elements kind) (new.elements kind) =
      matchElements score threshold kind (old'.elements kind) (new'.elements kind) := by
  rw [matchElements, matchElements,
    arrange_eq_of_perm (hold.elements kind) (Snapshot.nodup_ids_elements hids kind),
    arrange_eq_of_perm (hnew.elements kind) (Snapshot.nodup_ids_elements hids' kind)]

theorem candidates_eq_of_alike (hold : old.Alike old') (hnew : new.Alike new')
    (hids : (old.allElements.map Element.id).Nodup)
    (hids' : (new.allElements.map Element.id).Nodup) :
    candidates score threshold old new = candidates score threshold old' new' := by
  have hamong : ∀ kind,
      matchElements score threshold kind (old.elements kind) (new.elements kind) =
        matchElements score threshold kind (old'.elements kind) (new'.elements kind) :=
    fun _ => matchElements_eq_of_alike hold hnew hids hids'
  simp only [candidates, matchChildren, hamong, listed_eq hold, listed_eq hnew]

end Matcher

theorem MappingSet.validate_eq (hold : old.Alike old') (hnew : new.Alike new') (set : MappingSet) :
    set.validate old new = set.validate old' new' := by
  have hfault : ∀ {s s' : Snapshot}, s.Alike s' → memberFault? s = memberFault? s' := by
    intro s s' h
    funext side kind id
    rw [memberFault?, memberFault?, h.element?, h.distribution, h.version]
  have hsource : sourceFault? old = sourceFault? old' := by
    funext m
    rw [sourceFault?, sourceFault?, hfault hold]
  have htarget : targetFault? new = targetFault? new' := by
    funext m
    rw [targetFault?, targetFault?, hfault hnew]
  rw [validate, validate, hsource, htarget]

/-! ## Runs -/

section Runs

variable (hold : old.Alike old') (hnew : new.Alike new')
  (hancestors : new.ancestors = new'.ancestors)
  (hids : (old.allElements.map Element.id).Nodup)
  (hids' : (new.allElements.map Element.id).Nodup)
include hold hnew hancestors hids hids'

theorem runStage_eq_of_alike (stage : Stage) (previous : Option MappingSet) (settings : Settings) :
    runStage stage old new previous settings = runStage stage old' new' previous settings := by
  have hvalidate := MappingSet.validate_eq hold hnew
  have hmatch : ∀ score threshold, Matcher.matchSnapshots score threshold old new =
      Matcher.matchSnapshots score threshold old' new' := by
    intro score threshold
    rw [Matcher.matchSnapshots, Matcher.matchSnapshots,
      Matcher.candidates_eq_of_alike hold hnew hids hids']
  simp only [runStage, hvalidate, hmatch, Comparison.score_eq hold hnew hancestors]

theorem runStages_eq_of_alike (stages : List Stage) (previous : Option MappingSet)
    (settings : Settings) :
    runStages old new settings previous stages = runStages old' new' settings previous stages := by
  induction stages generalizing previous with
  | nil => rfl
  | cons stage rest ih =>
    simp only [runStages, ih, runStage_eq_of_alike hold hnew hancestors hids hids']

end Runs

/-- Between accepted documents in which nothing is listed by two containers, the new one having no
two classes of one qualified name, a run succeeds. With the declarations of both documents in any
other order it has the same mapping sets. -/
theorem runPipeline_reordered {oldText newText : String}
    (hold : Snapshot.read oldText = .ok old) (hnew : Snapshot.read newText = .ok new)
    (hold' : old.Exclusive) (hnew' : new.Exclusive) (hnames : new.DistinctNames)
    (holdOrder : old.Reordered old') (hnewOrder : new.Reordered new') (settings : Settings) :
    ∃ r, runPipeline old new settings = .ok r ∧ runPipeline old' new' settings = .ok r := by
  have hi := Snapshot.indexed_of_read hold
  have hi' := Snapshot.indexed_of_read hnew
  obtain ⟨r, hr⟩ := exists_runPipeline hi.toCoherent hi'.toCoherent hold'.unshared hnew'.unshared
    settings
  have hsame := runStages_eq_of_alike (holdOrder.alike hi hold') (hnewOrder.alike hi' hnew')
    (hnewOrder.ancestors_eq hi' hnew' hnames) hi.distinct hi'.distinct Stage.all none settings
  refine ⟨r, hr, ?_⟩
  rw [runPipeline, ← hsame]
  exact hr

/-- The subclass is declared before or after its superclass. -/
theorem runPipeline_reordered_subclass :
    ∃ api other r, Snapshot.read classWithSubclass.compact = .ok api ∧ api.Exclusive ∧
      api.DistinctNames ∧ api.Reordered other ∧ other.classes = [subclass, baseClass] ∧
      runPipeline api api {} = .ok r ∧ runPipeline other other {} = .ok r := by
  obtain ⟨api, hread, hexclusive, hclasses, -⟩ := exists_read_classWithSubclass
  have hs := Snapshot.coherent_of_read hread
  have hnames : api.DistinctNames := by
    rw [Snapshot.DistinctNames, hclasses]
    decide
  have hreverse : api.allElements.reverse.Perm api.allElements := List.reverse_perm _
  have horder : api.Reordered (api.redeclare api.allElements.reverse) := ⟨_, hreverse, rfl⟩
  have hother : (api.redeclare api.allElements.reverse).classes = [subclass, baseClass] := by
    have helements : (api.redeclare api.allElements.reverse).elements .classKind =
        (api.elements .classKind).reverse := by
      have hnodup := Snapshot.Reordered.nodup_ids hs hreverse
      rw [Snapshot.redeclare, Snapshot.elements_ofOutline hnodup, List.filter_reverse,
        Snapshot.filter_allElements]
    rw [Snapshot.elements, Snapshot.elements, hclasses, ← List.map_reverse] at helements
    exact List.map_injective_iff.2 (fun _ _ h => Element.ofClass.inj h) helements
  obtain ⟨r, hr, hr'⟩ :=
    runPipeline_reordered hread hread hexclusive hexclusive hnames horder horder {}
  exact ⟨api, _, r, hread, hexclusive, hnames, horder, hother, hr, hr'⟩

end ApiEvolution
