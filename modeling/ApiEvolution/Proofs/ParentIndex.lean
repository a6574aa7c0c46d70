import ApiEvolution.Proofs.Acceptance

/-!
# The container of an identity

The index of containers has one container for an identity, the child lists may name several. The two
agree as far as they can (`parentOf?_lastLister`): the index has the container that is declared last
among those that list the identity, which is the container itself where there is only one, and what
it has is a declared container that lists the identity.

Two classes may list the same method, and then the index does not have the first of them
(`parentOf?_sharedMethod`).
-/

namespace ApiEvolution.Snapshot

open Json

variable {s : Snapshot} {e : Element} {id : String}

/-- An element lists an identity, and none that is declared after it does. Classes are declared
before functions. -/
def LastLister (s : Snapshot) (id : String) (e : Element) : Prop :=
  ∃ before after, s.allElements = before ++ e :: after ∧
    (∃ kind, id ∈ s.children e.id kind) ∧ ∀ d ∈ after, ∀ kind, id ∉ s.children d.id kind

theorem exists_mem_children_iff (hs : (s.allElements.map Element.id).Nodup)
    (he : e ∈ s.allElements) : (∃ kind, id ∈ s.children e.id kind) ↔ id ∈ e.allChildren := by
  rw [Element.mem_allChildren]
  refine exists_congr fun kind => ?_
  rw [children_eq hs, element?_id hs he]
  rfl

/-- The index has the last of the elements that list an identity. -/
theorem parentOf?_eq_some_iff_lastLister {text : String} (h : read text = .ok s)
    {container : String} :
    s.parentOf? id = some container ↔ ∃ e, s.LastLister id e ∧ e.id = container := by
  have hs : (s.allElements.map Element.id).Nodup := (coherent_of_read h).distinct
  obtain ⟨_, o, -, -, -, rfl, hall⟩ := exists_outline_of_read h
  rw [parentOf?_ofOutline, ← hall, Option.map_eq_some_iff]
  refine exists_congr fun e => and_congr_left' ?_
  rw [List.find?_eq_some_iff_append]
  constructor
  · rintro ⟨hlists, later, earlier, hsplit, hlater⟩
    have hparts : (ofOutline o).allElements = earlier.reverse ++ e :: later.reverse := by
      simpa using congrArg List.reverse hsplit
    have hmem : ∀ d ∈ e :: later.reverse, d ∈ (ofOutline o).allElements := fun d hd =>
      hparts ▸ List.mem_append_right _ hd
    refine ⟨earlier.reverse, later.reverse, hparts, ?_, ?_⟩
    · rw [exists_mem_children_iff hs (hmem e List.mem_cons_self)]
      simpa using hlists
    · intro d hd kind hchild
      have hfree := hlater d (List.mem_reverse.1 hd)
      have hdlists : id ∈ d.allChildren :=
        (exists_mem_children_iff hs (hmem d (List.mem_cons_of_mem e hd))).1 ⟨kind, hchild⟩
      simp [hdlists] at hfree
  · rintro ⟨before, after, hparts, hlists, hafter⟩
    have hmem : ∀ d ∈ e :: after, d ∈ (ofOutline o).allElements := fun d hd =>
      hparts ▸ List.mem_append_right _ hd
    rw [exists_mem_children_iff hs (hmem e List.mem_cons_self)] at hlists
    refine ⟨by simpa using hlists, after.reverse, before.reverse, ?_, ?_⟩
    · rw [hparts]
      simp
    · intro d hd
      have hd' : d ∈ after := List.mem_reverse.1 hd
      have hfree : id ∉ d.allChildren := fun hdlists => by
        obtain ⟨kind, hchild⟩ :=
          (exists_mem_children_iff hs (hmem d (List.mem_cons_of_mem e hd'))).2 hdlists
        exact hafter d hd' kind hchild
      simpa using hfree

/-- In an accepted snapshot, what a container lists has in the index the container that is declared
last among those that list it, which is the container itself where no other lists it. What the index
has is a declared class or function, and it lists the identity. -/
theorem parentOf?_lastLister {text : String} (h : read text = .ok s) :
    (∀ container kind id, id ∈ s.children container kind →
      (∃ e, s.LastLister id e ∧ s.parentOf? id = some e.id) ∧
      ((∀ other kind', id ∈ s.children other kind' → other = container) →
        s.parentOf? id = some container)) ∧
    ∀ id container, s.parentOf? id = some container →
      (s.declares .classKind container = true ∨ s.declares .functionKind container = true) ∧
        ∃ kind, id ∈ s.children container kind := by
  have hs : s.Indexed := indexed_of_read h
  constructor
  · intro container kind id hchild
    obtain ⟨parent, hparent⟩ := hs.parent_of_listed container kind id hchild
    obtain ⟨e, hlast, rfl⟩ := (parentOf?_eq_some_iff_lastLister h).1 hparent
    refine ⟨⟨e, hlast, hparent⟩, fun hone => ?_⟩
    obtain ⟨-, -, -, ⟨kind', hlisted⟩, -⟩ := hlast
    rw [hparent, hone e.id kind' hlisted]
  · intro id container hparent
    obtain ⟨kind, hchild⟩ := hs.listed_of_parent id container hparent
    refine ⟨?_, kind, hchild⟩
    obtain ⟨e, he, rfl, -⟩ := exists_container hchild
    refine (List.mem_append.1 he).imp ?_ ?_
    · exact declares_of_mem_elements hs.distinct
    · exact declares_of_mem_elements hs.distinct

/-- A document in which two classes list one method. -/
def sharedMethod : Json :=
  .object [("distribution", .text "d"), ("package", .text "d"), ("version", .text "1"),
    ("classes", .array [
      .object [("id", .text "A"), ("qname", .text "A"), ("methods", .array [.text "f"])],
      .object [("id", .text "B"), ("qname", .text "B"), ("methods", .array [.text "f"])]]),
    ("functions", .array [.object [("id", .text "f"), ("qname", .text "f")]])]

theorem exists_read_sharedMethod :
    ∃ s, read sharedMethod.pretty = .ok s ∧ "f" ∈ s.children "A" .functionKind ∧
      "f" ∈ s.children "B" .functionKind ∧ s.parentOf? "f" = some "B" := by
  have hlists : (ofJson sharedMethod).toOption.any (fun s =>
      decide ("f" ∈ s.children "A" .functionKind ∧ "f" ∈ s.children "B" .functionKind ∧
        s.parentOf? "f" = some "B")) = true := by
    decide +kernel
  obtain ⟨s, hs, h⟩ := exists_read_pretty (by decide) hlists
  exact ⟨s, hs, of_decide_eq_true h⟩

/-- Of two classes that list a method the index has the second, so that it does not agree with the
list of the first. -/
theorem parentOf?_sharedMethod :
    ∃ s, read sharedMethod.pretty = .ok s ∧
      ¬ ∀ container kind id, id ∈ s.children container kind → s.parentOf? id = some container := by
  obtain ⟨s, hs, hfirst, -, hparent⟩ := exists_read_sharedMethod
  refine ⟨s, hs, fun hall => ?_⟩
  have hindex := hall "A" .functionKind "f" hfirst
  rw [hparent] at hindex
  exact absurd hindex (by decide)

theorem parentOf?_lastLister_sharedMethod :
    ∃ s, read sharedMethod.pretty = .ok s ∧ "f" ∈ s.children "A" .functionKind ∧
      "f" ∈ s.children "B" .functionKind ∧
      (∀ container kind id, id ∈ s.children container kind →
        (∃ e, s.LastLister id e ∧ s.parentOf? id = some e.id) ∧
        ((∀ other kind', id ∈ s.children other kind' → other = container) →
          s.parentOf? id = some container)) ∧
      ∀ id container, s.parentOf? id = some container →
        (s.declares .classKind container = true ∨ s.declares .functionKind container = true) ∧
          ∃ kind, id ∈ s.children container kind := by
  obtain ⟨s, hs, hfirst, hsecond, -⟩ := exists_read_sharedMethod
  exact ⟨s, hs, hfirst, hsecond, parentOf?_lastLister hs⟩

end ApiEvolution.Snapshot
