import Mathlib.Data.List.Perm.Subperm
import Mathlib.Logic.Relation
import ApiEvolution.Proofs.Indices
import ApiEvolution.Snapshot.Ancestry

/-!
# Ancestors are what superclass steps lead to

The ancestors of a class are the other classes that one or more steps to a superclass lead to, also
where classes are their own ancestors or name superclasses that there are not
(`ancestors_descendants`).

The walk that collects them takes a class from a stack in each turn and puts those on it that it has
not seen (`exists_discover`). Two facts carry it:

* `Walk`: everything seen is reached from the start, and the successors of everything seen that is
  no longer on the stack are seen. One turn keeps this (`Walk.turn`), and once the stack is empty,
  everything that is reached is seen (`Walk.mem_seen_iff`).
* `Walk.potential`: what is seen is new each time and there are finitely many classes, so that the
  stack is empty after at most one turn more than there are classes (`Walk.exists_explore`).
-/

namespace ApiEvolution.Snapshot

/-! ## Walking a graph -/

section

variable {next : String → List String} {start : String} {seen stack nodes : List String}

/-- One turn of the walk: the node on top of the stack is taken, and those of its successors that
are new are put on the stack and among those seen. -/
def visit (next : String → List String) (start : String) :
    List String × List String → List String × List String
  | (seen, []) => (seen, [])
  | (seen, x :: stack) => discover start seen stack (next x)

theorem iterate_visit_nil (n : Nat) : (visit next start)^[n] (seen, []) = (seen, []) := by
  induction n with
  | zero => rfl
  | succ n ih => exact ih

/-- The walk with some fuel makes as many turns. -/
theorem explore_eq_iterate (fuel : Nat) :
    explore next start fuel seen stack = ((visit next start)^[fuel] (seen, stack)).1 := by
  induction fuel generalizing seen stack with
  | zero => rfl
  | succ fuel ih =>
    cases stack with
    | nil => rw [iterate_visit_nil, explore]
    | cons x stack => exact ih

/-- What is found among some nodes: those that are new, each of them once. -/
structure Discovered (start : String) (seen xs found : List String) : Prop where
  nodup : found.Nodup
  new : ∀ x ∈ found, x ∈ xs ∧ x ≠ start ∧ x ∉ seen
  whole : ∀ x ∈ xs, x = start ∨ x ∈ found ++ seen

/-- What is found comes before what has been seen and before what is on the stack. -/
theorem exists_discover (start : String) (seen stack xs : List String) :
    ∃ found, discover start seen stack xs = (found ++ seen, found ++ stack) ∧
      Discovered start seen xs found := by
  induction xs generalizing seen stack with
  | nil => exact ⟨[], rfl, ⟨List.nodup_nil, by simp, by simp⟩⟩
  | cons x xs ih =>
    rw [discover]
    split
    · next hold =>
      obtain ⟨found, heq, hnodup, hnew, hwhole⟩ := ih seen stack
      refine ⟨found, heq, hnodup, fun y hy => ?_, List.forall_mem_cons.2 ⟨?_, hwhole⟩⟩
      · exact ⟨List.mem_cons_of_mem x (hnew y hy).1, (hnew y hy).2⟩
      · exact hold.imp_right (List.mem_append_right found)
    · next hnot =>
      obtain ⟨hstart, hseen⟩ := not_or.1 hnot
      obtain ⟨found, heq, hnodup, hnew, hwhole⟩ := ih (x :: seen) (x :: stack)
      refine ⟨found ++ [x], by rw [heq]; simp, ?_, fun y hy => ?_,
        List.forall_mem_cons.2 ⟨by simp, fun y hy => ?_⟩⟩
      · refine List.nodup_append.2 ⟨hnodup, List.nodup_singleton x, ?_⟩
        rintro y hy z hz rfl
        obtain rfl := List.mem_singleton.1 hz
        exact (hnew y hy).2.2 List.mem_cons_self
      · rcases List.mem_append.1 hy with hy | hy
        · obtain ⟨hmem, hne, hnotin⟩ := hnew y hy
          exact ⟨List.mem_cons_of_mem x hmem, hne, fun h => hnotin (List.mem_cons_of_mem x h)⟩
        · obtain rfl := List.mem_singleton.1 hy
          exact ⟨List.mem_cons_self, hstart, hseen⟩
      · simpa [or_assoc] using hwhole y hy

/-- What holds throughout a walk through some nodes. -/
structure Walk (next : String → List String) (start : String) (nodes seen stack : List String) :
    Prop where
  nodup : seen.Nodup
  inside : seen ⊆ nodes
  sound : ∀ x ∈ seen, x ≠ start ∧ Relation.TransGen (fun a b => b ∈ next a) start x
  pending : ∀ x ∈ stack, x = start ∨ x ∈ seen
  closed : ∀ x, x = start ∨ x ∈ seen → x ∉ stack → ∀ y ∈ next x, y = start ∨ y ∈ seen

namespace Walk

theorem init : Walk next start nodes [] [start] where
  nodup := List.nodup_nil
  inside := List.nil_subset nodes
  sound := by simp
  pending := by simp
  closed := by simp

/-- An upper bound on the turns that are left. -/
def potential (nodes seen stack : List String) : Nat :=
  stack.length + (nodes.length - seen.length)

variable {x : String} {found : List String}

theorem reached (h : Walk next start nodes seen (x :: stack)) :
    Relation.ReflTransGen (fun a b => b ∈ next a) start x := by
  rcases h.pending x List.mem_cons_self with rfl | hx
  · exact .refl
  · exact (h.sound x hx).2.to_reflTransGen

/-- A turn keeps what holds throughout the walk. -/
theorem turn (hnext : ∀ a, next a ⊆ nodes) (h : Walk next start nodes seen (x :: stack))
    (hfound : Discovered start seen (next x) found) :
    Walk next start nodes (found ++ seen) (found ++ stack) where
  nodup := List.nodup_append.2 ⟨hfound.nodup, h.nodup,
    fun y hy _ hz hyz => (hfound.new y hy).2.2 (hyz ▸ hz)⟩
  inside := List.append_subset.2 ⟨fun y hy => hnext x (hfound.new y hy).1, h.inside⟩
  sound y hy := by
    rcases List.mem_append.1 hy with hy | hy
    · obtain ⟨hmem, hne, -⟩ := hfound.new y hy
      exact ⟨hne, .tail' h.reached hmem⟩
    · exact h.sound y hy
  pending y hy := by
    rcases List.mem_append.1 hy with hy | hy
    · exact .inr (List.mem_append_left seen hy)
    · exact (h.pending y (List.mem_cons_of_mem x hy)).imp_right (List.mem_append_right found)
  closed y hy hstack z hz := by
    -- the node that was taken is the only one whose successors need not have been seen before
    by_cases hyx : y = x
    · subst hyx
      exact hfound.whole z hz
    · obtain ⟨hnew, hold⟩ := not_or.1 (mt List.mem_append.2 hstack)
      have hseen : y = start ∨ y ∈ seen :=
        hy.imp_right fun hmem => (List.mem_append.1 hmem).resolve_left hnew
      have hclosed := h.closed y hseen (by simp [hyx, hold]) z hz
      exact hclosed.imp_right (List.mem_append_right found)

/-- After a turn fewer turns are left. -/
theorem potential_lt (h : Walk next start nodes (found ++ seen) (found ++ stack)) :
    potential nodes (found ++ seen) (found ++ stack) < potential nodes seen (x :: stack) := by
  have hle := (List.subperm_of_subset h.nodup h.inside).length_le
  simp only [potential, List.length_append, List.length_cons] at hle ⊢
  omega

/-- Enough fuel empties the stack. -/
theorem exists_explore (hnext : ∀ a, next a ⊆ nodes) (h : Walk next start nodes seen stack)
    {fuel : Nat} (hfuel : potential nodes seen stack ≤ fuel) :
    ∃ n ≤ fuel, (visit next start)^[n] (seen, stack) =
        (explore next start fuel seen stack, []) ∧
      Walk next start nodes (explore next start fuel seen stack) [] := by
  induction fuel generalizing seen stack with
  | zero =>
    obtain rfl : stack = [] := by
      simp only [potential] at hfuel
      exact List.length_eq_zero_iff.1 (by omega)
    exact ⟨0, Nat.le_refl 0, rfl, h⟩
  | succ fuel ih =>
    cases stack with
    | nil => exact ⟨0, Nat.zero_le _, rfl, h⟩
    | cons x stack =>
      obtain ⟨found, heq, hfound⟩ := exists_discover start seen stack (next x)
      have hvisit : visit next start (seen, x :: stack) = (found ++ seen, found ++ stack) := heq
      have hexplore : explore next start (fuel + 1) seen (x :: stack) =
          explore next start fuel (found ++ seen) (found ++ stack) := by
        rw [explore_eq_iterate, Function.iterate_succ_apply, hvisit, ← explore_eq_iterate]
      have hturn := h.turn hnext hfound
      obtain ⟨n, hn, hturns, hend⟩ := ih hturn (by have := hturn.potential_lt (x := x); omega)
      refine ⟨n + 1, Nat.succ_le_succ hn, ?_, hexplore ▸ hend⟩
      rw [Function.iterate_succ_apply, hvisit, hturns, hexplore]

/-- When the walk has ended, everything is seen that the start leads to. -/
theorem mem_seen_iff (h : Walk next start nodes seen []) {x : String} :
    x ∈ seen ↔ x ≠ start ∧ Relation.TransGen (fun a b => b ∈ next a) start x := by
  refine ⟨h.sound x, fun ⟨hne, hreached⟩ => ?_⟩
  have hseen : ∀ y, Relation.ReflTransGen (fun a b => b ∈ next a) start y →
      y = start ∨ y ∈ seen := by
    intro y hy
    induction hy with
    | refl => exact .inl rfl
    | tail _ hstep ih => exact h.closed _ ih List.not_mem_nil _ hstep
  exact (hseen x hreached.to_reflTransGen).resolve_left hne

end Walk

end

/-! ## Superclasses -/

variable {s : Snapshot} {id a d : String}

/-- A step from a class to the class that has one of the names of its superclasses. -/
def SuperclassStep (s : Snapshot) (a b : String) : Prop :=
  ∃ c, s.class? a = some c ∧ ∃ q ∈ c.superclasses, ∃ c', s.classByName? q = some c' ∧ c'.id = b

theorem mem_superclassIds_iff {b : String} : b ∈ s.superclassIds a ↔ s.SuperclassStep a b := by
  rw [superclassIds, SuperclassStep]
  cases s.class? a with
  | none => simp
  | some c => simp [List.mem_filterMap]

theorem superclassIds_subset (s : Snapshot) (a : String) :
    s.superclassIds a ⊆ s.classes.map ClassDecl.id := by
  intro b hb
  obtain ⟨_, -, _, -, c, hc, rfl⟩ := mem_superclassIds_iff.1 hb
  obtain ⟨_, -, hfound⟩ := Option.bind_eq_some_iff.1 hc
  exact List.mem_map_of_mem (List.mem_of_find?_eq_some hfound)

/-- The walk from a class ends after at most one turn more than there are classes. -/
theorem exists_walk (s : Snapshot) (id : String) :
    ∃ seen, s.ancestors id = SortedSet.ofTexts seen ∧
      (∃ n ≤ s.classes.length + 1, (visit s.superclassIds id)^[n] ([], [id]) = (seen, [])) ∧
        Walk s.superclassIds id (s.classes.map ClassDecl.id) seen [] := by
  have hfuel : Walk.potential (s.classes.map ClassDecl.id) [] [id] ≤ s.classes.length + 1 := by
    simp [Walk.potential, Nat.add_comm]
  obtain ⟨n, hn, hturns, hend⟩ := Walk.init.exists_explore (superclassIds_subset s) hfuel
  exact ⟨_, rfl, ⟨n, hn, hturns⟩, hend⟩

theorem mem_ofTexts {texts : List String} : id ∈ SortedSet.ofTexts texts ↔ id ∈ texts :=
  SortedSet.mem_ofList_iff

/-- The ancestors of a class are all others that steps to superclasses lead to. -/
theorem mem_ancestors_iff :
    a ∈ s.ancestors id ↔ a ≠ id ∧ Relation.TransGen s.SuperclassStep id a := by
  obtain ⟨seen, heq, -, hwalk⟩ := exists_walk s id
  have hsteps : (fun a b => b ∈ s.superclassIds a) = s.SuperclassStep := by
    funext a b
    exact propext mem_superclassIds_iff
  rw [heq, mem_ofTexts, hwalk.mem_seen_iff, hsteps]

theorem isSome_class?_iff : (s.class? id).isSome ↔ s.declares .classKind id = true := by
  rw [Option.isSome_iff_exists, declares_iff]
  constructor
  · rintro ⟨c, hc⟩
    exact ⟨_, class?_eq_some_iff.1 hc, rfl⟩
  · rintro ⟨e, he, hkind⟩
    cases e with
    | ofClass c => exact ⟨c, class?_eq_some_iff.2 he⟩
    | ofFunction | ofParameter | ofAttribute | ofResult => cases hkind

/-- The descendants of a class are the classes that have it among their ancestors. -/
theorem mem_descendants_iff :
    d ∈ s.descendants id ↔ (s.class? d).isSome ∧ d ≠ id ∧ id ∈ s.ancestors d := by
  have hclass : d ∈ s.classes.map ClassDecl.id ↔ (s.class? d).isSome := by
    rw [class?, List.find?_isSome, List.mem_map]
    simp
  rw [descendants, mem_ofTexts, List.mem_filter, hclass]
  simp

/-- Whatever superclasses the classes of a snapshot name, the walk to the ancestors of a class ends,
the ancestors are the others that one or more steps to superclasses lead to, and the descendants are
the other classes of which it is an ancestor. -/
theorem ancestors_descendants (s : Snapshot) (id : String) :
    (∃ seen, s.ancestors id = SortedSet.ofTexts seen ∧ ∃ n ≤ s.classes.length + 1,
      (visit s.superclassIds id)^[n] ([], [id]) = (seen, [])) ∧
      (SortedSet.Sorted compare (s.ancestors id) ∧
        ∀ a, a ∈ s.ancestors id ↔ a ≠ id ∧ Relation.TransGen s.SuperclassStep id a) ∧
      SortedSet.Sorted compare (s.descendants id) ∧
        ∀ d, d ∈ s.descendants id ↔ (s.class? d).isSome ∧ d ≠ id ∧ id ∈ s.ancestors d := by
  obtain ⟨seen, heq, hturns, -⟩ := exists_walk s id
  exact ⟨⟨seen, heq, hturns⟩, ⟨SortedSet.sorted_ofList _, fun _ => mem_ancestors_iff⟩,
    SortedSet.sorted_ofList _, fun _ => mem_descendants_iff⟩

/-- Classes in a circle. One of them names a superclass twice, itself and a class that there is not.
-/
def circle : Snapshot :=
  ((({} : Snapshot).addClass { id := "A", qname := "a", superclasses := ["b"] }).addClass
    { id := "B", qname := "b", superclasses := ["c", "c", "b", "d"] }).addClass
      { id := "C", qname := "c", superclasses := ["a"] }

example : circle.ancestors "A" = ["B", "C"] ∧ circle.descendants "A" = ["B", "C"] := by
  decide +kernel

end ApiEvolution.Snapshot
