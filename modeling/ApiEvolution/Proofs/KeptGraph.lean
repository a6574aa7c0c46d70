import Mathlib.Data.List.Nodup
import ApiEvolution.Proofs.Arrangement
import ApiEvolution.Proofs.Forest
import ApiEvolution.Proofs.MappingSet

/-!
# The graph of kept pairs

The pairs that a score keeps are the edges of a graph between old and new identities. The matcher
numbers the elements, the sources first, and joins the ends of all edges in a forest.

* `Kept`, `Joined` and `Connected` describe the graph without numbers, forests and sorting; the
  edges of the matcher are its kept pairs (`kept_iff_hasEdge`).
* Edges have one root in the forest exactly if a path connects their ends
  (`connected_of_componentOf_eq`, `exists_componentOf_eq_of_connected`), since the roots represent
  the equivalence relation that the edges generate.
-/

namespace ApiEvolution

/-! ## Paths of kept pairs -/

/-- An identity on a side. -/
abbrev Node := Side × String

/-- The two ends of a kept pair, in either order. -/
inductive Joined (kept : String → String → Prop) : Node → Node → Prop
  | forth {s t : String} : kept s t → Joined kept (.source, s) (.target, t)
  | back {s t : String} : kept s t → Joined kept (.target, t) (.source, s)

/-- A path of one or more kept pairs leads from one identity to another. -/
def Connected (kept : String → String → Prop) : Node → Node → Prop :=
  Relation.TransGen (Joined kept)

theorem Joined.symm {kept : String → String → Prop} {u v : Node} (h : Joined kept u v) :
    Joined kept v u := by
  cases h with
  | forth h => exact .back h
  | back h => exact .forth h

instance (kept : String → String → Prop) : Std.Symm (Joined kept) :=
  ⟨fun _ _ => Joined.symm⟩

theorem joined_source_iff {kept : String → String → Prop} {s : String} :
    (∃ v, Joined kept (.source, s) v) ↔ ∃ t, kept s t := by
  constructor
  · rintro ⟨_, hst⟩
    cases hst with
    | forth h => exact ⟨_, h⟩
  · rintro ⟨t, h⟩
    exact ⟨_, .forth h⟩

theorem joined_target_iff {kept : String → String → Prop} {t : String} :
    (∃ v, Joined kept (.target, t) v) ↔ ∃ s, kept s t := by
  constructor
  · rintro ⟨_, hts⟩
    cases hts with
    | back h => exact ⟨_, h⟩
  · rintro ⟨s, h⟩
    exact ⟨_, .back h⟩

/-- A path leads from an identity back to itself exactly if it is in a kept pair. -/
theorem connected_self_iff {kept : String → String → Prop} {u : Node} :
    Connected kept u u ↔ ∃ v, Joined kept u v := by
  constructor
  · intro h
    obtain ⟨v, huv, -⟩ := Relation.TransGen.head'_iff.1 h
    exact ⟨v, huv⟩
  · rintro ⟨v, huv⟩
    exact .tail (.single huv) huv.symm

/-- The more pairs are kept, the more identities are connected. -/
theorem Connected.mono {kept kept' : String → String → Prop} (h : ∀ s t, kept s t → kept' s t)
    {u v : Node} (huv : Connected kept u v) : Connected kept' u v := by
  have hjoined : ∀ a b, Joined kept a b → Joined kept' a b := by
    intro a b hab
    cases hab with
    | forth hst => exact .forth (h _ _ hst)
    | back hst => exact .back (h _ _ hst)
  exact Relation.TransGen.mono hjoined _ _ huv

/-- Old identities that are related to one new identity are related to the same new identities. -/
def Difunctional (R : String → String → Prop) : Prop :=
  ∀ s t s' t', R s t → R s' t → R s' t' → R s t'

/-- What an identity on a path from an old one has to do with it: a new identity is related to it,
and an old one is related to a new identity that is. -/
def OnPathFrom (R : String → String → Prop) (s : String) : Node → Prop
  | (.target, t) => R s t
  | (.source, s') => ∃ t, R s t ∧ R s' t

theorem Difunctional.onPathFrom {kept R : String → String → Prop} (hR : Difunctional R)
    (hkept : ∀ s t, kept s t → R s t) {s : String} {v : Node}
    (h : Connected kept (.source, s) v) : OnPathFrom R s v := by
  induction h with
  | single hsv =>
    cases hsv with
    | forth hst => exact hkept _ _ hst
  | tail _ hvw ih =>
    cases hvw with
    | forth hst =>
      obtain ⟨t, hst', hvt⟩ := ih
      exact hR _ _ _ _ hst' hvt (hkept _ _ hst)
    | back hst => exact ⟨_, ih, hkept _ _ hst⟩

/-- A difunctional relation that holds of the kept pairs holds of an old and a new identity that a
path connects. -/
theorem Difunctional.of_connected {kept R : String → String → Prop} (hR : Difunctional R)
    (hkept : ∀ s t, kept s t → R s t) {s t : String}
    (h : Connected kept (.source, s) (.target, t)) : R s t :=
  hR.onPathFrom hkept h

/-! ## Edges between arranged elements -/

/-- The position of an edge's end on a side. -/
def Edge.position (e : Edge) : Side → Nat
  | .source => e.source
  | .target => e.target

namespace Matcher

variable {score : Scorer} {threshold : Float} {kind : ElementKind} {sources targets : List Element}

/-- The identity at a position. -/
def idAt? (elements : List Element) (position : Nat) : Option String :=
  elements[position]?.map Element.id

/-- An edge ends at an identity on a side. -/
def EndsAt (sources targets : List Element) (e : Edge) (u : Node) : Prop :=
  idAt? (u.1.choose sources targets) (e.position u.1) = some u.2

theorem mem_edges {e : Edge} :
    e ∈ edges score threshold sources targets ↔
      ∃ x y, sources[e.source]? = some x ∧ targets[e.target]? = some y ∧
        keeps threshold (score x y) = true ∧ e.score = score x y := by
  simp only [edges, List.mem_flatMap, List.mem_filterMap, Prod.exists, List.mem_zipIdx_iff_getElem?,
    Option.ite_none_right_eq_some, Option.some.injEq]
  constructor
  · rintro ⟨x, i, hx, y, j, hy, hkeep, rfl⟩
    exact ⟨x, y, hx, hy, hkeep, rfl⟩
  · rintro ⟨x, y, hx, hy, hkeep, hscore⟩
    refine ⟨x, e.source, hx, y, e.target, hy, hkeep, ?_⟩
    rw [← hscore]

/-- Every edge ends at an identity on either side. -/
theorem exists_endsAt {e : Edge} (he : e ∈ edges score threshold sources targets) (side : Side) :
    ∃ id, EndsAt sources targets e (side, id) := by
  obtain ⟨x, y, hx, hy, -⟩ := mem_edges.1 he
  cases side with
  | source => exact ⟨x.id, by simp [EndsAt, idAt?, Side.choose, Edge.position, hx]⟩
  | target => exact ⟨y.id, by simp [EndsAt, idAt?, Side.choose, Edge.position, hy]⟩

theorem eq_of_endsAt {e : Edge} {side : Side} {id id' : String}
    (h : EndsAt sources targets e (side, id)) (h' : EndsAt sources targets e (side, id')) :
    id = id' :=
  Option.some.inj (h.symm.trans h')

/-- Edges that end at one identity end at one position. -/
theorem position_eq_of_endsAt (hs : (sources.map Element.id).Nodup)
    (ht : (targets.map Element.id).Nodup) {e e' : Edge} {u : Node}
    (h : EndsAt sources targets e u) (h' : EndsAt sources targets e' u) :
    e.position u.1 = e'.position u.1 := by
  have hnodup : ((u.1.choose sources targets).map Element.id).Nodup := by
    cases u.1 with
    | source => exact hs
    | target => exact ht
  simp only [EndsAt, idAt?, ← List.getElem?_map] at h h'
  obtain ⟨hlt, -⟩ := List.getElem?_eq_some_iff.1 h
  exact (List.getElem?_inj hlt hnodup).1 (h.trans h'.symm)

/-! ## The forest of the edges -/

/-- An edge joins two numbers, of which the second is that of a target after `n` sources. -/
def Numbered (n : Nat) (es : List Edge) (a b : Nat) : Prop :=
  ∃ e ∈ es, a = e.source ∧ b = n + e.target

/-- The forest represents the equivalence relation that the edges generate. -/
theorem represents_components {es : List Edge} {n k : Nat}
    (h : ∀ e ∈ es, e.source < n ∧ e.target < k) :
    (components n k es).Represents (n + k) (Numbered n es) := by
  have hpairs : ∀ p ∈ es.map (fun e => (e.source, n + e.target)), p.1 < n + k ∧ p.2 < n + k := by
    intro p hp
    obtain ⟨e, he, rfl⟩ := List.mem_map.1 hp
    have := h e he
    constructor <;> dsimp only <;> omega
  have hrun := (Forest.represents_singletons (n + k)).foldl_union hpairs
  rw [List.foldl_map] at hrun
  have hrel : (fun a b => False ∨ (a, b) ∈ es.map fun e => (e.source, n + e.target)) =
      Numbered n es := by
    funext a b
    simp [Numbered, Prod.ext_iff, eq_comm]
  rw [← hrel]
  exact hrun

variable (score threshold sources targets) in
/-- The root of the component that an edge belongs to. -/
def componentOf (e : Edge) : Nat :=
  (components sources.length targets.length (edges score threshold sources targets)).root e.source

theorem position_lt {e : Edge} (he : e ∈ edges score threshold sources targets) :
    e.source < sources.length ∧ e.target < targets.length := by
  obtain ⟨x, y, hx, hy, -⟩ := mem_edges.1 he
  exact ⟨(List.getElem?_eq_some_iff.1 hx).1, (List.getElem?_eq_some_iff.1 hy).1⟩

theorem componentOf_eq_iff {e e' : Edge} :
    componentOf score threshold sources targets e = componentOf score threshold sources targets e' ↔
      Relation.EqvGen (Numbered sources.length (edges score threshold sources targets))
        e.source e'.source :=
  (represents_components fun _ he => position_lt he).root_eq_iff _ _

/-- Edges that share an end belong to one component. -/
theorem componentOf_eq_of_position_eq {e e' : Edge}
    (he : e ∈ edges score threshold sources targets)
    (he' : e' ∈ edges score threshold sources targets) {side : Side}
    (h : e.position side = e'.position side) :
    componentOf score threshold sources targets e =
      componentOf score threshold sources targets e' := by
  rw [componentOf_eq_iff]
  cases side with
  | source =>
    have hpos : e.source = e'.source := h
    rw [hpos]
    exact .refl _
  | target =>
    have hpos : e.target = e'.target := h
    exact .trans _ _ _ (.rel _ _ ⟨e, he, rfl, rfl⟩)
      (.symm _ _ (.rel _ _ ⟨e', he', rfl, hpos ▸ rfl⟩))

/-! ## Components and paths -/

variable (score threshold sources targets) in
/-- An edge joins two identities. -/
def HasEdge (s t : String) : Prop :=
  ∃ e ∈ edges score threshold sources targets,
    EndsAt sources targets e (.source, s) ∧ EndsAt sources targets e (.target, t)

/-- The node of a number in the forest. -/
def nodeOf (sources targets : List Element) (i : Nat) : Node :=
  if i < sources.length then (.source, (idAt? sources i).getD "")
  else (.target, (idAt? targets (i - sources.length)).getD "")

/-- The numbers of an edge stand for its ends. -/
theorem nodeOf_eq {e : Edge} (he : e ∈ edges score threshold sources targets) {s t : String}
    (hs : EndsAt sources targets e (.source, s)) (ht : EndsAt sources targets e (.target, t)) :
    nodeOf sources targets e.source = (.source, s) ∧
      nodeOf sources targets (sources.length + e.target) = (.target, t) := by
  have hs' : idAt? sources e.source = some s := hs
  have ht' : idAt? targets e.target = some t := ht
  constructor
  · rw [nodeOf, if_pos (position_lt he).1, hs', Option.getD_some]
  · rw [nodeOf, if_neg (by omega), Nat.add_sub_cancel_left, ht', Option.getD_some]

theorem path_of_eqvGen {i j : Nat}
    (h : Relation.EqvGen (Numbered sources.length (edges score threshold sources targets)) i j) :
    Relation.ReflTransGen (Joined (HasEdge score threshold sources targets))
      (nodeOf sources targets i) (nodeOf sources targets j) := by
  induction h with
  | rel a b hab =>
    obtain ⟨e, he, rfl, rfl⟩ := hab
    obtain ⟨s, hs⟩ := exists_endsAt he .source
    obtain ⟨t, ht⟩ := exists_endsAt he .target
    rw [(nodeOf_eq he hs ht).1, (nodeOf_eq he hs ht).2]
    exact .single (.forth ⟨e, he, hs, ht⟩)
  | refl a => exact .refl
  | symm a b _ ih => exact Std.Symm.symm _ _ ih
  | trans a b c _ _ ih₁ ih₂ => exact ih₁.trans ih₂

/-- Along an edge one gets from either end to the other and back. -/
theorem connected_ends {e : Edge} (he : e ∈ edges score threshold sources targets) {u v : Node}
    (hu : EndsAt sources targets e u) (hv : EndsAt sources targets e v) :
    Connected (HasEdge score threshold sources targets) u v := by
  obtain ⟨s, hs⟩ := exists_endsAt he .source
  obtain ⟨t, ht⟩ := exists_endsAt he .target
  have hst : Joined (HasEdge score threshold sources targets) (.source, s) (.target, t) :=
    .forth ⟨e, he, hs, ht⟩
  have hend : ∀ {w : Node}, EndsAt sources targets e w → w = (.source, s) ∨ w = (.target, t) := by
    rintro ⟨side, id⟩ hw
    cases side with
    | source => exact Or.inl (by rw [eq_of_endsAt hw hs])
    | target => exact Or.inr (by rw [eq_of_endsAt hw ht])
  rcases hend hu with rfl | rfl <;> rcases hend hv with rfl | rfl
  · exact .tail (.single hst) hst.symm
  · exact .single hst
  · exact .single hst.symm
  · exact .tail (.single hst.symm) hst

/-- A path leads between any two ends of the edges of a component. -/
theorem connected_of_componentOf_eq {e e' : Edge}
    (he : e ∈ edges score threshold sources targets)
    (he' : e' ∈ edges score threshold sources targets)
    (h : componentOf score threshold sources targets e =
      componentOf score threshold sources targets e') {u v : Node}
    (hu : EndsAt sources targets e u) (hv : EndsAt sources targets e' v) :
    Connected (HasEdge score threshold sources targets) u v := by
  obtain ⟨s, hs⟩ := exists_endsAt he .source
  obtain ⟨t, ht⟩ := exists_endsAt he .target
  obtain ⟨s', hs'⟩ := exists_endsAt he' .source
  obtain ⟨t', ht'⟩ := exists_endsAt he' .target
  have hpath := path_of_eqvGen (componentOf_eq_iff.1 h)
  rw [(nodeOf_eq he hs ht).1, (nodeOf_eq he' hs' ht').1] at hpath
  exact Relation.TransGen.trans_left (connected_ends he hu hs) hpath |>.trans
    (connected_ends he' hs' hv)

/-- A path leads to the ends of an edge of the same component only. -/
theorem exists_componentOf_eq_of_connected (hs : (sources.map Element.id).Nodup)
    (ht : (targets.map Element.id).Nodup) {u v : Node}
    (h : Connected (HasEdge score threshold sources targets) u v) :
    ∃ e ∈ edges score threshold sources targets, ∃ e' ∈ edges score threshold sources targets,
      componentOf score threshold sources targets e =
        componentOf score threshold sources targets e' ∧
      EndsAt sources targets e u ∧ EndsAt sources targets e' v := by
  have hjoined : ∀ {a b : Node}, Joined (HasEdge score threshold sources targets) a b →
      ∃ e ∈ edges score threshold sources targets,
        EndsAt sources targets e a ∧ EndsAt sources targets e b := by
    rintro a b (⟨e, he, hes, het⟩ | ⟨e, he, hes, het⟩)
    · exact ⟨e, he, hes, het⟩
    · exact ⟨e, he, het, hes⟩
  induction h with
  | single huv =>
    obtain ⟨e, he, heu, hev⟩ := hjoined huv
    exact ⟨e, he, e, he, rfl, heu, hev⟩
  | @tail w v _ hwv ih =>
    obtain ⟨e, he, e', he', hee', heu, hew⟩ := ih
    obtain ⟨d, hd, hdw, hdv⟩ := hjoined hwv
    -- `e'` and `d` meet at `w`
    have hmeet := componentOf_eq_of_position_eq he' hd (position_eq_of_endsAt hs ht hew hdw)
    exact ⟨e, he, d, hd, hee'.trans hmeet, heu, hdv⟩

/-! ## The kept pairs of elements as they are given -/

/-- The score of the first elements with two identities is positive and reaches the threshold. -/
def Kept (score : Scorer) (threshold : Float) (sources targets : List Element) (s t : String) :
    Prop :=
  ∃ x y, first? sources s = some x ∧ first? targets t = some y ∧
    0 < score x y ∧ threshold ≤ score x y

theorem keeps_iff {s : Float} : keeps threshold s = true ↔ 0 < s ∧ threshold ≤ s := by
  simp [keeps]

/-- A score of zero never keeps a pair. -/
theorem keeps_zero : keeps threshold 0 = false := by
  have hzero : ¬ (0 : Float) < 0 := by decide
  simp [keeps, hzero]

theorem kept_iff {s t : String} :
    Kept score threshold sources targets s t ↔ ∃ x y, first? sources s = some x ∧
      first? targets t = some y ∧ keeps threshold (score x y) = true := by
  simp only [Kept, keeps_iff]

theorem first?_eq_some_iff_idAt? {elements : List Element} (h : (elements.map Element.id).Nodup)
    {x : Element} {id : String} :
    first? elements id = some x ↔ ∃ i, elements[i]? = some x ∧ idAt? elements i = some id := by
  rw [first?_eq_some_iff h, List.mem_iff_getElem?]
  constructor
  · rintro ⟨⟨i, hi⟩, rfl⟩
    exact ⟨i, hi, by rw [idAt?, hi, Option.map_some]⟩
  · rintro ⟨i, hi, hid⟩
    refine ⟨⟨i, hi⟩, ?_⟩
    rw [idAt?, hi] at hid
    exact Option.some.inj hid

/-- The kept pairs are the edges between the arranged elements. -/
theorem kept_iff_hasEdge {s t : String} :
    Kept score threshold sources targets s t ↔
      HasEdge score threshold (arrange sources) (arrange targets) s t := by
  constructor
  · rintro ⟨x, y, hx, hy, hpos, hle⟩
    rw [← first?_arrange, first?_eq_some_iff_idAt? (nodup_arrange _)] at hx hy
    obtain ⟨i, hi, his⟩ := hx
    obtain ⟨j, hj, hjt⟩ := hy
    refine ⟨⟨i, j, score x y⟩, mem_edges.2 ⟨x, y, hi, hj, ?_, rfl⟩, his, hjt⟩
    simp [keeps, hpos, hle]
  · rintro ⟨e, he, hs, ht⟩
    obtain ⟨x, y, hx, hy, hkeep, -⟩ := mem_edges.1 he
    refine ⟨x, y, ?_, ?_, by simpa [keeps] using hkeep⟩
    · rw [← first?_arrange, first?_eq_some_iff_idAt? (nodup_arrange _)]
      exact ⟨e.source, hx, hs⟩
    · rw [← first?_arrange, first?_eq_some_iff_idAt? (nodup_arrange _)]
      exact ⟨e.target, hy, ht⟩

theorem hasEdge_arrange_eq :
    HasEdge score threshold (arrange sources) (arrange targets) =
      Kept score threshold sources targets :=
  funext fun _ => funext fun _ => propext kept_iff_hasEdge.symm

end Matcher

end ApiEvolution
