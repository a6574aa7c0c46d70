import ApiEvolution.Proofs.MappingSet

/-!
# The positions of mapped identities

A `MappingSet` looks an identity up in the list of its mappings. A `MappingRegister` has besides the
list two maps that give, for an identity on a side, the position of the mapping that has it, and it
looks into these maps only. They are written where a mapping is accepted, for its sources and then
for its targets; a mapping is refused before anything is written.

## Main results

* `getElem?_note`: what a map has after some identities are noted.
* `InStep.push`, `inStep_run`: the maps have the positions of the list after one call, and so after
  any.
* `InStep.toSet_perform`, `toSet_run`: a register and a set answer alike and hold the same.
* `InStep.exists_front`: what is pushed of a list.
* `run_serves`: what a register says after any calls, refused ones among them.
-/

namespace ApiEvolution

/-- The mappings of a comparison in the order in which they were pushed, and the positions of those
that have an identity on a side. -/
structure MappingRegister where
  mappings : List Mapping
  bySource : Std.TreeMap String Nat
  byTarget : Std.TreeMap String Nat

/-- A call that may change what is mapped. -/
inductive MappingCall where
  | push (mapping : Mapping)
  | extend (mappings : List Mapping)

namespace MappingSet

/-- The set after a call, and why some of it was refused. -/
def perform (s : MappingSet) : MappingCall → MappingSet × Option Inconsistency
  | .push m =>
    match s.push m with
    | .ok more => (more, none)
    | .error cause => (s, some cause)
  | .extend ms => s.extend ms

/-- The set after some calls on the empty one. -/
def run (calls : List MappingCall) : MappingSet :=
  calls.foldl (fun s call => (s.perform call).1) empty

theorem extend_cons (s : MappingSet) (m : Mapping) (rest : List Mapping) :
    s.extend (m :: rest) =
      match s.perform (.push m) with
      | (more, none) => more.extend rest
      | (same, some cause) => (same, some cause) := by
  rw [extend, perform]
  cases s.push m <;> rfl

end MappingSet

namespace MappingRegister

/-- The register without mappings. -/
def empty : MappingRegister := ⟨[], ∅, ∅⟩

/-- The positions of the mappings that have an identity on a side. -/
def index (r : MappingRegister) : Side → Std.TreeMap String Nat
  | .source => r.bySource
  | .target => r.byTarget

/-- A map in which some identities have got a position. -/
def note (positions : Std.TreeMap String Nat) (ids : List String) (i : Nat) :
    Std.TreeMap String Nat :=
  ids.foldl (fun positions id => positions.insert id i) positions

/-- What keeps a mapping out: its first source that has a position, or else its first such target.
-/
def taken? (r : MappingRegister) (m : Mapping) : Option Inconsistency :=
  ((m.sources.find? r.bySource.contains).map (.mappedTwice .source)).or
    ((m.targets.find? r.byTarget.contains).map (.mappedTwice .target))

/-- Note the position of a mapping for its identities and put it at the end, unless one of them has
a position already. -/
def push (r : MappingRegister) (m : Mapping) : MappingRegister × Option Inconsistency :=
  match r.taken? m with
  | some cause => (r, some cause)
  | none =>
    (⟨r.mappings ++ [m], note r.bySource m.sources r.mappings.length,
      note r.byTarget m.targets r.mappings.length⟩, none)

/-- Push mappings one by one up to the first that is refused, and say why it is. -/
def extend (r : MappingRegister) : List Mapping → MappingRegister × Option Inconsistency
  | [] => (r, none)
  | m :: rest =>
    match r.push m with
    | (more, none) => more.extend rest
    | (same, some cause) => (same, some cause)

/-- The mapping at the position of an identity on a side. -/
def forSide? (r : MappingRegister) (side : Side) (id : String) : Option Mapping :=
  (r.index side)[id]?.bind fun i => r.mappings[i]?

/-- Whether two identities have the same position. -/
def maps (r : MappingRegister) (source target : String) : Bool :=
  match r.bySource[source]?, r.byTarget[target]? with
  | some i, some j => i = j
  | _, _ => false

/-- The register after a call, and why some of it was refused. -/
def perform (r : MappingRegister) : MappingCall → MappingRegister × Option Inconsistency
  | .push m => r.push m
  | .extend ms => r.extend ms

/-- The register after some calls on the empty one. -/
def run (calls : List MappingCall) : MappingRegister :=
  calls.foldl (fun r call => (r.perform call).1) empty

/-- The set of the mappings of a register. -/
def toSet (r : MappingRegister) : MappingSet := ⟨r.mappings⟩

variable {r : MappingRegister} {m : Mapping} {side : Side} {id : String}

/-! ## Maps and list in step -/

theorem getElem?_note {positions : Std.TreeMap String Nat} {ids : List String} {i : Nat} :
    (note positions ids i)[id]? = if id ∈ ids then some i else positions[id]? := by
  induction ids generalizing positions with
  | nil => simp [note]
  | cons first rest ih =>
    have hstep : note positions (first :: rest) i = note (positions.insert first i) rest i := rfl
    rw [hstep, ih, Std.TreeMap.getElem?_insert]
    by_cases hrest : id ∈ rest
    · simp [hrest]
    · by_cases hfirst : first = id
      · simp [hfirst]
      · simp [hrest, hfirst, Ne.symm hfirst]

/-- The maps have an identity exactly at the position of a mapping that has it. -/
def InStep (r : MappingRegister) : Prop :=
  ∀ side id i, (r.index side)[id]? = some i ↔
    ∃ m : Mapping, r.mappings[i]? = some m ∧ id ∈ m.ids side

theorem inStep_empty : empty.InStep := by
  intro side id i
  cases side <;> simp [empty, index]

theorem exists_getElem?_concat {ms : List Mapping} {i : Nat} {p : Mapping → Prop} :
    (∃ m', (ms ++ [m])[i]? = some m' ∧ p m') ↔
      (∃ m', ms[i]? = some m' ∧ p m') ∨ i = ms.length ∧ p m := by
  rcases Nat.lt_trichotomy i ms.length with hlt | rfl | hgt
  · simp [List.getElem?_append_left hlt, Nat.ne_of_lt hlt]
  · simp
  · have hnone : (ms ++ [m])[i]? = none := List.getElem?_eq_none (by simp; omega)
    simp [hnone, List.getElem?_eq_none (Nat.le_of_lt hgt), Nat.ne_of_gt hgt]

namespace InStep

theorem isSome_iff (h : r.InStep) :
    ((r.index side)[id]?).isSome ↔ ∃ m ∈ r.mappings, id ∈ m.ids side := by
  rw [Option.isSome_iff_exists]
  constructor
  · rintro ⟨i, hi⟩
    obtain ⟨m, hm, hid⟩ := (h side id i).1 hi
    exact ⟨m, List.mem_of_getElem? hm, hid⟩
  · rintro ⟨m, hm, hid⟩
    obtain ⟨i, hi⟩ := List.mem_iff_getElem?.1 hm
    exact ⟨i, (h side id i).2 ⟨m, hi, hid⟩⟩

/-- No identity is on a side of the mappings at two positions. -/
theorem eq_of_mem_ids (h : r.InStep) {i j : Nat} {m' : Mapping} (hm : r.mappings[i]? = some m)
    (hm' : r.mappings[j]? = some m') (hid : id ∈ m.ids side) (hid' : id ∈ m'.ids side) : i = j := by
  have hi : (r.index side)[id]? = some i := (h side id i).2 ⟨m, hm, hid⟩
  have hj : (r.index side)[id]? = some j := (h side id j).2 ⟨m', hm', hid'⟩
  exact Option.some.inj (hi.symm.trans hj)

theorem partitioned (h : r.InStep) : r.toSet.Partitioned := by
  refine List.pairwise_iff_getElem.2 ?_
  intro i j hi hj hij side id hid hid'
  have hsame : i = j := h.eq_of_mem_ids (List.getElem?_eq_getElem hi)
    (List.getElem?_eq_getElem hj) hid hid'
  exact Nat.ne_of_lt hij hsame

theorem forSide?_eq (h : r.InStep) : r.forSide? side id = r.toSet.forSide? side id := by
  rw [forSide?]
  cases hi : (r.index side)[id]? with
  | none =>
    refine (MappingSet.forSide?_eq_none_iff.2 ?_).symm
    intro m hm hid
    have hsome := h.isSome_iff.2 ⟨m, hm, hid⟩
    rw [hi] at hsome
    cases hsome
  | some i =>
    obtain ⟨m, hm, hid⟩ := (h side id i).1 hi
    have hfound : r.toSet.forSide? side id = some m :=
      (MappingSet.forSide?_eq_some_iff h.partitioned).2 ⟨List.mem_of_getElem? hm, hid⟩
    rw [hfound]
    exact hm

theorem maps_iff (h : r.InStep) {source target : String} :
    r.maps source target = true ↔
      ∃ m ∈ r.mappings, source ∈ m.sources ∧ target ∈ m.targets := by
  have hpositions : r.maps source target = true ↔
      ∃ i, (r.index .source)[source]? = some i ∧ (r.index .target)[target]? = some i := by
    rw [maps, index, index]
    split
    · next i j hi hj => simp [hi, hj, eq_comm]
    · next hno => simpa using fun i hi hj => hno i i hi hj
  rw [hpositions]
  constructor
  · rintro ⟨i, hsource, htarget⟩
    obtain ⟨m, hm, hs⟩ := (h .source source i).1 hsource
    obtain ⟨m', hm', ht⟩ := (h .target target i).1 htarget
    obtain rfl : m = m' := Option.some.inj (hm.symm.trans hm')
    exact ⟨m, List.mem_of_getElem? hm, hs, ht⟩
  · rintro ⟨m, hm, hs, ht⟩
    obtain ⟨i, hi⟩ := List.mem_iff_getElem?.1 hm
    exact ⟨i, (h .source source i).2 ⟨m, hi, hs⟩, (h .target target i).2 ⟨m, hi, ht⟩⟩

/-! ## Calls -/

/-- The positions tell what is mapped already. -/
theorem taken?_eq (h : r.InStep) : r.taken? m = r.toSet.obstacle? m := by
  have hcontains : ∀ side id, (r.index side).contains id = (r.toSet.forSide? side id).isSome := by
    intro side id
    rw [← h.forSide?_eq, Std.TreeMap.contains_eq_isSome_getElem?, forSide?, Bool.eq_iff_iff]
    constructor
    · intro hsome
      obtain ⟨i, hi⟩ := Option.isSome_iff_exists.1 hsome
      obtain ⟨m, hm, -⟩ := (h side id i).1 hi
      simp [hi, hm]
    · intro hsome
      exact Option.isSome_of_isSome_bind hsome
  have hsource : r.bySource.contains = fun id => (r.toSet.forSource? id).isSome :=
    funext (hcontains .source)
  have htarget : r.byTarget.contains = fun id => (r.toSet.forTarget? id).isSome :=
    funext (hcontains .target)
  rw [taken?, MappingSet.obstacle?, hsource, htarget]

theorem taken?_eq_none_iff (h : r.InStep) : r.taken? m = none ↔ ∀ m' ∈ r.mappings, m'.Apart m := by
  rw [h.taken?_eq]
  exact MappingSet.obstacle?_eq_none_iff

/-- A push keeps the maps in step with the list. -/
theorem push (h : r.InStep) (m : Mapping) : (r.push m).1.InStep := by
  rw [MappingRegister.push]
  cases htaken : r.taken? m with
  | some cause => exact h
  | none =>
    have hapart := h.taken?_eq_none_iff.1 htaken
    intro side id i
    have hindex : index ⟨r.mappings ++ [m], note r.bySource m.sources r.mappings.length,
        note r.byTarget m.targets r.mappings.length⟩ side =
          note (r.index side) (m.ids side) r.mappings.length := by
      cases side <;> rfl
    rw [hindex, getElem?_note, exists_getElem?_concat]
    by_cases hid : id ∈ m.ids side
    · -- no mapping that is there already has the identity
      have hfree : ¬ ∃ m' : Mapping, r.mappings[i]? = some m' ∧ id ∈ m'.ids side := by
        rintro ⟨m', hm', hid'⟩
        exact hapart m' (List.mem_of_getElem? hm') side hid' hid
      rw [if_pos hid, Option.some.injEq]
      exact ⟨fun heq => .inr ⟨heq.symm, hid⟩, fun hor => (hor.resolve_left hfree).1.symm⟩
    · simpa [hid] using h side id i

/-- A register and a set answer a push alike, and hold the same after it. -/
theorem toSet_push (h : r.InStep) (m : Mapping) :
    r.toSet.perform (.push m) = ((r.push m).1.toSet, (r.push m).2) := by
  rw [MappingSet.perform, MappingSet.push, MappingRegister.push, h.taken?_eq]
  cases r.toSet.obstacle? m <;> rfl

theorem extend (h : r.InStep) (ms : List Mapping) : (r.extend ms).1.InStep := by
  induction ms generalizing r with
  | nil => exact h
  | cons m rest ih =>
    have hpush := h.push m
    rw [MappingRegister.extend]
    rcases heq : r.push m with ⟨more, _ | cause⟩
    · rw [heq] at hpush
      exact ih hpush
    · rw [heq] at hpush
      exact hpush

theorem perform (h : r.InStep) (call : MappingCall) : (r.perform call).1.InStep := by
  cases call with
  | push m => exact h.push m
  | extend ms => exact h.extend ms

theorem toSet_extend (h : r.InStep) (ms : List Mapping) :
    r.toSet.extend ms = ((r.extend ms).1.toSet, (r.extend ms).2) := by
  induction ms generalizing r with
  | nil => rfl
  | cons m rest ih =>
    have hstep := h.push m
    rw [MappingSet.extend_cons, h.toSet_push m, MappingRegister.extend]
    rcases hpush : r.push m with ⟨more, _ | cause⟩
    · rw [hpush] at hstep
      exact ih hstep
    · rfl

/-- A register and a set answer a call alike, and hold the same after it. -/
theorem toSet_perform (h : r.InStep) (call : MappingCall) :
    r.toSet.perform call = ((r.perform call).1.toSet, (r.perform call).2) := by
  cases call with
  | push m => exact h.toSet_push m
  | extend ms => exact h.toSet_extend ms

theorem push_of_apart (h : r.InStep) (hapart : ∀ m' ∈ r.mappings, m'.Apart m) :
    ∃ more, r.push m = (more, none) ∧ more.mappings = r.mappings ++ [m] := by
  rw [MappingRegister.push, h.taken?_eq_none_iff.2 hapart]
  exact ⟨_, rfl, rfl⟩

theorem push_of_not_apart (h : r.InStep) (hapart : ¬ ∀ m' ∈ r.mappings, m'.Apart m) :
    ∃ cause, r.push m = (r, some cause) := by
  rw [← h.taken?_eq_none_iff, ← ne_eq, Option.ne_none_iff_exists'] at hapart
  obtain ⟨cause, hcause⟩ := hapart
  rw [MappingRegister.push, hcause]
  exact ⟨cause, rfl⟩

/-- Of a list just the longest front is pushed that has no overlap with the register or in itself.
-/
theorem exists_front (h : r.InStep) (ms : List Mapping) :
    ∃ front, front <+: ms ∧ r.extend front = ((r.extend ms).1, none) ∧
      (r.extend ms).1.mappings = r.mappings ++ front ∧
      (∀ other, other <+: ms → (r.mappings ++ other).Pairwise Mapping.Apart → other <+: front) ∧
      ((r.extend ms).2 = none ↔ front = ms) := by
  induction ms generalizing r with
  | nil => exact ⟨[], List.prefix_rfl, rfl, by simp [MappingRegister.extend], by simp, by
      simp [MappingRegister.extend]⟩
  | cons m rest ih =>
    by_cases hapart : ∀ m' ∈ r.mappings, m'.Apart m
    · obtain ⟨more, hpush, hmore⟩ := h.push_of_apart hapart
      have hstep : more.InStep := by simpa [hpush] using h.push m
      have hextend : ∀ ms, r.extend (m :: ms) = more.extend ms := fun ms => by
        rw [MappingRegister.extend, hpush]
      obtain ⟨front, hfront, hall, hmappings, hlongest, hnone⟩ := ih hstep
      refine ⟨m :: front, by simpa using hfront, ?_, ?_, ?_, ?_⟩
      · rw [hextend, hextend, hall]
      · rw [hextend, hmappings, hmore, List.append_assoc, List.singleton_append]
      · intro other hother hpairwise
        rcases List.prefix_cons_iff.1 hother with rfl | ⟨tail, rfl, htail⟩
        · exact List.nil_prefix
        · have hpairwise' : (more.mappings ++ tail).Pairwise Mapping.Apart := by
            rw [hmore, List.append_assoc]
            exact hpairwise
          simpa using hlongest tail htail hpairwise'
      · rw [hextend, hnone, List.cons.injEq, and_iff_right rfl]
    · obtain ⟨cause, hpush⟩ := h.push_of_not_apart hapart
      have hextend : r.extend (m :: rest) = (r, some cause) := by
        rw [MappingRegister.extend, hpush]
      refine ⟨[], List.nil_prefix, by rw [hextend]; rfl, by simp [hextend], ?_, by simp [hextend]⟩
      intro other hother hpairwise
      rcases List.prefix_cons_iff.1 hother with rfl | ⟨tail, rfl, -⟩
      · exact List.prefix_rfl
      · have hfree := (List.pairwise_append.1 hpairwise).2.2
        exact absurd (fun m' hm' => hfree m' hm' m (by simp)) hapart

end InStep

/-! ## Any calls -/

/-- Calls on a register in step leave it in step, and leave in the set what they leave in the set
for which it stands. -/
theorem InStep.foldl (h : r.InStep) (calls : List MappingCall) :
    (calls.foldl (fun r call => (r.perform call).1) r).InStep ∧
      (calls.foldl (fun r call => (r.perform call).1) r).toSet =
        calls.foldl (fun s call => (s.perform call).1) r.toSet := by
  induction calls generalizing r with
  | nil => exact ⟨h, rfl⟩
  | cons call rest ih =>
    rw [List.foldl_cons, List.foldl_cons, h.toSet_perform]
    exact ih (h.perform call)

theorem inStep_run (calls : List MappingCall) : (run calls).InStep :=
  (inStep_empty.foldl calls).1

theorem toSet_run (calls : List MappingCall) : (run calls).toSet = MappingSet.run calls :=
  (inStep_empty.foldl calls).2

/-- What a register says, and the set for which it stands. -/
structure Serves (r : MappingRegister) (s : MappingSet) : Prop where
  /-- It holds what the set holds, and so it does after any further call, which both answer alike.
  -/
  toSet_eq : r.toSet = s
  perform_eq : ∀ call, s.perform call = ((r.perform call).1.toSet, (r.perform call).2)
  /-- A mapping is refused if an identity of it is on the same side of a mapping that is there, and
  otherwise it is put at the end. -/
  refused_iff : ∀ m : Mapping, (r.push m).2.isSome ↔
    ∃ side, ∃ id ∈ m.ids side, ∃ m' ∈ r.mappings, id ∈ m'.ids side
  push_refused : ∀ m, (r.push m).2.isSome → (r.push m).1 = r
  push_accepted : ∀ m, (r.push m).2 = none → (r.push m).1.mappings = r.mappings ++ [m]
  /-- Of a list the longest front that is accepted is pushed, and nothing more. -/
  extend_front : ∀ ms, ∃ front, front <+: ms ∧ r.extend front = ((r.extend ms).1, none) ∧
    (r.extend ms).1.mappings = r.mappings ++ front ∧
    (∀ other, other <+: ms → (r.extend other).2 = none → other <+: front) ∧
    ((r.extend ms).2 = none ↔ front = ms)
  /-- No identity is on a side of the mappings at two positions. -/
  position_eq : ∀ side id (i j : Nat) (m m' : Mapping), r.mappings[i]? = some m →
    r.mappings[j]? = some m' → id ∈ m.ids side → id ∈ m'.ids side → i = j
  /-- An identity is looked up at a position of the list, in the one mapping that has it, if there
  is one. -/
  position_lt : ∀ side (id : String) (i : Nat), (r.index side)[id]? = some i → i < r.mappings.length
  forSide?_iff : ∀ side id m, r.forSide? side id = some m ↔ m ∈ r.mappings ∧ id ∈ m.ids side
  forSide?_none_iff : ∀ side id, r.forSide? side id = none ↔ ∀ m ∈ r.mappings, id ∉ m.ids side
  /-- Two identities are mapped to each other by a mapping that has them on its two sides. -/
  maps_iff : ∀ source target, r.maps source target = true ↔
    ∃ m ∈ r.mappings, source ∈ m.sources ∧ target ∈ m.targets
  /-- The set is looked into with the same results. -/
  lookup_eq : ∀ side id, s.forSide? side id = r.forSide? side id
  maps_eq : ∀ source target, s.maps source target = r.maps source target

theorem fst_push_of_refused (h : (r.push m).2.isSome) : (r.push m).1 = r := by
  rw [push] at h ⊢
  cases htaken : r.taken? m with
  | none => simp [htaken] at h
  | some cause => rfl

theorem mappings_push_of_accepted (h : (r.push m).2 = none) :
    (r.push m).1.mappings = r.mappings ++ [m] := by
  rw [push] at h ⊢
  cases htaken : r.taken? m with
  | none => rfl
  | some cause => simp [htaken] at h

theorem InStep.snd_push_isSome_iff (h : r.InStep) :
    (r.push m).2.isSome ↔ ∃ side, ∃ id ∈ m.ids side, ∃ m' ∈ r.mappings, id ∈ m'.ids side := by
  constructor
  · intro hsome
    by_contra hno
    obtain ⟨more, hpush, -⟩ := h.push_of_apart fun m' hm' side id hid' hid =>
      hno ⟨side, id, hid, m', hm', hid'⟩
    rw [hpush] at hsome
    cases hsome
  · rintro ⟨side, id, hid, m', hm', hid'⟩
    obtain ⟨cause, hpush⟩ := h.push_of_not_apart fun hall => hall m' hm' side hid' hid
    rw [hpush]
    rfl

theorem InStep.serves (h : r.InStep) : r.Serves r.toSet where
  toSet_eq := rfl
  perform_eq := h.toSet_perform
  refused_iff _ := h.snd_push_isSome_iff
  push_refused _ := fst_push_of_refused
  push_accepted _ := mappings_push_of_accepted
  extend_front ms := by
    obtain ⟨front, hfront, hall, hmappings, hlongest, hnone⟩ := h.exists_front ms
    refine ⟨front, hfront, hall, hmappings, fun other hother haccepted => ?_, hnone⟩
    -- what is accepted has no overlap
    obtain ⟨_, -, -, hmore, -, hwhole⟩ := h.exists_front other
    rw [hwhole.1 haccepted] at hmore
    exact hlongest other hother (hmore ▸ (h.extend other).partitioned)
  position_eq _ _ _ _ _ _ hm hm' hid hid' := h.eq_of_mem_ids hm hm' hid hid'
  position_lt side id i hi := by
    obtain ⟨m, hm, -⟩ := (h side id i).1 hi
    exact (List.getElem?_eq_some_iff.1 hm).1
  forSide?_iff side id m := by
    rw [h.forSide?_eq, MappingSet.forSide?_eq_some_iff h.partitioned]
    rfl
  forSide?_none_iff side id := by
    rw [h.forSide?_eq, MappingSet.forSide?_eq_none_iff]
    rfl
  maps_iff _ _ := h.maps_iff
  lookup_eq _ _ := h.forSide?_eq.symm
  maps_eq _ _ := by
    rw [Bool.eq_iff_iff, h.maps_iff, MappingSet.maps_iff]
    rfl

/-- Whatever is pushed, accepted or refused, a register serves as the set does. -/
theorem run_serves (calls : List MappingCall) : (run calls).Serves (MappingSet.run calls) := by
  rw [← toSet_run]
  exact (inStep_run calls).serves

end MappingRegister

end ApiEvolution
