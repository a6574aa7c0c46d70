import Mathlib.Tactic.Common
import ApiEvolution.Proofs.TypeOrder

/-!
# Unions of types are unions of sets

`ValueType.union?` is read as the union of sets, a type standing for the set of its members. The
types it is given are flat (`ValueType.IsFlat`): a union among them has several members, none of
which is a union.

* A union is its members: types may be listed as they are or by their members
  (`ValueType.union?_flatMap_members`), and lists of the same members have the same union
  (`ValueType.union?_congr`).
* What there is no union of is the empty list (`ValueType.union?_eq_none_iff`).
* What comes out is flat again, and its members are those of the listed types
  (`ValueType.isFlat_of_union?`, `ValueType.mem_members_iff_of_union?`), so that it can be listed in
  place of the types (`ValueType.mem_flatMap_toList_union?`).
-/

namespace ApiEvolution.ValueType

variable {xs ys : List ValueType} {t m : ValueType}

/-- A union has several members, and none of them is a union. -/
def IsFlat (t : ValueType) : Prop :=
  t.family = .union → 2 ≤ t.members.length ∧ ∀ m ∈ t.members, m.family ≠ .union

instance (t : ValueType) : Decidable t.IsFlat :=
  inferInstanceAs (Decidable (_ → _))

theorem IsFlat.family_ne_of_mem (h : t.IsFlat) (hm : m ∈ t.members) : m.family ≠ .union := by
  by_cases hunion : t.family = .union
  · exact (h hunion).2 m hm
  · rw [members_eq hunion] at hm
    exact List.mem_singleton.1 hm ▸ hunion

theorem IsFlat.members_ne_nil (h : t.IsFlat) : t.members ≠ [] := by
  by_cases hunion : t.family = .union
  · have hseveral := (h hunion).1
    intro hnil
    rw [hnil] at hseveral
    cases hseveral
  · rw [members_eq hunion]
    exact List.cons_ne_nil t []

/-! ## The members of the listed types -/

/-- Only the set of the members counts. -/
theorem union?_congr (h : ∀ m, m ∈ xs.flatMap members ↔ m ∈ ys.flatMap members) :
    union? xs = union? ys := by
  have hset : setOf (xs.flatMap members) = setOf (ys.flatMap members) := SortedSet.ofList_congr h
  unfold union?
  rw [hset]

theorem family_ne_of_mem_flatMap (h : ∀ x ∈ xs, x.IsFlat) (hm : m ∈ xs.flatMap members) :
    m.family ≠ .union := by
  obtain ⟨x, hx, hmx⟩ := List.mem_flatMap.1 hm
  exact (h x hx).family_ne_of_mem hmx

/-- Every listed type may be replaced by its members. -/
theorem union?_flatMap_members (h : ∀ x ∈ xs, x.IsFlat) :
    union? (xs.flatMap members) = union? xs := by
  refine union?_congr fun m => ?_
  rw [List.flatMap_congr fun u hu => members_eq (family_ne_of_mem_flatMap h hu),
    List.flatMap_singleton']

theorem flatMap_members_eq_nil_iff (h : ∀ x ∈ xs, x.IsFlat) :
    xs.flatMap members = [] ↔ xs = [] := by
  constructor
  · intro hnil
    refine List.eq_nil_iff_forall_not_mem.2 ?_
    intro x hx
    exact (h x hx).members_ne_nil (List.flatMap_eq_nil_iff.1 hnil x hx)
  · rintro rfl
    rfl

/-! ## The union -/

/-- Only the empty list has no union. -/
theorem union?_eq_none_iff (h : ∀ x ∈ xs, x.IsFlat) : union? xs = none ↔ xs = [] := by
  constructor
  · intro hnone
    by_contra hne
    have hmembers : xs.flatMap members ≠ [] := by
      intro hnil
      exact hne ((flatMap_members_eq_nil_iff h).1 hnil)
    obtain ⟨t, ht⟩ := exists_union? (fun u hu => family_ne_of_mem_flatMap h hu) hmembers
    rw [union?_flatMap_members h, hnone] at ht
    cases ht
  · rintro rfl
    rfl

/-- The members of the union are the set of the members of the types. -/
theorem members_of_union? (h : ∀ x ∈ xs, x.IsFlat) (ht : union? xs = some t) :
    t.members = setOf (xs.flatMap members) ∧ (t.family = .union → 2 ≤ t.members.length) := by
  rw [← union?_flatMap_members h] at ht
  exact (union?_eq_some_iff fun u hu => family_ne_of_mem_flatMap h hu).1 ht

theorem mem_members_iff_of_union? (h : ∀ x ∈ xs, x.IsFlat) (ht : union? xs = some t) :
    m ∈ t.members ↔ m ∈ xs.flatMap members := by
  rw [(members_of_union? h ht).1]
  exact SortedSet.mem_ofList_iff

theorem sorted_members_of_union? (h : ∀ x ∈ xs, x.IsFlat) (ht : union? xs = some t) :
    SortedSet.Sorted compare t.members := by
  rw [(members_of_union? h ht).1]
  exact SortedSet.sorted_ofList _

/-- The union of flat types is flat. -/
theorem isFlat_of_union? (h : ∀ x ∈ xs, x.IsFlat) (ht : union? xs = some t) : t.IsFlat := by
  intro hunion
  refine ⟨(members_of_union? h ht).2 hunion, ?_⟩
  intro m hm
  exact family_ne_of_mem_flatMap h ((mem_members_iff_of_union? h ht).1 hm)

/-- A union stands for the types it is the union of, also where there is none. -/
theorem mem_flatMap_toList_union? (h : ∀ x ∈ xs, x.IsFlat) :
    m ∈ (union? xs).toList.flatMap members ↔ m ∈ xs.flatMap members := by
  cases ht : union? xs with
  | none => rw [(union?_eq_none_iff h).1 ht, Option.toList_none]
  | some t =>
    rw [Option.toList_some, List.flatMap_singleton]
    exact mem_members_iff_of_union? h ht

/-- Exactly the lists of the same members have the same union. -/
theorem union?_eq_union?_iff (hxs : ∀ x ∈ xs, x.IsFlat) (hys : ∀ y ∈ ys, y.IsFlat) :
    union? xs = union? ys ↔ ∀ m, m ∈ xs.flatMap members ↔ m ∈ ys.flatMap members := by
  constructor
  · intro h m
    rw [← mem_flatMap_toList_union? hxs, h, mem_flatMap_toList_union? hys]
  · exact union?_congr

/-- The union of types comes out plain exactly when they have one member in all. -/
theorem family_ne_union_iff (h : ∀ x ∈ xs, x.IsFlat) (ht : union? xs = some t) :
    t.family ≠ .union ↔ ∃ a, ∀ m, m ∈ xs.flatMap members ↔ m = a := by
  constructor
  · intro hplain
    refine ⟨t, fun m => ?_⟩
    rw [← mem_members_iff_of_union? h ht, members_eq hplain, List.mem_singleton]
  · rintro ⟨a, ha⟩ hunion
    -- two members of the union would both be `a`, and a set has no element twice
    have hall : ∀ m ∈ t.members, m = a :=
      fun m hm => (ha m).1 ((mem_members_iff_of_union? h ht).1 hm)
    have hlength : t.members.length ≤ 1 := by
      rw [List.eq_replicate_of_mem hall]
      have hnodup := (sorted_members_of_union? h ht).nodup
      rw [List.eq_replicate_of_mem hall, List.nodup_replicate] at hnodup
      rwa [List.length_replicate]
    exact absurd ((members_of_union? h ht).2 hunion) (by omega)

/-! ## The laws of a union of sets -/

/-- `union?` is the union of the sets of members. It tells lists by their members and nothing else:
their order, their repetition and whether a type is listed or its members do not count. A union
may be listed in place of its types. There is none of the empty list only; it is a plain type
exactly when there is a single member, and otherwise a flat union of exactly the members. -/
theorem union?_isUnionOfSets (xs ys : List ValueType) (hxs : ∀ x ∈ xs, x.IsFlat)
    (hys : ∀ y ∈ ys, y.IsFlat) :
    (union? xs = union? ys ↔ ∀ m, m ∈ xs.flatMap members ↔ m ∈ ys.flatMap members) ∧
    (∀ zs : List ValueType, zs.Perm xs → union? zs = union? xs) ∧
    (∀ x ∈ xs, union? (x :: xs) = union? xs) ∧
    (∀ before x after, xs = before ++ x :: after →
      union? (before ++ (x.members ++ after)) = union? xs) ∧
    union? ((union? xs).toList ++ ys) = union? (xs ++ ys) ∧
    (union? xs = none ↔ xs = []) ∧
    (∀ t, union? xs = some t →
      (t.family ≠ .union ↔ ∃ a, ∀ m, m ∈ xs.flatMap members ↔ m = a) ∧
      (∀ m, m ∈ t.members ↔ m ∈ xs.flatMap members) ∧
      SortedSet.Sorted compare t.members ∧ t.IsFlat) := by
  refine ⟨union?_eq_union?_iff hxs hys, ?_, ?_, ?_, ?_, union?_eq_none_iff hxs, ?_⟩
  · intro zs hperm
    exact union?_congr fun m => (hperm.flatMap_right members).mem_iff
  · intro x hx
    refine union?_congr fun m => ?_
    rw [List.flatMap_cons, List.mem_append, or_iff_right_of_imp]
    exact fun hm => List.mem_flatMap.2 ⟨x, hx, hm⟩
  · rintro before x after rfl
    have hx : x.IsFlat := hxs x (List.mem_append_right _ List.mem_cons_self)
    have hmembers : x.members.flatMap members = x.members := by
      rw [List.flatMap_congr fun u hu => members_eq (hx.family_ne_of_mem hu),
        List.flatMap_singleton']
    refine union?_congr fun m => ?_
    rw [List.flatMap_append, List.flatMap_append, hmembers, List.flatMap_append, List.flatMap_cons]
  · refine union?_congr fun m => ?_
    rw [List.flatMap_append, List.flatMap_append, List.mem_append, List.mem_append,
      mem_flatMap_toList_union? hxs]
  · intro t ht
    exact ⟨family_ne_union_iff hxs ht, fun m => mem_members_iff_of_union? hxs ht,
      sorted_members_of_union? hxs ht, isFlat_of_union? hxs ht⟩

/-- A range that ends at 0 and one that ends at the negative zero are two members, also beside a
union that has one of them. -/
theorem union?_signedZeros :
    let upTo (v : Float) : ValueType := .boundary ⟨.float, .unbounded, .inclusive v⟩
    union? ((union? [.union [.named "str", upTo 0], .named "str"]).toList ++ [upTo (-0)]) =
        union? ([.union [.named "str", upTo 0], .named "str"] ++ [upTo (-0)]) ∧
      union? [.union [.named "str", upTo 0], .named "str"] ≠ union? [upTo (-0)] := by
  intro upTo
  obtain ⟨heq, -, -, -, happend, -⟩ := union?_isUnionOfSets
    [.union [.named "str", upTo 0], .named "str"] [upTo (-0)]
    (by simp [IsFlat, family, members, upTo]) (by simp [IsFlat, family, upTo])
  refine ⟨happend, ?_⟩
  rw [Ne, heq]
  intro h
  exact absurd ((h (.named "str")).1 (by simp [members])) (by simp [members, upTo])

end ApiEvolution.ValueType
