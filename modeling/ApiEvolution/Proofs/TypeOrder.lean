import Mathlib.Data.List.Nodup
import Mathlib.Tactic.Common
import ApiEvolution.Proofs.RawTypes
import ApiEvolution.Proofs.SortedSet
import ApiEvolution.TypeText.Reader

/-!
# The order of types

A type is a raw type whose patterns of bits are those of its numbers (`ValueType.raw_inj`), and it
is compared as that (`ValueType.compare_eq_raw`). So `ValueType.compare` is a linear order as well
(`RawType.compare_isLinear`). It follows that the sets which are sorted by it have no element twice.
Such a set are the members of a union (`ValueType.union?_eq_some_iff`), and in a type that is read
from texts the values of an enumeration (`TypeText.hasSets_of_resolve`).
-/

namespace ApiEvolution

open Std

/-! ## Types as raw types -/

namespace Limit

/-- The limit with the pattern of its number. -/
def raw : Limit → RawLimit
  | .unbounded => .unbounded
  | .inclusive v => .inclusive v.toBits
  | .exclusive v => .exclusive v.toBits

theorem raw_inj {a b : Limit} (h : a.raw = b.raw) : a = b := by
  match a, b with
  | .unbounded, .unbounded => rfl
  | .inclusive v, .inclusive w => rw [Decimal.toBits_inj (RawLimit.inclusive.inj h)]
  | .exclusive v, .exclusive w => rw [Decimal.toBits_inj (RawLimit.exclusive.inj h)]

theorem code_raw (a : Limit) : a.raw.code = a.code := by
  cases a <;> rfl

theorem bits_raw (a : Limit) : a.raw.bits = a.value.toBits := by
  cases a with
  | unbounded => decide +kernel
  | inclusive v => rfl
  | exclusive v => rfl

theorem compare_eq_raw (a b : Limit) : a.compare b = a.raw.compare b.raw := by
  rw [compare, RawLimit.compare, code_raw, code_raw, bits_raw, bits_raw]
  rfl

end Limit

namespace Boundary

/-- The boundary with the patterns of its limits. -/
def raw (b : Boundary) : RawBoundary :=
  ⟨b.base, b.lower.raw, b.upper.raw⟩

theorem raw_inj {a b : Boundary} (h : a.raw = b.raw) : a = b := by
  obtain ⟨hbase, hlower, hupper⟩ := RawBoundary.mk.inj h
  have hlower : a.lower = b.lower := Limit.raw_inj hlower
  have hupper : a.upper = b.upper := Limit.raw_inj hupper
  cases a
  cases b
  simp_all

theorem compare_eq_raw (a b : Boundary) : a.compare b = a.raw.compare b.raw := by
  rw [compare, Limit.compare_eq_raw, Limit.compare_eq_raw]
  rfl

end Boundary

namespace ValueType

mutual

/-- The type with the patterns of all its limits. -/
def raw : ValueType → RawType
  | .named name => .named name
  | .enumeration values => .enumeration values
  | .boundary b => .boundary b.raw
  | .union ms => .union (rawMembers ms)

/-- The types with the patterns of all their limits. -/
def rawMembers : List ValueType → List RawType
  | [] => []
  | t :: rest => raw t :: rawMembers rest

end

mutual

/-- A type is told by what it is as a raw type. -/
theorem raw_inj (a b : ValueType) (h : a.raw = b.raw) : a = b := by
  match a, b with
  | .named a, .named b =>
    cases h
    rfl
  | .enumeration as, .enumeration bs =>
    cases h
    rfl
  | .boundary a, .boundary b => rw [Boundary.raw_inj (RawType.boundary.inj h)]
  | .union as, .union bs => rw [rawMembers_inj as bs (RawType.union.inj h)]

theorem rawMembers_inj (as bs : List ValueType) (h : rawMembers as = rawMembers bs) : as = bs := by
  match as, bs with
  | [], [] => rfl
  | a :: as, b :: bs =>
    obtain ⟨hhead, htail⟩ := List.cons.inj h
    rw [raw_inj a b hhead, rawMembers_inj as bs htail]

end

mutual

/-- Types are compared as raw types. -/
theorem compare_eq_raw (a b : ValueType) : a.compare b = a.raw.compare b.raw := by
  match a, b with
  | .named _, .named _ => rfl
  | .enumeration _, .enumeration _ => rfl
  | .boundary a, .boundary b => exact a.compare_eq_raw b
  | .union as, .union bs => exact compareMembers_eq_raw as bs
  | .named _, .enumeration _ | .named _, .boundary _ | .named _, .union _ => rfl
  | .enumeration _, .named _ | .enumeration _, .boundary _ | .enumeration _, .union _ => rfl
  | .boundary _, .named _ | .boundary _, .enumeration _ | .boundary _, .union _ => rfl
  | .union _, .named _ | .union _, .enumeration _ | .union _, .boundary _ => rfl

theorem compareMembers_eq_raw (as bs : List ValueType) :
    compareMembers as bs = RawType.compareMembers (rawMembers as) (rawMembers bs) := by
  match as, bs with
  | [], [] => rfl
  | [], _ :: _ => rfl
  | _ :: _, [] => rfl
  | a :: as, b :: bs =>
    rw [compareMembers, rawMembers, rawMembers, RawType.compareMembers, compare_eq_raw a b,
      compareMembers_eq_raw as bs]

end

theorem compare_eq : ValueType.compare = fun a b => RawType.compare a.raw b.raw := by
  funext a b
  exact compare_eq_raw a b

instance : TransCmp ValueType.compare :=
  compare_eq ▸ transCmp_on RawType.compare raw

instance : LawfulEqCmp ValueType.compare where
  eq_of_compare {a b} h := by
    rw [compare_eq_raw] at h
    exact raw_inj a b (LawfulEqCmp.eq_of_compare h)

/-- The order tells equal types. -/
theorem compare_eq_iff {a b : ValueType} : a.compare b = .eq ↔ a = b :=
  LawfulEqCmp.compare_eq_iff_eq

end ValueType

/-! ## Linear orders -/

/-- A comparison that puts all items into one line and tells the equal ones. -/
structure IsLinear {α : Type} (cmp : α → α → Ordering) : Prop where
  swap : ∀ a b, cmp b a = (cmp a b).swap
  trans : ∀ a b c, (cmp a b).isLE = true → (cmp b c).isLE = true → (cmp a c).isLE = true
  total : ∀ a b, (cmp a b).isLE = true ∨ (cmp b a).isLE = true
  antisymm : ∀ a b, (cmp a b).isLE = true → (cmp b a).isLE = true → a = b
  eq_iff : ∀ a b, cmp a b = .eq ↔ a = b

theorem IsLinear.of_lawful {α : Type} (cmp : α → α → Ordering) [TransCmp cmp] [LawfulEqCmp cmp] :
    IsLinear cmp where
  swap _ _ := OrientedCmp.eq_swap
  trans _ _ _ := TransCmp.isLE_trans
  total a b := by
    rw [(OrientedCmp.eq_swap : cmp b a = _)]
    cases cmp a b <;> simp
  antisymm _ _ hab hba := LawfulEqCmp.eq_of_compare (OrientedCmp.isLE_antisymm hab hba)
  eq_iff _ _ := LawfulEqCmp.compare_eq_iff_eq

/-- The order of types is linear, also where the numbers of the limits are any patterns of bits:
those that are no numbers, the infinities and both zeros included. What it compares as equal is what
the equality of types calls equal, and it is the same. Sides that bound a range in different ways
never compare as equal, so that an unbounded one is never equal to a limit. -/
theorem RawType.compare_isLinear :
    IsLinear RawType.compare ∧ (∀ a b : RawType, a.compare b = .eq ↔ a.equal b = true) ∧
      (∀ a b : RawLimit, a.code ≠ b.code → a.compare b ≠ .eq) ∧
      Function.Injective ValueType.raw ∧
      (∀ a b : ValueType, a.compare b = RawType.compare a.raw b.raw) ∧
      IsLinear ValueType.compare ∧ ∀ a b : Limit, a.code ≠ b.code → a.compare b ≠ .eq := by
  have hlimits : ∀ a b : RawLimit, a.code ≠ b.code → a.compare b ≠ .eq := fun _ _ hne heq =>
    hne (congrArg RawLimit.code (LawfulEqCmp.eq_of_compare heq))
  have hequal : ∀ a b : RawType, a.compare b = .eq ↔ a.equal b = true := by
    intro a b
    rw [RawType.equal_eq, decide_eq_true_iff]
  refine ⟨.of_lawful _, hequal, hlimits, fun a b => ValueType.raw_inj a b,
    ValueType.compare_eq_raw, .of_lawful _, fun a b hne => ?_⟩
  rw [Limit.compare_eq_raw]
  exact hlimits _ _ (by rwa [Limit.code_raw, Limit.code_raw])

/-- Of the patterns that are no number those with the sign come first and those without it last. -/
example : RawLimit.compare (.inclusive 0xfff8000000000000) (.inclusive 0xfff0000000000000) = .lt ∧
    RawLimit.compare (.inclusive 0x7ff0000000000000) (.inclusive 0x7ff8000000000000) = .lt := by
  decide

namespace ValueType

/-! ## Types with sets -/

/-- The values of an enumeration and the members of a union are sets. -/
def HasSets : ValueType → Prop
  | .named _ => True
  | .enumeration values => values.Nodup
  | .boundary _ => True
  | .union members => members.Nodup

theorem nodup_members {t : ValueType} (h : t.HasSets) : t.members.Nodup := by
  cases t with
  | union members => exact h
  | _ => exact List.nodup_singleton _

theorem members_eq {t : ValueType} (h : t.family ≠ .union) : t.members = [t] := by
  cases t with
  | union members => exact absurd rfl h
  | _ => rfl

/-- The union of types that are no unions themselves has their set as its members, and is a union
only if there are several. -/
theorem union?_eq_some_iff {types : List ValueType} {t : ValueType}
    (h : ∀ u ∈ types, u.family ≠ .union) : union? types = some t ↔
      t.members = setOf types ∧ (t.family = .union → 2 ≤ t.members.length) := by
  have hflat : types.flatMap members = types := by
    rw [List.flatMap_congr fun u hu => members_eq (h u hu)]
    exact List.flatMap_singleton' types
  have hset : ∀ u ∈ setOf types, u.family ≠ .union :=
    fun u hu => h u (SortedSet.mem_ofList_iff.1 hu)
  rw [union?, hflat]
  generalize setOf types = set at hset
  constructor
  · intro ht
    rcases set with _ | ⟨a, _ | ⟨b, rest⟩⟩
    · cases ht
    · cases ht
      have hsingle := hset t List.mem_cons_self
      exact ⟨members_eq hsingle, fun hunion => absurd hunion hsingle⟩
    · cases ht
      exact ⟨rfl, fun _ => Nat.le_add_left 2 _⟩
  · rintro ⟨rfl, hseveral⟩
    cases t with
    | union ms =>
      have hlength : 2 ≤ ms.length := hseveral rfl
      rcases ms with _ | ⟨a, _ | ⟨b, rest⟩⟩
      · cases hlength
      · exact absurd hlength (by simp)
      · rfl
    | _ => rfl

theorem mem_members_of_union? {types : List ValueType} {t m : ValueType}
    (h : ∀ u ∈ types, u.family ≠ .union) (ht : union? types = some t) :
    m ∈ t.members ↔ m ∈ types := by
  rw [((union?_eq_some_iff h).1 ht).1]
  exact SortedSet.mem_ofList_iff

/-- There is a union of types unless there are no types. -/
theorem exists_union? {types : List ValueType} (h : ∀ u ∈ types, u.family ≠ .union)
    (hne : types ≠ []) : ∃ t, union? types = some t := by
  obtain ⟨u, hu⟩ := List.exists_mem_of_ne_nil types hne
  have hmem : u ∈ setOf (types.flatMap members) := by
    refine SortedSet.mem_ofList_iff.2 (List.mem_flatMap.2 ⟨u, hu, ?_⟩)
    rw [members_eq (h u hu)]
    exact List.mem_singleton_self u
  rw [union?]
  split
  · next hempty =>
    rw [hempty] at hmem
    cases hmem
  · exact ⟨_, rfl⟩
  · exact ⟨_, rfl⟩

theorem hasSets_of_union? {types : List ValueType} {t : ValueType}
    (h : ∀ u ∈ types, u.family ≠ .union ∧ u.HasSets) (ht : union? types = some t) : t.HasSets := by
  have hfamily : ∀ u ∈ types, u.family ≠ .union := fun u hu => (h u hu).1
  by_cases hunion : t.family = .union
  · cases t with
    | union ms =>
      obtain rfl : ms = setOf types := ((union?_eq_some_iff hfamily).1 ht).1
      exact SortedSet.nodup_ofList _
    | _ => cases hunion
  · have hself : t ∈ t.members := by
      rw [members_eq hunion]
      exact List.mem_singleton_self t
    exact (h t ((mem_members_of_union? hfamily ht).1 hself)).2

end ValueType

namespace TypeText

open ValueType

theorem hasSets_of_enumerationOf {text : List Char} {t : ValueType}
    (h : t ∈ enumerationOf (valueSet? text)) : t.family ≠ .union ∧ t.HasSets := by
  cases hvalues : valueSet? text with
  | none =>
    rw [hvalues] at h
    cases h
  | some values =>
    rw [hvalues] at h
    obtain ⟨span, -, hspan⟩ := Option.map_eq_some_iff.1 hvalues
    have hnodup : values.Nodup := hspan ▸ SortedSet.nodup_ofList _
    cases values with
    | nil => cases h
    | cons v vs =>
      obtain rfl := List.mem_singleton.1 h
      exact ⟨nofun, hnodup⟩

theorem hasSets_of_segmentTypes {base : NumberBase} {segment : List Char} {t : ValueType}
    (h : t ∈ segmentTypes base segment) : t.family ≠ .union ∧ t.HasSets := by
  rw [segmentTypes] at h
  split at h
  · cases h
  · split at h
    · obtain rfl := List.mem_singleton.1 h
      exact ⟨nofun, trivial⟩
    · split at h
      · exact hasSets_of_enumerationOf h
      · obtain rfl := List.mem_singleton.1 h
        exact ⟨nofun, trivial⟩

theorem hasSets_of_memberTypes {text description : List Char} {t : ValueType}
    (h : t ∈ memberTypes text description) : t.family ≠ .union ∧ t.HasSets := by
  rw [memberTypes, List.mem_append, List.mem_append] at h
  rcases h with (h | h) | h
  · cases hspan : firstSpan (dropDefault text) with
    | none =>
      rw [hspan] at h
      cases h
    | some span =>
      rw [hspan] at h
      exact hasSets_of_enumerationOf h
  · split at h
    · obtain rfl := List.mem_singleton.1 h
      exact ⟨nofun, trivial⟩
    · cases h
  · obtain ⟨segment, -, hsegment⟩ := List.mem_flatMap.1 h
    exact hasSets_of_segmentTypes hsegment

theorem hasSets_of_readType {typeText description : String} {t : ValueType}
    (h : readType typeText description = some t) : t.HasSets := by
  rw [readType] at h
  split at h
  · cases h
  · exact hasSets_of_union? (fun u hu => hasSets_of_memberTypes hu) h

/-- The type of an element is read from the type text or from the type hint. -/
theorem exists_readType_of_resolve {typeText description : String} {hint : Option String}
    {t : ValueType} (h : resolve typeText hint description = some t) :
    ∃ source, readType source description = some t := by
  rcases Option.or_eq_some_iff.1 h with h | ⟨-, h⟩
  · split at h
    · cases h
    · exact ⟨_, h⟩
  · obtain ⟨text, -, h⟩ := Option.bind_eq_some_iff.1 h
    split at h
    · cases h
    · exact ⟨_, h⟩

/-- A type that is read from texts consists of sets. -/
theorem hasSets_of_resolve {typeText description : String} {hint : Option String} {t : ValueType}
    (h : resolve typeText hint description = some t) : t.HasSets := by
  obtain ⟨source, hsource⟩ := exists_readType_of_resolve h
  exact hasSets_of_readType hsource

end TypeText

end ApiEvolution
