import Mathlib.Tactic.Common
import ApiEvolution.ValueType.Basic

/-!
# The order of types over all patterns of bits

Of the doubles that are no number there is one `Float`, but there are many patterns of bits for
them, and the total order of IEEE 754 tells these apart. A `RawType` is a type whose limits are
patterns, and `RawType.compare` orders raw types as `ValueType.compare` does types, with the
patterns in the place of the doubles.

This order is linear: raw types that compare as equal are equal (`RawType.eq_of_compare`),
exchanging two of them turns the result round (`RawType.compare_swap`), and the order is transitive
(`RawType.isLE_trans`). All three are shown along the nesting of unions, for a raw type together
with a list of them. The equality of raw types, member by member and with limits equal if they
compare as equal, is the one that the order has (`RawType.equal_eq`).
-/

namespace ApiEvolution

open Std

/-- One side of a numeric range, whose number is any pattern of bits. -/
inductive RawLimit where
  | unbounded
  | inclusive (bits : UInt64)
  | exclusive (bits : UInt64)

/-- A range of numbers between limits that are patterns of bits. -/
structure RawBoundary where
  base : NumberBase
  lower : RawLimit
  upper : RawLimit

/-- A structured type whose limits are patterns of bits. -/
inductive RawType where
  | named (name : String)
  | enumeration (values : List String)
  | boundary (range : RawBoundary)
  | union (members : List RawType)

/-! ## Comparing -/

namespace RawLimit

/-- The pattern of a limit; an unbounded side has that of the number 0 in its place. -/
def bits : RawLimit → UInt64
  | .unbounded => 0
  | .inclusive b => b
  | .exclusive b => b

/-- How the limit bounds the range. -/
def code : RawLimit → LimitCode
  | .unbounded => .unbounded
  | .inclusive _ => .inclusive
  | .exclusive _ => .exclusive

/-- The limit with a code and a pattern, which an unbounded side ignores. -/
def ofCode : LimitCode → UInt64 → RawLimit
  | .inclusive, b => .inclusive b
  | .exclusive, b => .exclusive b
  | .unbounded, _ => .unbounded

theorem ofCode_code (a : RawLimit) : ofCode a.code a.bits = a := by
  cases a <;> rfl

/-- Limits in order of their codes, and by pattern within a code. -/
def compare (a b : RawLimit) : Ordering :=
  (Ord.compare a.code.toNat b.code.toNat).then
    (Ord.compare (Decimal.patternKey a.bits) (Decimal.patternKey b.bits))

/-- Limits are equal if they are in the same place of the order. -/
def equal (a b : RawLimit) : Bool :=
  a.compare b = .eq

end RawLimit

namespace RawBoundary

/-- Boundaries by base, then by lower and by upper limit. -/
def compare (a b : RawBoundary) : Ordering :=
  (Ord.compare a.base.rank b.base.rank).then
    ((RawLimit.compare a.lower b.lower).then (RawLimit.compare a.upper b.upper))

/-- Boundaries are equal part by part. -/
def equal (a b : RawBoundary) : Bool :=
  a.base = b.base && (a.lower.equal b.lower && a.upper.equal b.upper)

end RawBoundary

namespace RawType

/-- The variant of a raw type. -/
def family : RawType → TypeFamily
  | .named _ => .named
  | .enumeration _ => .enumeration
  | .boundary _ => .boundary
  | .union _ => .union

mutual

/-- The order of raw types: by family, and within a family by what the type holds. -/
def compare : RawType → RawType → Ordering
  | .named a, .named b => Ord.compare a b
  | .enumeration a, .enumeration b => ValueType.compareTexts a b
  | .boundary a, .boundary b => RawBoundary.compare a b
  | .union a, .union b => compareMembers a b
  | a, b => Ord.compare a.family.rank b.family.rank

/-- Lists of raw types, the first difference deciding. -/
def compareMembers : List RawType → List RawType → Ordering
  | [], [] => .eq
  | [], _ :: _ => .lt
  | _ :: _, [] => .gt
  | a :: as, b :: bs => (compare a b).then (compareMembers as bs)

end

mutual

/-- Raw types are equal if they are of one family and hold what is equal. -/
def equal : RawType → RawType → Bool
  | .named a, .named b => a = b
  | .enumeration a, .enumeration b => a = b
  | .boundary a, .boundary b => RawBoundary.equal a b
  | .union a, .union b => equalMembers a b
  | _, _ => false

/-- Lists of raw types are equal member by member. -/
def equalMembers : List RawType → List RawType → Bool
  | [], [] => true
  | a :: as, b :: bs => equal a b && equalMembers as bs
  | _, _ => false

end

end RawType

/-! ## Boundaries -/

namespace RawLimit

instance : TransCmp RawLimit.compare :=
  inferInstanceAs (TransCmp (compareLex (compareOn fun a : RawLimit => a.code.toNat)
    (compareOn fun a : RawLimit => Decimal.patternKey a.bits)))

instance : LawfulEqCmp RawLimit.compare where
  eq_of_compare {a b} h := by
    obtain ⟨hcode, hbits⟩ := Ordering.then_eq_eq.1 h
    have hcode := congrArg LimitCode.ofNat? (LawfulEqOrd.eq_of_compare hcode)
    rw [LimitCode.ofNat?_toNat, LimitCode.ofNat?_toNat, Option.some_inj] at hcode
    have hbits := Decimal.patternKey_inj (LawfulEqOrd.eq_of_compare hbits)
    rw [← a.ofCode_code, ← b.ofCode_code, hcode, hbits]

end RawLimit

/-- Items compared by a part of theirs. -/
theorem transCmp_on {α β : Type} (cmp : β → β → Ordering) [TransCmp cmp] (part : α → β) :
    TransCmp fun a b : α => cmp (part a) (part b) where
  eq_swap {a b} := (OrientedCmp.eq_swap : cmp (part a) (part b) = _)
  isLE_trans {a _ c} hab hbc := (TransCmp.isLE_trans hab hbc : (cmp (part a) (part c)).isLE)

/-- The place of a base among the two tells it. -/
theorem NumberBase.rank_inj {a b : NumberBase} (h : a.rank = b.rank) : a = b := by
  cases a <;> cases b <;> first | rfl | cases h

namespace RawBoundary

instance : TransCmp RawBoundary.compare :=
  have := transCmp_on RawLimit.compare RawBoundary.lower
  have := transCmp_on RawLimit.compare RawBoundary.upper
  inferInstanceAs (TransCmp (compareLex (compareOn fun a : RawBoundary => a.base.rank)
    (compareLex (fun a b : RawBoundary => RawLimit.compare a.lower b.lower)
      (fun a b : RawBoundary => RawLimit.compare a.upper b.upper))))

instance : LawfulEqCmp RawBoundary.compare where
  eq_of_compare {a b} h := by
    obtain ⟨hbase, h⟩ := Ordering.then_eq_eq.1 h
    obtain ⟨hlower, hupper⟩ := Ordering.then_eq_eq.1 h
    have hbase : a.base = b.base := NumberBase.rank_inj (LawfulEqOrd.eq_of_compare hbase)
    have hlower : a.lower = b.lower := LawfulEqCmp.eq_of_compare hlower
    have hupper : a.upper = b.upper := LawfulEqCmp.eq_of_compare hupper
    cases a
    cases b
    simp_all

theorem equal_eq (a b : RawBoundary) : a.equal b = decide (a.compare b = .eq) := by
  have hbase : (Ord.compare a.base.rank b.base.rank = .eq) ↔ a.base = b.base :=
    ⟨fun h => NumberBase.rank_inj (LawfulEqOrd.eq_of_compare h), fun h => h ▸ ReflOrd.compare_self⟩
  rw [Bool.eq_iff_iff, decide_eq_true_iff, compare, Ordering.then_eq_eq, Ordering.then_eq_eq, hbase]
  simp [equal, RawLimit.equal]

end RawBoundary

namespace ValueType

theorem compareTexts_eq (as bs : List String) :
    compareTexts as bs = List.compareLex Ord.compare as bs := by
  induction as generalizing bs with
  | nil => cases bs <;> rfl
  | cons a as ih =>
    cases bs with
    | nil => rfl
    | cons b bs => rw [compareTexts, List.compareLex_cons_cons, ih]

end ValueType

theorem TypeFamily.rank_inj {f g : TypeFamily} (h : f.rank = g.rank) : f = g := by
  cases f <;> cases g <;> first | rfl | cases h

namespace RawType

/-! ## Types of one family -/

theorem compare_of_family_ne {a b : RawType} (h : a.family ≠ b.family) :
    a.compare b = Ord.compare a.family.rank b.family.rank := by
  cases a <;> cases b <;> first | rfl | exact absurd rfl h

theorem rank_le_of_isLE {a b : RawType} (h : (a.compare b).isLE = true) :
    a.family.rank ≤ b.family.rank := by
  by_cases hfamily : a.family = b.family
  · exact hfamily ▸ Nat.le_refl _
  · rw [compare_of_family_ne hfamily] at h
    exact Nat.isLE_compare.1 h

theorem family_eq_of_compare {a b : RawType} (h : a.compare b = .eq) : a.family = b.family := by
  by_contra hne
  rw [compare_of_family_ne hne] at h
  exact hne (TypeFamily.rank_inj (LawfulEqOrd.eq_of_compare h))

mutual

/-- Raw types that compare as equal are equal. -/
theorem eq_of_compare (a b : RawType) (h : a.compare b = .eq) : a = b := by
  match a, b, family_eq_of_compare h with
  | .named a, .named b, _ => rw [LawfulEqOrd.eq_of_compare h]
  | .enumeration as, .enumeration bs, _ =>
    rw [compare, ValueType.compareTexts_eq] at h
    rw [LawfulEqCmp.eq_of_compare h]
  | .boundary a, .boundary b, _ =>
    rw [compare] at h
    rw [LawfulEqCmp.eq_of_compare h]
  | .union as, .union bs, _ =>
    rw [compare] at h
    rw [eq_of_compareMembers as bs h]

theorem eq_of_compareMembers (as bs : List RawType) (h : compareMembers as bs = .eq) :
    as = bs := by
  match as, bs with
  | [], [] => rfl
  | a :: as, b :: bs =>
    rw [compareMembers] at h
    obtain ⟨hhead, htail⟩ := Ordering.then_eq_eq.1 h
    rw [eq_of_compare a b hhead, eq_of_compareMembers as bs htail]

end

mutual

/-- Exchanging two raw types turns the result round. -/
theorem compare_swap (a b : RawType) : a.compare b = (b.compare a).swap := by
  by_cases hfamily : a.family = b.family
  case neg =>
    rw [compare_of_family_ne hfamily, compare_of_family_ne (Ne.symm hfamily)]
    exact OrientedOrd.eq_swap
  match a, b, hfamily with
  | .named a, .named b, _ => exact OrientedOrd.eq_swap
  | .enumeration as, .enumeration bs, _ =>
    rw [compare, compare, ValueType.compareTexts_eq, ValueType.compareTexts_eq]
    exact OrientedCmp.eq_swap
  | .boundary a, .boundary b, _ =>
    rw [compare, compare]
    exact OrientedCmp.eq_swap
  | .union as, .union bs, _ =>
    rw [compare, compare]
    exact compareMembers_swap as bs

theorem compareMembers_swap (as bs : List RawType) :
    compareMembers as bs = (compareMembers bs as).swap := by
  match as, bs with
  | [], [] => rfl
  | [], _ :: _ => rfl
  | _ :: _, [] => rfl
  | a :: as, b :: bs =>
    rw [compareMembers, compareMembers, Ordering.swap_then, ← compare_swap a b,
      ← compareMembers_swap as bs]

end

instance : OrientedCmp RawType.compare where
  eq_swap := compare_swap _ _

instance : LawfulEqCmp RawType.compare where
  eq_of_compare := eq_of_compare _ _

mutual

/-- The order of raw types is transitive. -/
theorem isLE_trans (a b c : RawType) (hab : (a.compare b).isLE = true)
    (hbc : (b.compare c).isLE = true) : (a.compare c).isLE = true := by
  have hranks := rank_le_of_isLE hab
  have hranks' := rank_le_of_isLE hbc
  by_cases hfamily : a.family = c.family
  case neg =>
    rw [compare_of_family_ne hfamily]
    exact Nat.isLE_compare.2 (Nat.le_trans hranks hranks')
  -- the family of `b` is between two that are the same
  have hfirst : a.family = b.family := by
    rw [← hfamily] at hranks'
    exact TypeFamily.rank_inj (Nat.le_antisymm hranks hranks')
  have hsecond : b.family = c.family := hfirst.symm.trans hfamily
  match a, b, c, hfirst, hsecond with
  | .named a, .named b, .named c, _, _ => exact TransOrd.isLE_trans hab hbc
  | .enumeration as, .enumeration bs, .enumeration cs, _, _ =>
    rw [compare, ValueType.compareTexts_eq] at hab hbc ⊢
    exact TransCmp.isLE_trans hab hbc
  | .boundary a, .boundary b, .boundary c, _, _ =>
    rw [compare] at hab hbc ⊢
    exact TransCmp.isLE_trans hab hbc
  | .union as, .union bs, .union cs, _, _ =>
    rw [compare] at hab hbc ⊢
    exact isLE_compareMembers_trans as bs cs hab hbc

theorem isLE_compareMembers_trans (as bs cs : List RawType)
    (hab : (compareMembers as bs).isLE = true) (hbc : (compareMembers bs cs).isLE = true) :
    (compareMembers as cs).isLE = true := by
  match as, bs, cs with
  | [], _, [] => rfl
  | [], _, _ :: _ => rfl
  | a :: as, b :: bs, c :: cs =>
    rw [compareMembers, Ordering.isLE_then_iff_and] at hab hbc ⊢
    have hac := isLE_trans a b c hab.1 hbc.1
    refine ⟨hac, ?_⟩
    cases hheads : a.compare c with
    | lt => exact Or.inl rfl
    | gt =>
      rw [hheads] at hac
      cases hac
    | eq =>
      -- all three heads are equal, so the rests decide
      obtain rfl := eq_of_compare a c hheads
      have heq : a.compare b = .eq := OrientedCmp.isLE_antisymm hab.1 hbc.1
      obtain rfl := eq_of_compare a b heq
      rw [heq] at hab hbc
      exact Or.inr (isLE_compareMembers_trans as bs cs (hab.2.resolve_left nofun)
        (hbc.2.resolve_left nofun))

end

instance : TransCmp RawType.compare where
  isLE_trans := isLE_trans _ _ _

/-! ## Equality -/

mutual

/-- Raw types are equal exactly if they are in the same place of the order. -/
theorem equal_eq (a b : RawType) : a.equal b = decide (a.compare b = .eq) := by
  by_cases hfamily : a.family = b.family
  case neg =>
    have hdistinct : a.compare b ≠ .eq := fun h => hfamily (family_eq_of_compare h)
    rw [decide_eq_false hdistinct]
    cases a <;> cases b <;> first | rfl | exact absurd rfl hfamily
  match a, b, hfamily with
  | .named a, .named b, _ => simp [equal, compare]
  | .enumeration as, .enumeration bs, _ => simp [equal, compare, ValueType.compareTexts_eq]
  | .boundary a, .boundary b, _ =>
    rw [equal, compare]
    exact a.equal_eq b
  | .union as, .union bs, _ =>
    rw [equal, compare]
    exact equalMembers_eq as bs

theorem equalMembers_eq (as bs : List RawType) :
    equalMembers as bs = decide (compareMembers as bs = .eq) := by
  match as, bs with
  | [], [] => rfl
  | [], _ :: _ => rfl
  | _ :: _, [] => rfl
  | a :: as, b :: bs =>
    rw [equalMembers, compareMembers, equal_eq a b, equalMembers_eq as bs, Bool.eq_iff_iff,
      decide_eq_true_iff, Ordering.then_eq_eq, Bool.and_eq_true, decide_eq_true_iff,
      decide_eq_true_iff]

end

end RawType

end ApiEvolution
