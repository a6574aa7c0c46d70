import Mathlib.Data.List.Induction
import Mathlib.Tactic.Common
import ApiEvolution.Proofs.JsonText
import ApiEvolution.Proofs.Members

/-!
# What the canonical form of an object keeps

The canonical form forgets the order of the members of an object and nothing else that can be asked
of it: objects without repeated keys have the same canonical form exactly if they have the same
values, in canonical form, under every key (`canonical_object_eq_iff`). Putting one more member last
gives its key a new value and leaves the others (`lookup_sortMembers_concat`).
-/

namespace ApiEvolution.Json

variable {members others : List (String × Json)} {key name : String} {value : Json}

/-! ## Members put in order -/

theorem lookup_insertSorted (members : List (String × Json)) :
    lookup key (insertSorted name value members) =
      if name = key then some value else lookup key members := by
  induction members with
  | nil => rw [insertSorted, lookup_cons]
  | cons m members ih =>
    rw [insertSorted]
    split
    · rw [lookup_cons]
    split
    · next heq =>
      rw [lookup_cons, lookup_cons]
      by_cases hkey : name = key
      · rw [if_pos hkey, if_pos hkey]
      · rw [if_neg hkey, if_neg hkey, if_neg (heq ▸ hkey)]
    · next hne =>
      rw [lookup_cons, lookup_cons, ih]
      by_cases hkey : name = key
      · have hm : ¬ m.1 = key := fun hm => hne (hkey.trans hm.symm)
        rw [if_pos hkey, if_pos hkey, if_neg hm]
      · rw [if_neg hkey, if_neg hkey]

/-- The last member of a key counts. -/
theorem lookup_sortMembers_concat (members : List (String × Json)) :
    lookup key (sortMembers (members ++ [(name, value)])) =
      if name = key then some value else lookup key (sortMembers members) := by
  rw [sortMembers, List.foldl_append]
  exact lookup_insertSorted _

theorem mem_of_mem_sortMembers {m : String × Json} (h : m ∈ sortMembers members) :
    m ∈ members := by
  induction members using List.reverseRecOn with
  | nil => exact h
  | append_singleton members n ih =>
    rw [sortMembers, List.foldl_append] at h
    rcases mem_of_mem_insertSorted h with rfl | hm
    · exact List.mem_append_right _ List.mem_cons_self
    · exact List.mem_append_left _ (ih hm)

/-- Sorted members are told by what is found in them. -/
theorem Sorted.ext (h : Sorted members) (hothers : Sorted others)
    (hlookup : ∀ key, lookup key members = lookup key others) : members = others := by
  refine h.eq_of_perm hothers ?_
  refine (List.perm_ext_iff_of_nodup h.distinct.of_map hothers.distinct.of_map).2 ?_
  rintro ⟨key, value⟩
  rw [← h.distinct.lookup_eq_some_iff, ← hothers.distinct.lookup_eq_some_iff, hlookup]

/-! ## Canonical forms -/

theorem canonicalItems_eq (items : List Json) : canonicalItems items = items.map canonical := by
  induction items with
  | nil => rfl
  | cons v items ih => rw [canonicalItems, ih, List.map_cons]

theorem canonicalMembers_eq (members : List (String × Json)) :
    canonicalMembers members = members.map fun m => (m.1, m.2.canonical) := by
  induction members with
  | nil => rfl
  | cons m members ih => rw [canonicalMembers, ih, List.map_cons]

theorem lookup_canonicalMembers (key : String) (members : List (String × Json)) :
    lookup key (canonicalMembers members) = (lookup key members).map canonical := by
  induction members with
  | nil => rfl
  | cons m members ih =>
    rw [canonicalMembers, lookup_cons, lookup_cons, ih]
    split <;> rfl

theorem Distinct.canonicalMembers (h : Distinct members) : Distinct (canonicalMembers members) := by
  rw [Distinct, canonicalMembers_eq, List.map_map]
  exact h

/-- Canonical forms of objects are told by what is found in the objects. -/
theorem canonical_object_eq_iff (h : Distinct members) (hothers : Distinct others) :
    canonical (.object members) = canonical (.object others) ↔
      ∀ key, (lookup key members).map canonical = (lookup key others).map canonical := by
  have hlookup : ∀ {members}, Distinct members → ∀ key,
      lookup key (sortMembers (Json.canonicalMembers members)) =
        (lookup key members).map canonical := by
    intro members hmembers key
    rw [hmembers.canonicalMembers.lookup_sortMembers, lookup_canonicalMembers]
  rw [canonical, canonical, object.injEq]
  constructor
  · intro heq key
    rw [← hlookup h, heq, hlookup hothers]
  · intro heq
    refine (sorted_sortMembers _).ext (sorted_sortMembers _) fun key => ?_
    rw [hlookup h, heq, hlookup hothers]

theorem isUsable_canonical {v : Json} (h : v.isUsable = true) : v.canonical.isUsable = true := by
  induction v using inductionOn with
  | array items ih =>
    rw [canonical, canonicalItems_eq]
    refine areUsable_iff.2 (List.forall_mem_map.2 fun v hv => ?_)
    exact ih v hv (areUsable_iff.1 h v hv)
  | object members ih =>
    rw [canonical, canonicalMembers_eq]
    refine membersAreUsable_iff.2 fun m hm => ?_
    obtain ⟨n, hn, rfl⟩ := List.mem_map.1 (mem_of_mem_sortMembers hm)
    exact ih n hn (membersAreUsable_iff.1 h n hn)
  | unusable => cases h
  | null | bool | integer | real | text => rfl

end ApiEvolution.Json
