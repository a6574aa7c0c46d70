import Mathlib.Data.List.Nodup
import Mathlib.Data.List.Pairwise
import Mathlib.Data.String.Basic
import Mathlib.Tactic.Common
import ApiEvolution.Json.Record

/-!
# Objects without repeated keys

Where no key is repeated, an object is a function of its keys: what is found under a key does not
depend on the order of the members (`lookup_eq_of_perm`), sorting the members only moves them
(`perm_sortMembers`), and whatever order they came in they end in the same (`sortMembers_eq_of_perm`).
A value whose objects are all sorted is its own canonical form.

No key is repeated in what is built by putting one member after the other (`distinct_latest`).
-/

namespace ApiEvolution.Json

/-! ## Distinct keys -/

/-- No key is repeated. -/
def Distinct {α : Type} (members : List (String × α)) : Prop :=
  (members.map (·.1)).Nodup

/-- The members stand in the order of their keys, and no key is repeated. -/
def Sorted (members : List (String × Json)) : Prop :=
  members.Pairwise fun a b => a.1 < b.1

section

variable {α : Type} {members others : List (String × α)} {key : String} {value : α}

instance (members : List (String × α)) : Decidable (Distinct members) :=
  inferInstanceAs (Decidable (List.Nodup _))

theorem Distinct.perm (h : Distinct members) (hperm : members.Perm others) : Distinct others :=
  (hperm.map _).nodup_iff.1 h

theorem Distinct.tail {m : String × α} (h : Distinct (m :: members)) : Distinct members :=
  (List.nodup_cons.1 h).2

theorem Distinct.head_ne {m n : String × α} (h : Distinct (m :: members)) (hn : n ∈ members) :
    n.1 ≠ m.1 := by
  intro heq
  exact (List.nodup_cons.1 h).1 (List.mem_map.2 ⟨n, hn, heq⟩)

/-- Of two members with one key there is only one. -/
theorem Distinct.eq_of_mem {m n : String × α} (h : Distinct members) (hm : m ∈ members)
    (hn : n ∈ members) (hkey : m.1 = n.1) : m = n :=
  List.inj_on_of_nodup_map h hm hn hkey

/-- Without repeated keys the first member of a key is the member of this key. -/
theorem Distinct.find?_eq_some_iff (h : Distinct members) :
    members.find? (fun m => m.1 = key) = some (key, value) ↔ (key, value) ∈ members := by
  constructor
  · exact List.mem_of_find?_eq_some
  · intro hmem
    cases hfound : members.find? fun m => m.1 = key with
    | none => simpa using List.find?_eq_none.1 hfound _ hmem
    | some m =>
      have hkey : m.1 = key := by simpa using List.find?_some hfound
      rw [h.eq_of_mem (List.mem_of_find?_eq_some hfound) hmem hkey]

theorem put_of_not_mem (h : ∀ m ∈ members, m.1 ≠ key) :
    put key value members = members ++ [(key, value)] := by
  induction members with
  | nil => rfl
  | cons m members ih =>
    rw [put, if_neg (h m List.mem_cons_self), ih fun n hn => h n (List.mem_cons_of_mem m hn)]
    rfl

/-- Without repeated keys nothing is replaced by a later value. -/
theorem Distinct.latest_eq (h : Distinct members) : latest members = members := by
  have hfold : ∀ done : List (String × α), Distinct (done ++ members) →
      members.foldl (fun done m => put m.1 m.2 done) done = done ++ members := by
    intro done hall
    induction members generalizing done with
    | nil => simp
    | cons m members ih =>
      have hnew : ∀ n ∈ done, n.1 ≠ m.1 := by
        intro n hn
        have hmiddle : Distinct (m :: (done ++ members)) := hall.perm List.perm_middle
        exact hmiddle.head_ne (List.mem_append_left _ hn)
      have happend : done ++ m :: members = done ++ [m] ++ members := by simp
      rw [List.foldl_cons, put_of_not_mem hnew, ih h.tail _ (happend ▸ hall), happend]
  exact hfold [] h

theorem map_fst_put (key : String) (value : α) (members : List (String × α)) :
    (put key value members).map (·.1) =
      if key ∈ members.map (·.1) then members.map (·.1) else members.map (·.1) ++ [key] := by
  induction members with
  | nil => simp [put]
  | cons m members ih =>
    by_cases hm : m.1 = key
    · simp [put, hm]
    · rw [put, if_neg hm, List.map_cons, ih]
      by_cases hmem : key ∈ members.map (·.1)
      · simp [hmem]
      · simp [hmem, Ne.symm hm]

theorem Distinct.put (h : Distinct members) : Distinct (put key value members) := by
  rw [Distinct, map_fst_put]
  split
  · exact h
  · next hnew =>
    rw [← List.concat_eq_append]
    exact h.concat hnew

theorem mem_of_mem_put {m : String × α} (h : m ∈ put key value members) :
    m = (key, value) ∨ m ∈ members := by
  induction members with
  | nil => exact .inl (List.mem_singleton.1 h)
  | cons n members ih =>
    rw [put] at h
    split at h
    · rcases List.mem_cons.1 h with rfl | hm
      · exact .inl rfl
      · exact .inr (List.mem_cons_of_mem _ hm)
    · rcases List.mem_cons.1 h with rfl | hm
      · exact .inr List.mem_cons_self
      · exact (ih hm).imp id (List.mem_cons_of_mem _)

/-- Of repeated keys only one is left, with a value that it had. -/
theorem distinct_latest (pairs : List (String × α)) :
    Distinct (latest pairs) ∧ ∀ m ∈ latest pairs, m ∈ pairs := by
  have hfold : ∀ done : List (String × α), Distinct done →
      Distinct (pairs.foldl (fun done m => Json.put m.1 m.2 done) done) ∧
        ∀ m ∈ pairs.foldl (fun done m => Json.put m.1 m.2 done) done, m ∈ done ∨ m ∈ pairs := by
    induction pairs with
    | nil => exact fun done hdone => ⟨hdone, fun m hm => .inl hm⟩
    | cons n pairs ih =>
      intro done hdone
      obtain ⟨hdistinct, hmem⟩ := ih (Json.put n.1 n.2 done) hdone.put
      refine ⟨hdistinct, fun m hm => ?_⟩
      rcases hmem m hm with hput | hlater
      · rcases mem_of_mem_put hput with rfl | hbefore
        · exact .inr List.mem_cons_self
        · exact .inl hbefore
      · exact .inr (List.mem_cons_of_mem _ hlater)
  obtain ⟨hdistinct, hmem⟩ := hfold [] List.nodup_nil
  exact ⟨hdistinct, fun m hm => (hmem m hm).resolve_left List.not_mem_nil⟩

end

section

variable {members others : List (String × Json)} {key : String} {value : Json}

theorem lookup_cons (key : String) (m : String × Json) (members : List (String × Json)) :
    lookup key (m :: members) = if m.1 = key then some m.2 else lookup key members := by
  by_cases h : m.1 = key <;> simp [lookup, h]

theorem mem_of_lookup (h : lookup key members = some value) : (key, value) ∈ members := by
  obtain ⟨m, hm, rfl⟩ := Option.map_eq_some_iff.1 h
  have hkey : m.1 = key := by simpa using List.find?_some hm
  rw [← hkey]
  exact List.mem_of_find?_eq_some hm

theorem Distinct.lookup_eq_some_iff (h : Distinct members) :
    lookup key members = some value ↔ (key, value) ∈ members := by
  refine ⟨mem_of_lookup, fun hmem => ?_⟩
  rw [lookup, h.find?_eq_some_iff.2 hmem]
  rfl

theorem Distinct.lookup_eq_of_perm (h : Distinct members) (hperm : members.Perm others) :
    lookup key members = lookup key others := by
  refine Option.ext fun value => ?_
  rw [h.lookup_eq_some_iff, (h.perm hperm).lookup_eq_some_iff]
  exact hperm.mem_iff

theorem Distinct.repeatedKey?_eq_none (h : Distinct members) (names : List String) :
    repeatedKey? names members = none := by
  refine List.find?_eq_none.2 fun name _ => ?_
  have hcount : members.countP (fun m => m.1 = name) = (members.map (·.1)).count name := by
    rw [List.count, List.countP_map]
    refine List.countP_congr fun m _ => ?_
    simp
  have hone : (members.map (·.1)).count name ≤ 1 := List.nodup_iff_count_le_one.1 h name
  simpa [hcount] using hone

/-! ## Sorted members -/

theorem sorted_of_keys {keys : List String} (h : keys.Pairwise (· < ·))
    (hkeys : members.map (·.1) = keys) : Sorted members := by
  rw [← hkeys, List.pairwise_map] at h
  exact h

theorem Sorted.distinct (h : Sorted members) : Distinct members := by
  rw [Distinct, List.Nodup, List.pairwise_map]
  exact h.imp fun hlt => hlt.ne

theorem Sorted.eq_of_perm (h : Sorted members) (hothers : Sorted others)
    (hperm : members.Perm others) : members = others :=
  hperm.eq_of_pairwise (fun _ _ _ _ hab hba => absurd hba hab.asymm) h hothers

theorem mem_of_mem_insertSorted {m : String × Json} (h : m ∈ insertSorted key value members) :
    m = (key, value) ∨ m ∈ members := by
  induction members with
  | nil => simpa [insertSorted] using h
  | cons n members ih =>
    rw [insertSorted] at h
    split at h
    · simpa using h
    split at h
    · rcases List.mem_cons.1 h with rfl | h
      · exact .inl rfl
      · exact .inr (List.mem_cons_of_mem n h)
    · rcases List.mem_cons.1 h with rfl | h
      · exact .inr List.mem_cons_self
      · exact (ih h).imp_right (List.mem_cons_of_mem n)

theorem Sorted.insertSorted (h : Sorted members) : Sorted (insertSorted key value members) := by
  induction members with
  | nil => exact List.pairwise_singleton _ _
  | cons n members ih =>
    obtain ⟨hn, hrest⟩ := List.pairwise_cons.1 h
    rw [Json.insertSorted]
    split
    · next hlt =>
      refine List.pairwise_cons.2 ⟨?_, h⟩
      intro m hm
      rcases List.mem_cons.1 hm with rfl | hm
      · exact hlt
      · exact hlt.trans (hn m hm)
    split
    · next heq => exact List.pairwise_cons.2 ⟨fun m hm => heq ▸ hn m hm, hrest⟩
    · next hlt hne =>
      refine List.pairwise_cons.2 ⟨?_, ih hrest⟩
      intro m hm
      rcases mem_of_mem_insertSorted hm with rfl | hm
      · exact lt_of_le_of_ne (not_lt.1 hlt) (Ne.symm hne)
      · exact hn m hm

/-- Whatever the members were, they are sorted afterwards. -/
theorem sorted_sortMembers (members : List (String × Json)) : Sorted (sortMembers members) := by
  have hfold : ∀ done, Sorted done →
      Sorted (members.foldl (fun done m => Json.insertSorted m.1 m.2 done) done) := by
    induction members with
    | nil => exact fun done hdone => hdone
    | cons m members ih => exact fun done hdone => ih _ hdone.insertSorted
  exact hfold [] List.Pairwise.nil

theorem perm_insertSorted (h : ∀ m ∈ members, m.1 ≠ key) :
    (Json.insertSorted key value members).Perm ((key, value) :: members) := by
  induction members with
  | nil => exact List.Perm.refl _
  | cons n members ih =>
    have hne : key ≠ n.1 := (h n List.mem_cons_self).symm
    rw [Json.insertSorted]
    rw [if_neg hne]
    split
    · exact List.Perm.refl _
    · have hrest := ih fun m hm => h m (List.mem_cons_of_mem n hm)
      exact (hrest.cons n).trans (List.Perm.swap _ _ _)

/-- Without repeated keys sorting only moves the members. -/
theorem Distinct.perm_sortMembers (h : Distinct members) : (sortMembers members).Perm members := by
  have hfold : ∀ done : List (String × Json), Distinct (done ++ members) →
      (members.foldl (fun done m => Json.insertSorted m.1 m.2 done) done).Perm
        (done ++ members) := by
    induction members with
    | nil => intro done _; simp
    | cons m members ih =>
      intro done hall
      have hmiddle : Distinct (m :: (done ++ members)) := hall.perm List.perm_middle
      have hinsert : (Json.insertSorted m.1 m.2 done).Perm (m :: done) :=
        perm_insertSorted fun n hn => hmiddle.head_ne (List.mem_append_left _ hn)
      have hstep : (Json.insertSorted m.1 m.2 done ++ members).Perm (done ++ m :: members) :=
        (hinsert.append_right members).trans List.perm_middle.symm
      exact (ih h.tail _ (hall.perm hstep.symm)).trans hstep
  exact hfold [] h

theorem Sorted.sortMembers_eq (h : Sorted members) : sortMembers members = members :=
  (sorted_sortMembers members).eq_of_perm h h.distinct.perm_sortMembers

/-- Whatever order the members came in, they end in the same. -/
theorem Distinct.sortMembers_eq_of_perm (h : Distinct members) (hperm : members.Perm others) :
    sortMembers members = sortMembers others :=
  (sorted_sortMembers members).eq_of_perm (sorted_sortMembers others)
    (h.perm_sortMembers.trans (hperm.trans (h.perm hperm).perm_sortMembers.symm))

theorem Distinct.lookup_sortMembers (h : Distinct members) :
    lookup key (sortMembers members) = lookup key members :=
  (h.lookup_eq_of_perm h.perm_sortMembers.symm).symm

/-! ## Values inside values -/

theorem itemsDepth_le_iff {items : List Json} {n : Nat} :
    itemsDepth items ≤ n ↔ ∀ v ∈ items, v.depth ≤ n := by
  induction items with
  | nil => simp [itemsDepth]
  | cons v items ih => simp [itemsDepth, ih]

theorem membersDepth_le_iff {n : Nat} :
    membersDepth members ≤ n ↔ ∀ m ∈ members, m.2.depth ≤ n := by
  induction members with
  | nil => simp [membersDepth]
  | cons m members ih => simp [membersDepth, ih]

theorem areUsable_iff {items : List Json} :
    areUsable items = true ↔ ∀ v ∈ items, v.isUsable = true := by
  induction items with
  | nil => simp [areUsable]
  | cons v items ih => simp [areUsable, ih]

theorem membersAreUsable_iff :
    membersAreUsable members = true ↔ ∀ m ∈ members, m.2.isUsable = true := by
  induction members with
  | nil => simp [membersAreUsable]
  | cons m members ih => simp [membersAreUsable, ih]

/-- Whether an object may be read as a whole does not depend on the order of its members. -/
theorem isReadable_object_of_perm {around : Nat} (hperm : members.Perm others)
    (h : isReadable around (.object members) = true) :
    isReadable around (.object others) = true := by
  rw [isReadable, isUsable, depth, Bool.and_eq_true, membersAreUsable_iff,
    decide_eq_true_iff] at h ⊢
  obtain ⟨husable, hdepth⟩ := h
  have hothers : membersDepth others ≤ membersDepth members :=
    membersDepth_le_iff.2 fun m hm => membersDepth_le_iff.1 le_rfl m (hperm.mem_iff.2 hm)
  exact ⟨fun m hm => husable m (hperm.mem_iff.2 hm), by omega⟩

theorem canonicalItems_eq_self {items : List Json} (h : ∀ v ∈ items, v.canonical = v) :
    canonicalItems items = items := by
  induction items with
  | nil => rfl
  | cons v items ih =>
    rw [canonicalItems, h v List.mem_cons_self, ih fun w hw => h w (List.mem_cons_of_mem v hw)]

theorem canonicalMembers_eq_self (h : ∀ m ∈ members, m.2.canonical = m.2) :
    canonicalMembers members = members := by
  induction members with
  | nil => rfl
  | cons m members ih =>
    rw [canonicalMembers, h m List.mem_cons_self,
      ih fun n hn => h n (List.mem_cons_of_mem m hn)]

theorem canonical_array_eq_self {items : List Json} (h : ∀ v ∈ items, v.canonical = v) :
    canonical (.array items) = .array items := by
  rw [canonical, canonicalItems_eq_self h]

theorem canonical_object_eq_self (hsorted : Sorted members)
    (h : ∀ m ∈ members, m.2.canonical = m.2) : canonical (.object members) = .object members := by
  rw [canonical, canonicalMembers_eq_self h, hsorted.sortMembers_eq]

end

/-! ## Documents without repeated keys -/

mutual

/-- Whether no object inside the value repeats a key. -/
def hasDistinctKeys : Json → Bool
  | .array items => haveDistinctKeys items
  | .object members => Distinct members && membersHaveDistinctKeys members
  | _ => true

/-- Whether no object inside the items repeats a key. -/
def haveDistinctKeys : List Json → Bool
  | [] => true
  | v :: rest => hasDistinctKeys v && haveDistinctKeys rest

/-- Whether no object inside the members' values repeats a key. -/
def membersHaveDistinctKeys : List (String × Json) → Bool
  | [] => true
  | (_, v) :: rest => hasDistinctKeys v && membersHaveDistinctKeys rest

end

theorem hasDistinctKeys_object_iff {members : List (String × Json)} :
    hasDistinctKeys (.object members) = true ↔
      Distinct members ∧ ∀ m ∈ members, m.2.hasDistinctKeys = true := by
  have hall : membersHaveDistinctKeys members = true ↔
      ∀ m ∈ members, m.2.hasDistinctKeys = true := by
    induction members with
    | nil => simp [membersHaveDistinctKeys]
    | cons m members ih => simp [membersHaveDistinctKeys, ih]
  simp [hasDistinctKeys, hall]

end ApiEvolution.Json
