import ApiEvolution.Proofs.UsageTotals

/-!
# The values of a parameter

The values that a parameter has in the calls of its function are those that are passed and, in the
calls that pass none, the default. The values account for all calls (`Counts.AccountFor`), each
literal being counted as often as it is passed or left to the default.

* `UsageCounts.effectiveValues_accountFor`: this holds for all counts whose exact sum is a word, and
  then no other sum on the way exceeds one.
* `UsageCounts.effectiveValues_eq_error_iff`: for other counts there are no values.
-/

namespace ApiEvolution

open Json (Distinct)

namespace Counts

variable {c : Counts} {name : String} {n : Nat}

/-! ## Counting some more -/

/-- As long as the count of a thing stays a word, counting it some more puts the greater count where
the old one was. -/
theorem increase_eq_put (h : c.get name + n < 2 ^ 64) :
    c.increase name n = .ok (Json.put name (c.get name + n) c) := by
  induction c with
  | nil => simp [increase, Json.put, get]
  | cons e c ih =>
    rw [get_cons] at h ⊢
    by_cases hname : e.1 = name
    · rw [if_pos hname] at h ⊢
      rw [increase, if_pos hname, wordAdd_eq_ok h, Json.put, if_pos hname, hname]
      rfl
    · rw [if_neg hname] at h ⊢
      rw [increase, if_neg hname, ih h, Json.put, if_neg hname]
      rfl

theorem eq_overflow_of_increase {cause : Error} (h : c.increase name n = .error cause) :
    cause = .overflow := by
  induction c with
  | nil => cases h
  | cons e c ih =>
    rw [increase] at h
    split at h
    · rw [map_eq_error_iff, wordAdd] at h
      split at h <;> cases h
      rfl
    · exact ih (map_eq_error_iff.1 h)

theorem get_put (name : String) (n : Nat) (c : Counts) (other : String) :
    get (Json.put name n c) other = if name = other then n else c.get other := by
  induction c with
  | nil => simp [Json.put, get_cons]
  | cons e c ih =>
    by_cases hname : e.1 = name
    · rw [Json.put, if_pos hname, get_cons, get_cons, hname]
      split <;> rfl
    · rw [Json.put, if_neg hname, get_cons, get_cons, ih]
      by_cases hother : e.1 = other
      · rw [if_pos hother, if_neg fun heq => hname (hother.trans heq.symm), if_pos hother]
      · rw [if_neg hother, if_neg hother]

/-- A count that is replaced no longer counts. -/
theorem total_put (name : String) (n : Nat) (c : Counts) :
    total (Json.put name n c) + c.get name = c.total + n := by
  induction c with
  | nil => simp [Json.put, get]
  | cons e c ih =>
    rw [get_cons]
    by_cases hname : e.1 = name
    · rw [Json.put, if_pos hname, if_pos hname, total_cons, total_cons]
      omega
    · rw [Json.put, if_neg hname, if_neg hname, total_cons, total_cons]
      omega

/-! ## What does not occur -/

/-- The counts of the things that occur. -/
theorem total_filter_pos (c : Counts) : total (c.filter fun e => 0 < e.2) = c.total := by
  induction c with
  | nil => rfl
  | cons e c ih =>
    by_cases he : 0 < e.2
    · rw [List.filter_cons_of_pos (by simpa using he), total_cons, total_cons, ih]
    · rw [List.filter_cons_of_neg (by simpa using he), ih, total_cons]
      omega

/-- Without repetition, the things that occur are those with a count. -/
theorem mem_filter_pos_iff (h : Distinct c) :
    (name, n) ∈ c.filter (fun e => 0 < e.2) ↔ 0 < n ∧ n = c.get name := by
  simp only [List.mem_filter, decide_eq_true_eq]
  constructor
  · rintro ⟨hmem, hpos⟩
    exact ⟨hpos, (get_of_mem h hmem).symm⟩
  · rintro ⟨hpos, rfl⟩
    refine ⟨?_, hpos⟩
    by_contra hmem
    have hname : name ∉ c.map (·.1) := by
      intro hname
      obtain ⟨e, he, rfl⟩ := List.mem_map.1 hname
      rw [get_of_mem h he] at hmem
      exact hmem he
    rw [get_eq_zero hname] at hpos
    exact Nat.lt_irrefl 0 hpos

/-! ## Accounting for calls -/

/-- What the values of a parameter are in some calls of its function, given how often each literal
is passed. The calls that pass none have the default; there are no such calls if as many literals
are passed as there are calls, or more. -/
structure AccountFor (effective explicit : Counts) (default : Option String) (calls : Nat) :
    Prop where
  distinct : Distinct effective
  /-- A literal is among the values as often as it is passed, the default also when nothing is
  passed, and it is not among them if this is never. -/
  mem_iff : ∀ literal n, (literal, n) ∈ effective ↔ 0 < n ∧
    n = explicit.get literal + if default = some literal then calls - explicit.total else 0
  /-- With a default, each call has a value. -/
  total_eq : effective.total =
    if default.isSome then max calls explicit.total else explicit.total

/-- Leaving out what does not occur, counts still account for the calls. -/
theorem accountFor_filter_pos {all explicit : Counts} {default : Option String} {calls : Nat}
    (hdistinct : Distinct all)
    (hget : ∀ literal, all.get literal =
      explicit.get literal + if default = some literal then calls - explicit.total else 0)
    (htotal : all.total =
      if default.isSome then max calls explicit.total else explicit.total) :
    AccountFor (all.filter fun e => 0 < e.2) explicit default calls where
  distinct := List.Nodup.sublist (List.filter_sublist.map _) hdistinct
  mem_iff literal n := by rw [mem_filter_pos_iff hdistinct, hget]
  total_eq := by rw [total_filter_pos, htotal]

end Counts

namespace UsageCounts

variable {u : UsageCounts} {explicit : Counts} {calls : Nat}

/-- The calls that pass no value leave room for counting the default in them. -/
theorem get_add_omitted_lt (hcalls : calls < 2 ^ 64) (homitted : 0 < calls - explicit.total)
    (literal : String) : explicit.get literal + (calls - explicit.total) < 2 ^ 64 := by
  have hpassed := explicit.get_le_total literal
  omega

theorem effectiveCounts_eq_ok {default : Option String} {all : Counts}
    (htotal : explicit.total < 2 ^ 64)
    (hall : countOmitted default (calls - explicit.total) explicit = .ok all) :
    effectiveCounts explicit default calls = .ok (all.filter fun e => 0 < e.2) := by
  rw [effectiveCounts, Counts.sum_eq, if_pos htotal]
  exact bind_eq_ok_iff.2 ⟨_, rfl, bind_eq_ok_iff.2 ⟨all, hall, rfl⟩⟩

theorem effectiveCounts_accountFor (hdistinct : Distinct explicit)
    (htotal : explicit.total < 2 ^ 64) (default : Option String) (hcalls : calls < 2 ^ 64) :
    ∃ effective, effectiveCounts explicit default calls = .ok effective ∧
      effective.AccountFor explicit default calls := by
  cases default with
  | none =>
    refine ⟨_, effectiveCounts_eq_ok htotal rfl, ?_⟩
    exact Counts.accountFor_filter_pos hdistinct (fun literal => by simp) rfl
  | some literal =>
    by_cases homitted : 0 < calls - explicit.total
    · -- the default is counted in the calls that pass no value, beside where it is passed
      have hincrease := Counts.increase_eq_put (get_add_omitted_lt hcalls homitted literal)
      refine ⟨_, effectiveCounts_eq_ok htotal ((if_pos homitted).trans hincrease), ?_⟩
      apply Counts.accountFor_filter_pos hdistinct.put
      · intro other
        rw [Counts.get_put]
        by_cases hother : literal = other
        · simp [hother]
        · simp [hother]
      · have hput := Counts.total_put literal
          (explicit.get literal + (calls - explicit.total)) explicit
        show _ = max calls explicit.total
        omega
    · -- each call passes a value
      refine ⟨_, effectiveCounts_eq_ok htotal (if_neg homitted), ?_⟩
      apply Counts.accountFor_filter_pos hdistinct
      · intro other
        simp [Nat.eq_zero_of_not_pos homitted]
      · show explicit.total = max calls explicit.total
        omega

/-- Without a sum of the passed values there are no values. -/
theorem effectiveCounts_eq_error (htotal : 2 ^ 64 ≤ explicit.total) (default : Option String)
    (calls : Nat) : effectiveCounts explicit default calls = .error .overflow := by
  rw [effectiveCounts, Counts.sum_eq, if_neg (Nat.not_lt.2 htotal)]
  rfl

/-- There is no other reason for a failure. -/
theorem eq_overflow_of_effectiveValues {id : String} {default : Option String} {cause : Error}
    (h : u.effectiveValues id default calls = .error cause) : cause = .overflow := by
  rw [effectiveValues, effectiveCounts, bind_eq_error_iff] at h
  rcases h with hsum | ⟨passed, -, h⟩
  · rw [Counts.sum_eq] at hsum
    split at hsum <;> cases hsum
    rfl
  · rcases bind_eq_error_iff.1 h with hall | ⟨_, -, ⟨⟩⟩
    cases default with
    | none => cases hall
    | some literal =>
      rw [countOmitted] at hall
      split at hall
      · exact Counts.eq_overflow_of_increase hall
      · cases hall

/-- There are no values exactly if the sum of the passed ones is no word. -/
theorem effectiveValues_eq_error_iff (hu : u.IsTally) (id : String) (default : Option String)
    (hcalls : calls < 2 ^ 64) :
    u.effectiveValues id default calls = .error .overflow ↔ 2 ^ 64 ≤ (u.valuesOf id).total := by
  constructor
  · intro herror
    by_contra hfits
    obtain ⟨effective, hok, -⟩ := effectiveCounts_accountFor (hu.valuesOf id).distinct
      (Nat.lt_of_not_le hfits) default hcalls
    cases herror.symm.trans hok
  · exact fun hexceeds => effectiveCounts_eq_error hexceeds default calls

/-- Adding up the values of a parameter does not fail, and the values account for all calls: each
literal is counted as often as it is passed or left to the default. -/
theorem effectiveValues_accountFor (hu : u.IsTally) (id : String) (default : Option String)
    (hcalls : calls < 2 ^ 64) (htotal : (u.valuesOf id).total < 2 ^ 64) :
    ∃ effective, u.effectiveValues id default calls = .ok effective ∧
      effective.AccountFor (u.valuesOf id) default calls :=
  effectiveCounts_accountFor (hu.valuesOf id).distinct htotal default hcalls

/-- Counts near the greatest word, with a default that is listed although it is never passed. -/
def largeCounts : UsageCounts :=
  { parameters := [("p", 2 ^ 63)], values := [("p", [("1", 2 ^ 63), ("2", 0), ("3", 0)])] }

theorem effectiveValues_accountFor_largeCounts :
    largeCounts.IsTally ∧ 2 ^ 64 - 1 < 2 ^ 64 ∧ (largeCounts.valuesOf "p").total < 2 ^ 64 ∧
      ∃ effective, largeCounts.effectiveValues "p" (some "2") (2 ^ 64 - 1) = .ok effective ∧
        effective.AccountFor (largeCounts.valuesOf "p") (some "2") (2 ^ 64 - 1) ∧
        effective = [("1", 2 ^ 63), ("2", 2 ^ 63 - 1)] := by
  have htally : largeCounts.IsTally := by decide +kernel
  have hcalls : 2 ^ 64 - 1 < 2 ^ 64 := by decide
  have htotal : (largeCounts.valuesOf "p").total < 2 ^ 64 := by decide +kernel
  obtain ⟨effective, hvalues, haccount⟩ :=
    effectiveValues_accountFor htally "p" (some "2") hcalls htotal
  have hcomputed : largeCounts.effectiveValues "p" (some "2") (2 ^ 64 - 1) =
      .ok [("1", 2 ^ 63), ("2", 2 ^ 63 - 1)] := rfl
  exact ⟨htally, hcalls, htotal, effective, hvalues, haccount,
    Except.ok.inj (hvalues.symm.trans hcomputed)⟩

end UsageCounts

end ApiEvolution
