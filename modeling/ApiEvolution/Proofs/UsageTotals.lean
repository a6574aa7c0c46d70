import ApiEvolution.Proofs.Acceptance
import ApiEvolution.Proofs.LedgerDocument
import ApiEvolution.Usage.Basic

/-!
# Totals of usage counts

Counts are words, and adding them up fails where the sum is no word. `Counts.total` is the exact
sum, which is what adding up yields as long as it is a word (`Counts.sum_eq`).

* `UsageCounts.isTally_of_read`: the counts of a document are words, and none is given twice.
* `UsageCounts.checkValues_eq`: how the values of a parameter are compared with its uses. A sum that
  is no word is not compared, as adding it up fails.
* `UsageCounts.ofDocument_eq_ok_iff`: so a document of the right shape is accepted exactly if for
  each parameter the exact sum of the values is no more than the uses
  (`UsageCounts.read_total_le`).
-/

namespace ApiEvolution

open Json (Distinct)

namespace Counts

variable {c : Counts} {e : String × Nat} {name : String}

/-! ## Exact sums -/

/-- The exact sum of all counts. -/
def total (c : Counts) : Nat :=
  c.foldr (fun e n => e.2 + n) 0

@[simp] theorem total_nil : total [] = 0 := rfl

@[simp] theorem total_cons (e : String × Nat) (c : Counts) : total (e :: c) = e.2 + c.total := rfl

theorem get_cons (e : String × Nat) (c : Counts) (name : String) :
    get (e :: c) name = if e.1 = name then e.2 else c.get name := by
  by_cases h : e.1 = name <;> simp [get, h]

theorem get_le_total (c : Counts) (name : String) : c.get name ≤ c.total := by
  induction c with
  | nil => exact Nat.le_refl 0
  | cons e c ih =>
    rw [get_cons, total_cons]
    split <;> omega

theorem get_eq_zero (h : name ∉ c.map (·.1)) : c.get name = 0 := by
  induction c with
  | nil => rfl
  | cons e c ih =>
    simp only [List.map_cons, List.mem_cons, not_or] at h
    rw [get_cons, if_neg (Ne.symm h.1), ih h.2]

/-- Without repetition, what is counted is found. -/
theorem get_of_mem (h : Distinct c) (he : e ∈ c) : c.get e.1 = e.2 := by
  show ((c.find? fun m => m.1 = e.1).map (·.2)).getD 0 = e.2
  rw [h.find?_eq_some_iff.2 he]
  rfl

/-! ## Sums of words -/

theorem wordAdd_eq_ok {a b : Nat} (h : a + b < 2 ^ 64) : wordAdd a b = .ok (a + b) :=
  if_pos h

theorem wordAdd_eq_error {a b : Nat} (h : 2 ^ 64 ≤ a + b) : wordAdd a b = .error .overflow :=
  if_neg (Nat.not_lt.2 h)

theorem foldlM_wordAdd (c : Counts) {n : Nat} (hn : n < 2 ^ 64) :
    c.foldlM (fun n e => wordAdd n e.2) n =
      if n + c.total < 2 ^ 64 then .ok (n + c.total) else .error .overflow := by
  induction c generalizing n with
  | nil => exact (if_pos hn).symm
  | cons e c ih =>
    rw [List.foldlM_cons, total_cons, ← Nat.add_assoc]
    by_cases hword : n + e.2 < 2 ^ 64
    · rw [wordAdd_eq_ok hword]
      exact ih hword
    · rw [wordAdd_eq_error (Nat.le_of_not_lt hword), if_neg (by omega)]
      rfl

/-- Adding up yields the exact sum, and fails if this is no word. -/
theorem sum_eq (c : Counts) :
    c.sum = if c.total < 2 ^ 64 then .ok c.total else .error .overflow := by
  rw [sum, foldlM_wordAdd c (by decide), Nat.zero_add]

/-! ## Counts of a document -/

/-- Counts as they are kept: none is given twice, and each is a word. -/
structure IsTally (c : Counts) : Prop where
  distinct : Distinct c
  isWord : ∀ e ∈ c, e.2 < 2 ^ 64

instance (c : Counts) : Decidable c.IsTally :=
  decidable_of_iff (Distinct c ∧ ∀ e ∈ c, e.2 < 2 ^ 64) ⟨fun h => ⟨h.1, h.2⟩, fun h => ⟨h.1, h.2⟩⟩

theorem isTally_nil : IsTally [] :=
  ⟨List.nodup_nil, by simp⟩

theorem IsTally.get_lt (h : c.IsTally) (name : String) : c.get name < 2 ^ 64 := by
  by_cases hname : name ∈ c.map (·.1)
  · obtain ⟨e, he, rfl⟩ := List.mem_map.1 hname
    rw [get_of_mem h.distinct he]
    exact h.isWord e he
  · rw [get_eq_zero hname]
    decide

end Counts

namespace Json

theorem asCount_lt {v : Json} {n : Nat} (h : asCount v = .ok n) : n < 2 ^ 64 := by
  cases v with
  | integer i =>
    rw [asCount] at h
    split at h
    · next hrange =>
      cases h
      exact (Int.toNat_lt hrange.1).2 hrange.2
    · cases h
  | _ => simp [asCount] at h

/-- A map that is read repeats no key, and each value is read from one that the document has. -/
theorem of_asMap {α : Type} {read : Json → Reading α} {v : Json} {entries : List (String × α)}
    (h : asMap read v = .ok entries) :
    Distinct entries ∧ ∀ e ∈ entries, ∃ w, read w = .ok e.2 := by
  cases v with
  | object members =>
    obtain ⟨pairs, hpairs, hentries⟩ := bind_eq_ok_iff.1 h
    cases hentries
    refine ⟨(distinct_latest pairs).1, fun e he => ?_⟩
    have hread : ∀ e ∈ pairs, ∃ w, read w = .ok e.2 := by
      have hforall := mapM_eq_ok_iff.1 hpairs
      clear h hpairs he
      induction hforall with
      | nil => simp
      | @cons m e' _ _ hm _ ih =>
        refine List.forall_mem_cons.2 ⟨⟨m.2, ?_⟩, ih⟩
        cases hvalue : read m.2 with
        | error _ =>
          rw [hvalue] at hm
          cases hm
        | ok a =>
          rw [hvalue] at hm
          cases hm
          rfl
    exact hread e ((distinct_latest pairs).2 e he)
  | _ => simp [asMap] at h

/-- The same of a map that may be absent. -/
theorem of_getD_asMap {α : Type} {read : Json → Reading α} {r : Record} {name : String}
    {entries : List (String × α)} (h : r.getD name (asMap read) [] = .ok entries) :
    Distinct entries ∧ ∀ e ∈ entries, ∃ w, read w = .ok e.2 := by
  rcases Record.getD_eq_ok_iff.1 h with ⟨-, rfl⟩ | ⟨v, -, hv⟩
  · exact ⟨List.nodup_nil, by simp⟩
  · exact of_asMap hv

end Json

theorem Counts.isTally_of_reads {c : Counts}
    (h : Distinct c ∧ ∀ e ∈ c, ∃ w, Json.asCount w = .ok e.2) : c.IsTally :=
  ⟨h.1, fun e he => (h.2 e he).elim fun _ => Json.asCount_lt⟩

namespace UsageCounts

variable {u : UsageCounts}

/-- Usage counts as they are kept: nothing is counted twice, and all counts are words. -/
structure IsTally (u : UsageCounts) : Prop where
  classes : u.classes.IsTally
  functions : u.functions.IsTally
  parameters : u.parameters.IsTally
  distinct : Distinct u.values
  values : ∀ e ∈ u.values, e.2.IsTally

instance (u : UsageCounts) : Decidable u.IsTally :=
  decidable_of_iff (u.classes.IsTally ∧ u.functions.IsTally ∧ u.parameters.IsTally ∧
    Distinct u.values ∧ ∀ e ∈ u.values, Counts.IsTally e.2)
    ⟨fun h => ⟨h.1, h.2.1, h.2.2.1, h.2.2.2.1, h.2.2.2.2⟩, fun h => ⟨h.1, h.2, h.3, h.4, h.5⟩⟩

theorem IsTally.valuesOf (h : u.IsTally) (parameter : String) :
    (u.valuesOf parameter).IsTally := by
  rw [UsageCounts.valuesOf]
  cases hfound : u.values.find? fun e => e.1 = parameter with
  | none => exact Counts.isTally_nil
  | some e => exact h.values e (List.mem_of_find?_eq_some hfound)

theorem isTally_of_ofJson {v : Json} (h : ofJson v = .ok u) : u.IsTally := by
  obtain ⟨r, hr⟩ := Ledger.exists_record_of_asRecord h
  simp only [bind_eq_ok_iff] at hr
  obtain ⟨classes, hclasses, functions, hfunctions, parameters, hparameters, values, hvalues, hu⟩ :=
    hr
  cases hu
  obtain ⟨hdistinct, hread⟩ := Json.of_getD_asMap hvalues
  exact {
    classes := Counts.isTally_of_reads (Json.of_getD_asMap hclasses)
    functions := Counts.isTally_of_reads (Json.of_getD_asMap hfunctions)
    parameters := Counts.isTally_of_reads (Json.of_getD_asMap hparameters)
    distinct := hdistinct
    values := fun e he => (hread e he).elim fun _ hw =>
      Counts.isTally_of_reads (Json.of_asMap hw) }

/-! ## Accepted documents -/

/-- Values that are no more than the uses are accepted. More values are reported, unless their sum
is no word. -/
theorem checkValues_eq (u : UsageCounts) (parameter : String) (values : Counts) :
    u.checkValues parameter values =
      if values.total < 2 ^ 64 then
        if u.parameters.get parameter < values.total then
          .error (.invalidDocument
            (.excessValues parameter values.total (u.parameters.get parameter)))
        else .ok ()
      else .error .overflow := by
  rw [checkValues, Counts.sum_eq]
  by_cases hword : values.total < 2 ^ 64
  · rw [if_pos hword, if_pos hword]
    rfl
  · rw [if_neg hword, if_neg hword]
    rfl

example : checkValues {} "p" [("a", 2 ^ 63), ("b", 2 ^ 63)] = .error .overflow := rfl

theorem checkValues_eq_ok_iff {parameter : String} {values : Counts}
    (hu : u.parameters.IsTally) :
    u.checkValues parameter values = .ok () ↔ values.total ≤ u.parameters.get parameter := by
  have huses := hu.get_lt parameter
  rw [checkValues_eq]
  split
  · split <;> simp <;> omega
  · simp
    omega

/-- A document is accepted if for each parameter the values are no more than the uses. -/
theorem ofDocument_eq_ok_iff {v : Json} :
    ofDocument v = .ok u ↔
      ofJson v = .ok u ∧ ∀ e ∈ u.values, e.2.total ≤ u.parameters.get e.1 := by
  simp only [ofDocument, bind_eq_ok_iff, Outcome.ofReading_eq_ok_iff]
  constructor
  · rintro ⟨u', hu', ⟨⟩, hcheck, hok⟩
    cases hok
    refine ⟨hu', fun e he => ?_⟩
    exact (checkValues_eq_ok_iff (isTally_of_ofJson hu').parameters).1
      (forM_eq_ok_iff.1 hcheck e he)
  · rintro ⟨hu, hbound⟩
    refine ⟨u, hu, (), forM_eq_ok_iff.2 fun e he => ?_, rfl⟩
    exact (checkValues_eq_ok_iff (isTally_of_ofJson hu).parameters).2 (hbound e he)

theorem read_eq_ok_iff {text : String} :
    read text = .ok u ↔ ∃ v, Json.read? text = some v ∧ ofDocument v = .ok u := by
  rw [read]
  cases Json.read? text <;> simp

theorem isTally_of_read {text : String} (h : read text = .ok u) : u.IsTally := by
  obtain ⟨v, -, hv⟩ := read_eq_ok_iff.1 h
  exact isTally_of_ofJson (ofDocument_eq_ok_iff.1 hv).1

/-- A printed document is read again. -/
theorem exists_read_pretty {v : Json} (hv : v.isFaithful = true) {P : UsageCounts → Bool}
    (h : (ofDocument v).toOption.any P = true) : ∃ u, read v.pretty = .ok u ∧ P u = true := by
  obtain ⟨u, hu, hP⟩ := exists_eq_ok_of_any h
  exact ⟨u, read_eq_ok_iff.2 ⟨v, Json.read?_pretty hv, hu⟩, hP⟩

/-- If the values of each parameter that has any are no more than its uses, so are those of every
parameter. -/
theorem total_valuesOf_le (h : ∀ e ∈ u.values, e.2.total ≤ u.parameters.get e.1)
    (parameter : String) : (u.valuesOf parameter).total ≤ u.parameters.get parameter := by
  rw [valuesOf]
  cases hfound : u.values.find? fun e => e.1 = parameter with
  | none => exact Nat.zero_le _
  | some e =>
    have hname : e.1 = parameter := by simpa using List.find?_some hfound
    exact hname ▸ h e (List.mem_of_find?_eq_some hfound)

theorem total_lt_of_read {text : String} (h : read text = .ok u) (parameter : String) :
    (u.valuesOf parameter).total < 2 ^ 64 := by
  obtain ⟨v, -, hv⟩ := read_eq_ok_iff.1 h
  have hbound := total_valuesOf_le (ofDocument_eq_ok_iff.1 hv).2 parameter
  exact hbound.trans_lt ((isTally_of_read h).parameters.get_lt parameter)

/-- In an accepted document, the values that are counted for a parameter are no more than its uses.
-/
theorem read_total_le {text : String} (h : read text = .ok u) (parameter : String) :
    (u.valuesOf parameter).total ≤ u.parameters.get parameter := by
  obtain ⟨v, -, hv⟩ := read_eq_ok_iff.1 h
  exact total_valuesOf_le (ofDocument_eq_ok_iff.1 hv).2 parameter

/-- A document that counts as many values of a parameter as a word holds. -/
def countedDocument : Json :=
  .object [("parameter_usages", .object [("p", .integer 18446744073709551615)]),
    ("value_usages", .object [("p", .object
      [("1", .integer 9223372036854775808), ("2", .integer 9223372036854775807)])])]

theorem read_total_le_countedDocument :
    ∃ u, read countedDocument.pretty = .ok u ∧ (u.valuesOf "p").total = 2 ^ 64 - 1 ∧
      (u.valuesOf "p").total ≤ u.parameters.get "p" := by
  have hreads : (ofDocument countedDocument).toOption.any (fun u =>
      (u.valuesOf "p").total = 2 ^ 64 - 1) = true := by
    decide +kernel
  obtain ⟨u, hu, htotal⟩ := exists_read_pretty (by decide) hreads
  exact ⟨u, hu, of_decide_eq_true htotal, read_total_le hu "p"⟩

end UsageCounts

end ApiEvolution
