import Mathlib.Tactic.Common
import ApiEvolution.Proofs.JsonText
import ApiEvolution.Proofs.Members
import ApiEvolution.Proofs.PrintedNumbers

/-!
# Different values have different texts

The compact text of a value determines the value (`compact_inj`), for all values in which nothing is
unusable: doubles that differ in their last bit only are told apart, and so are an integer and the
double of the same number.

The argument is about a value at the front of a text (`IsDetermined`): it and what follows it are
determined, as long as what follows does not go on with a number (`Closes`). A number is all
characters of numbers at the front. A quoted text is what the reader of texts takes from the front.
Items and members are separated by commas and closed by a bracket, and no item or member begins with
the bracket (`listed_inj`).
-/

namespace ApiEvolution.Json

open Decimal (isNumeral)

/-! ## The front of a text -/

/-- What follows does not go on with the characters of a number. -/
def Closes (rest : List Char) : Prop :=
  ∀ c ∈ rest.head?, isNumeral c = false

theorem closes_cons {c : Char} (h : isNumeral c = false) (rest : List Char) :
    Closes (c :: rest) := by
  rintro _ ⟨⟩
  exact h

/-- Numbers at the front are determined. -/
theorem numeral_append_inj {cs ds rest rest' : List Char} (hcs : ∀ c ∈ cs, isNumeral c = true)
    (hds : ∀ c ∈ ds, isNumeral c = true) (hrest : Closes rest) (hrest' : Closes rest')
    (h : cs ++ rest = ds ++ rest') : cs = ds ∧ rest = rest' := by
  have hfront := congrArg (List.takeWhile isNumeral) h
  rw [takeWhile_append_of_head hrest, takeWhile_append_of_head hrest',
    List.takeWhile_eq_self_iff.2 hcs, List.takeWhile_eq_self_iff.2 hds] at hfront
  subst hfront
  exact ⟨rfl, List.append_cancel_left h⟩

/-- Quoted texts at the front are determined. -/
theorem quote_append_inj {s t : String} {rest rest' : List Char}
    (h : (quote s).toList ++ rest = (quote t).toList ++ rest') : s = t ∧ rest = rest' := by
  rw [toList_quote, toList_quote] at h
  have hbody : s.toList.flatMap escapeChar ++ '"' :: rest =
      t.toList.flatMap escapeChar ++ '"' :: rest' := by
    simpa using h
  have hread := congrArg (scanText [] true) hbody
  rw [scanText_quote, scanText_quote] at hread
  simpa using hread

/-! ## Lists in brackets -/

section Lists

variable {α : Type} (text : α → List Char)

/-- The texts of some items, separated by commas. -/
def listed : List α → List Char
  | [] => []
  | x :: rest => text x ++ rest.flatMap fun y => ',' :: text y

theorem listed_eq (xs : List α) : listed text xs = [','].intercalate (xs.map text) := by
  cases xs with
  | nil => rfl
  | cons x rest =>
    rw [listed]
    induction rest generalizing x with
    | nil => simp
    | cons y rest ih =>
      rw [List.flatMap_cons, List.cons_append, ih y]
      simp [List.intercalate_cons_cons]

variable {text} {P : α → Prop} {close : Char} {xs ys : List α} {rest rest' : List Char}

/-- An item at the front of a text is determined among the items with a property. -/
def IsDetermined (text : α → List Char) (P : α → Prop) (x : α) : Prop :=
  ∀ y rest rest', P y → Closes rest → Closes rest' → text x ++ rest = text y ++ rest' →
    x = y ∧ rest = rest'

theorem closes_flatMap (hclose : isNumeral close = false) (xs : List α) (rest : List Char) :
    Closes ((xs.flatMap fun x => ',' :: text x) ++ close :: rest) := by
  cases xs with
  | nil => exact closes_cons hclose rest
  | cons x xs => exact closes_cons (by decide) _

/-- The items after the first are determined up to the closing bracket. -/
theorem flatMap_comma_inj (hcomma : close ≠ ',') (hclose : isNumeral close = false)
    (hxs : ∀ x ∈ xs, IsDetermined text P x) (hys : ∀ y ∈ ys, P y)
    (h : (xs.flatMap fun x => ',' :: text x) ++ close :: rest =
      (ys.flatMap fun y => ',' :: text y) ++ close :: rest') : xs = ys ∧ rest = rest' := by
  induction xs generalizing ys with
  | nil =>
    cases ys with
    | nil => exact ⟨rfl, (List.cons.inj h).2⟩
    | cons y ys => exact absurd (List.cons.inj h).1 hcomma
  | cons x xs ih =>
    cases ys with
    | nil => exact absurd (List.cons.inj h).1.symm hcomma
    | cons y ys =>
      rw [List.forall_mem_cons] at hxs hys
      simp only [List.flatMap_cons, List.cons_append, List.append_assoc, List.cons.injEq,
        true_and] at h
      obtain ⟨rfl, hrest⟩ := hxs.1 y _ _ hys.1 (closes_flatMap hclose xs rest)
        (closes_flatMap hclose ys rest') h
      obtain ⟨rfl, rfl⟩ := ih hxs.2 hys.2 hrest
      exact ⟨rfl, rfl⟩

/-- The items are determined up to the closing bracket, with which none of them begins. -/
theorem listed_inj (hcomma : close ≠ ',') (hclose : isNumeral close = false)
    (hopen : ∀ x more last, text x ++ more ≠ close :: last)
    (hxs : ∀ x ∈ xs, IsDetermined text P x) (hys : ∀ y ∈ ys, P y)
    (h : listed text xs ++ close :: rest = listed text ys ++ close :: rest') :
    xs = ys ∧ rest = rest' := by
  cases xs with
  | nil =>
    cases ys with
    | nil => exact ⟨rfl, (List.cons.inj h).2⟩
    | cons y ys =>
      rw [listed, listed, List.nil_append, List.append_assoc] at h
      exact absurd h.symm (hopen y _ _)
  | cons x xs =>
    cases ys with
    | nil =>
      rw [listed, listed, List.nil_append, List.append_assoc] at h
      exact absurd h (hopen x _ _)
    | cons y ys =>
      rw [List.forall_mem_cons] at hxs hys
      rw [listed, listed, List.append_assoc, List.append_assoc] at h
      obtain ⟨rfl, hrest⟩ := hxs.1 y _ _ hys.1 (closes_flatMap hclose xs rest)
        (closes_flatMap hclose ys rest') h
      obtain ⟨rfl, rfl⟩ := flatMap_comma_inj hcomma hclose hxs.2 hys.2 hrest
      exact ⟨rfl, rfl⟩

end Lists

/-! ## Values -/

/-- The text of a value as characters. -/
def characters (v : Json) : List Char :=
  v.compact.toList

/-- The text of a member as characters. -/
def memberCharacters (m : String × Json) : List Char :=
  (quote m.1).toList ++ ':' :: m.2.characters

theorem characters_array (items : List Json) :
    (array items).characters = '[' :: (listed characters items ++ [']']) := by
  have hitems : compactItems items = items.map compact := by
    induction items with
    | nil => rfl
    | cons v rest ih => rw [compactItems, ih, List.map_cons]
  rw [characters, compact, hitems, String.toList_append, String.toList_append,
    String.toList_intercalate, List.map_map, listed_eq]
  rfl

theorem characters_object (members : List (String × Json)) :
    (object members).characters = '{' :: (listed memberCharacters members ++ ['}']) := by
  have hmembers : (compactMembers members).map String.toList = members.map memberCharacters := by
    induction members with
    | nil => rfl
    | cons m rest ih =>
      rw [compactMembers, List.map_cons, ih, List.map_cons]
      simp [memberCharacters, characters]
  rw [characters, compact, String.toList_append, String.toList_append, String.toList_intercalate,
    hmembers, listed_eq]
  rfl

/-- The character that shows the variant of a value. The two truth values have one, and so has all
that is written of the characters of numbers. -/
def mark : Json → Char
  | .null => 'n'
  | .bool _ => 't'
  | .integer _ => '0'
  | .real _ => '0'
  | .text _ => '"'
  | .array _ => '['
  | .object _ => '{'
  | .unusable => 'n'

/-- The mark that a first character gives. -/
def markOf (c : Char) : Char :=
  if isNumeral c then '0' else if c = 'f' then 't' else c

theorem exists_markOf_numeral {cs : List Char} (hne : cs ≠ [])
    (hcs : ∀ c ∈ cs, isNumeral c = true) :
    ∃ c more, cs = c :: more ∧ markOf c = '0' := by
  obtain ⟨c, more, rfl⟩ := List.exists_cons_of_ne_nil hne
  exact ⟨c, more, rfl, if_pos (hcs c List.mem_cons_self)⟩

/-- The first character of a text gives the mark of the value. -/
theorem exists_markOf_characters (v : Json) :
    ∃ c more, v.characters = c :: more ∧ markOf c = v.mark := by
  cases v with
  | null | unusable => exact ⟨'n', _, rfl, rfl⟩
  | bool b => cases b <;> exact ⟨_, _, rfl, rfl⟩
  | integer i =>
    refine exists_markOf_numeral ?_ fun c hc => Decimal.isNumeral_integer hc
    cases i with
    | ofNat n => simp [characters, compact, Decimal.integer, Decimal.natural, Nat.toDigits_ne_nil]
    | negSucc n => simp [characters, compact, Decimal.integer]
  | real x =>
    refine exists_markOf_numeral ?_ fun c hc => Decimal.isNumeral_finite hc
    obtain ⟨c, hc, -⟩ := Decimal.exists_mark_number x
    exact List.ne_nil_of_mem hc
  | text s => exact ⟨'"', _, toList_quote s, rfl⟩
  | array items => exact ⟨'[', _, characters_array items, rfl⟩
  | object members => exact ⟨'{', _, characters_object members, rfl⟩

theorem mark_eq_of_characters {v w : Json} {rest rest' : List Char}
    (h : v.characters ++ rest = w.characters ++ rest') : v.mark = w.mark := by
  obtain ⟨c, more, hv, hc⟩ := exists_markOf_characters v
  obtain ⟨d, more', hw, hd⟩ := exists_markOf_characters w
  rw [hv, hw, List.cons_append, List.cons_append] at h
  rw [← hc, ← hd, (List.cons.inj h).1]

theorem isDetermined_integer (i : Int) :
    IsDetermined characters (fun w => w.isUsable = true) (.integer i) := by
  intro w rest rest' _ hrest hrest' h
  have hmark := mark_eq_of_characters h
  have hi : ∀ c ∈ (Decimal.integer i).toList, isNumeral c = true :=
    fun c => Decimal.isNumeral_integer
  cases w with
  | integer j =>
    obtain ⟨htext, hrest⟩ :=
      numeral_append_inj hi (fun c => Decimal.isNumeral_integer) hrest hrest' h
    exact ⟨congrArg integer (Decimal.integer_inj (String.toList_inj.1 htext)), hrest⟩
  | real x =>
    obtain ⟨htext, -⟩ := numeral_append_inj hi (fun c => Decimal.isNumeral_finite) hrest hrest' h
    exact absurd (String.toList_inj.1 htext) (Decimal.integer_ne_number i x)
  | _ => simp [mark] at hmark

theorem isDetermined_real (x : Float) :
    IsDetermined characters (fun w => w.isUsable = true) (.real x) := by
  intro w rest rest' _ hrest hrest' h
  have hmark := mark_eq_of_characters h
  have hx : ∀ c ∈ (number x).toList, isNumeral c = true := fun c => Decimal.isNumeral_finite
  cases w with
  | integer i =>
    obtain ⟨htext, -⟩ := numeral_append_inj hx (fun c => Decimal.isNumeral_integer) hrest hrest' h
    exact absurd (String.toList_inj.1 htext).symm (Decimal.integer_ne_number i x)
  | real y =>
    obtain ⟨htext, hrest⟩ :=
      numeral_append_inj hx (fun c => Decimal.isNumeral_finite) hrest hrest' h
    exact ⟨congrArg real (Decimal.number_inj (String.toList_inj.1 htext)), hrest⟩
  | _ => simp [mark] at hmark

/-- No value begins with the bracket that closes an array. -/
theorem characters_ne_bracket (v : Json) (more last : List Char) :
    v.characters ++ more ≠ ']' :: last := by
  intro h
  obtain ⟨c, cs, hv, hc⟩ := exists_markOf_characters v
  rw [hv] at h
  have hbracket : markOf ']' = ']' := by decide
  rw [(List.cons.inj h).1, hbracket] at hc
  cases v <;> simp [mark] at hc

theorem memberCharacters_ne_bracket (m : String × Json) (more last : List Char) :
    memberCharacters m ++ more ≠ '}' :: last := by
  intro h
  rw [memberCharacters, toList_quote] at h
  exact absurd (List.cons.inj h).1 (by decide)

theorem isDetermined_member {m : String × Json}
    (hm : IsDetermined characters (fun w => w.isUsable = true) m.2) :
    IsDetermined memberCharacters (fun n => n.2.isUsable = true) m := by
  intro n rest rest' hn hrest hrest' h
  rw [memberCharacters, memberCharacters, List.append_assoc, List.append_assoc] at h
  obtain ⟨hkey, hvalue⟩ := quote_append_inj h
  obtain ⟨hvalue, hrest⟩ := hm n.2 rest rest' hn hrest hrest' (List.cons.inj hvalue).2
  exact ⟨Prod.ext hkey hvalue, hrest⟩

theorem isDetermined_null : IsDetermined characters (fun w => w.isUsable = true) .null := by
  intro w rest rest' hw _ _ h
  have hmark := mark_eq_of_characters h
  cases w with
  | null => exact ⟨rfl, List.append_cancel_left h⟩
  | unusable => cases hw
  | _ => simp [mark] at hmark

theorem isDetermined_bool (b : Bool) :
    IsDetermined characters (fun w => w.isUsable = true) (.bool b) := by
  intro w rest rest' _ _ _ h
  have hmark := mark_eq_of_characters h
  cases w with
  | bool c =>
    obtain rfl : b = c := by
      cases b <;> cases c <;> simp [characters, compact] at h ⊢
    exact ⟨rfl, List.append_cancel_left h⟩
  | _ => simp [mark] at hmark

theorem isDetermined_text (s : String) :
    IsDetermined characters (fun w => w.isUsable = true) (.text s) := by
  intro w rest rest' _ _ _ h
  have hmark := mark_eq_of_characters h
  cases w with
  | text t =>
    obtain ⟨rfl, hrest⟩ := quote_append_inj h
    exact ⟨rfl, hrest⟩
  | _ => simp [mark] at hmark

theorem isDetermined_array {items : List Json}
    (hitems : ∀ v ∈ items, IsDetermined characters (fun w => w.isUsable = true) v) :
    IsDetermined characters (fun w => w.isUsable = true) (.array items) := by
  intro w rest rest' hw _ _ h
  have hmark := mark_eq_of_characters h
  cases w with
  | array items' =>
    rw [characters_array, characters_array] at h
    have hlists : listed characters items ++ ']' :: rest =
        listed characters items' ++ ']' :: rest' := by simpa using h
    obtain ⟨rfl, hrest⟩ := listed_inj (by decide) (by decide) characters_ne_bracket hitems
      (areUsable_iff.1 hw) hlists
    exact ⟨rfl, hrest⟩
  | _ => simp [mark] at hmark

theorem isDetermined_object {members : List (String × Json)}
    (hmembers : ∀ m ∈ members, IsDetermined characters (fun w => w.isUsable = true) m.2) :
    IsDetermined characters (fun w => w.isUsable = true) (.object members) := by
  intro w rest rest' hw _ _ h
  have hmark := mark_eq_of_characters h
  cases w with
  | object members' =>
    rw [characters_object, characters_object] at h
    have hlists : listed memberCharacters members ++ '}' :: rest =
        listed memberCharacters members' ++ '}' :: rest' := by simpa using h
    obtain ⟨rfl, hrest⟩ := listed_inj (by decide) (by decide) memberCharacters_ne_bracket
      (fun m hm => isDetermined_member (hmembers m hm)) (membersAreUsable_iff.1 hw) hlists
    exact ⟨rfl, hrest⟩
  | _ => simp [mark] at hmark

/-- A usable value at the front of a text is determined, and so is what follows it. -/
theorem isDetermined_characters {v : Json} (hv : v.isUsable = true) :
    IsDetermined characters (fun w => w.isUsable = true) v := by
  induction v using inductionOn with
  | null => exact isDetermined_null
  | bool b => exact isDetermined_bool b
  | integer i => exact isDetermined_integer i
  | real x => exact isDetermined_real x
  | text s => exact isDetermined_text s
  | array items ih =>
    have hitems := areUsable_iff.1 hv
    exact isDetermined_array fun v hmem => ih v hmem (hitems v hmem)
  | object members ih =>
    have hmembers := membersAreUsable_iff.1 hv
    exact isDetermined_object fun m hmem => ih m hmem (hmembers m hmem)
  | unusable => cases hv

/-- Different usable values have different texts. -/
theorem compact_inj {v w : Json} (hv : v.isUsable = true) (hw : w.isUsable = true)
    (h : v.compact = w.compact) : v = w := by
  have hnil : Closes [] := nofun
  have hcharacters : v.characters ++ [] = w.characters ++ [] := by
    rw [characters, characters, h]
  exact (isDetermined_characters hv w [] [] hw hnil hnil hcharacters).1

end ApiEvolution.Json
