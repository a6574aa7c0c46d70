import ApiEvolution.Proofs.JsonNumbers

/-!
# Printed values read back

The pretty form of a value is read as this value, except that a number which is no integer becomes
what the reader makes of its digits (`read?_pretty_reread`). All that is asked of the value is that
nothing in it is unusable and its integers are those of 64 bits. A value whose numbers are given
back by their digits is faithful, and it is read as itself (`read?_pretty`).

A value is read from the front of a text, so what is proved of texts and values is that whatever
follows is left over.
-/

namespace ApiEvolution.Json

/-! ## Texts -/

theorem hexValue?_digitChar {d : Nat} (h : d < 16) : hexValue? d.digitChar = some d := by
  have hall : ∀ d < 16, hexValue? d.digitChar = some d := by decide
  exact hall d h

theorem unit?_of_lt {n : Nat} (h : n < 32) :
    unit? '0' '0' (n / 16).digitChar (n % 16).digitChar = some n := by
  have hzero : hexValue? '0' = some 0 := by decide
  simp only [unit?, hzero, hexValue?_digitChar (show n / 16 < 16 by omega),
    hexValue?_digitChar (show n % 16 < 16 by omega), Option.bind_eq_bind, Option.bind_some]
  congr 1
  omega

section Characters

variable (done : List Char) (usable : Bool) {c : Char} (rest : List Char)

theorem scanText_plain (hquote : c ≠ '"') (hslash : c ≠ '\\') (hlow : 32 ≤ c.toNat) :
    scanText done usable (c :: rest) = scanText (c :: done) usable rest := by
  rw [scanText.eq_def]
  split <;> grind

theorem scanText_short {mark : Char} (h : shortEscape? mark = some c) :
    scanText done usable ('\\' :: mark :: rest) = scanText (c :: done) usable rest := by
  have hmark : mark ≠ 'u' := by
    rintro rfl
    cases h
  rw [scanText.eq_def]
  split <;> grind

theorem scanText_unit (h : c.toNat < 32) :
    scanText done usable ('\\' :: 'u' :: '0' :: '0' :: (c.toNat / 16).digitChar ::
      (c.toNat % 16).digitChar :: rest) = scanText (c :: done) usable rest := by
  have hhigh : ¬ (0xD800 ≤ c.toNat ∧ c.toNat < 0xDC00) := by omega
  have hsecond : ¬ (0xDC00 ≤ c.toNat ∧ c.toNat < 0xE000) := by omega
  rw [scanText, unit?_of_lt h]
  simp only [if_neg hhigh, if_neg hsecond, Char.ofNat_toNat]

/-- A written character is read as this character. -/
theorem scanText_escapeChar (c : Char) :
    scanText done usable (escapeChar c ++ rest) = scanText (c :: done) usable rest := by
  have hcode {n : Nat} (h : c.toNat = n) : Char.ofNat n = c := by rw [← h, Char.ofNat_toNat]
  unfold escapeChar
  split
  · next h =>
    refine scanText_short done usable rest ?_
    rcases (by simpa using h : c = '"' ∨ c = '\\') with rfl | rfl <;> rfl
  split
  · next h => exact scanText_short done usable rest (by rw [h]; rfl)
  split
  · next h => exact scanText_short done usable rest (by rw [h]; rfl)
  split
  · next h => exact scanText_short done usable rest (by rw [h]; rfl)
  split
  · next h => exact scanText_short done usable rest (by rw [← hcode h]; rfl)
  split
  · next h => exact scanText_short done usable rest (by rw [← hcode h]; rfl)
  split
  · next h => exact scanText_unit done usable rest h
  · next hmarks _ _ _ _ _ hlow =>
    have hne : c ≠ '"' ∧ c ≠ '\\' := by simpa using hmarks
    exact scanText_plain done usable rest hne.1 hne.2 (Nat.not_lt.1 hlow)

end Characters

theorem scanText_flatMap (done cs rest : List Char) :
    scanText done true (cs.flatMap escapeChar ++ '"' :: rest) =
      some (some (String.ofList (done.reverse ++ cs)), rest) := by
  induction cs generalizing done with
  | nil => simp [scanText]
  | cons c cs ih =>
    rw [List.flatMap_cons, List.append_assoc, scanText_escapeChar, ih]
    simp

theorem toList_quote (s : String) :
    (quote s).toList = '"' :: (s.toList.flatMap escapeChar ++ ['"']) := by
  rw [quote, String.toList_ofList, List.cons_append]

/-- A quoted text is read as this text. -/
theorem scanText_quote (s : String) (rest : List Char) :
    scanText [] true (s.toList.flatMap escapeChar ++ '"' :: rest) = some (some s, rest) := by
  rw [scanText_flatMap]
  simp

/-! ## Values -/

/-- Induction over a value: an array by its items, an object by the values of its members. -/
@[elab_as_elim]
theorem inductionOn {P : Json → Prop} (v : Json) (null : P .null) (bool : ∀ b, P (.bool b))
    (integer : ∀ i, P (.integer i)) (real : ∀ x, P (.real x)) (text : ∀ s, P (.text s))
    (array : ∀ items, (∀ v ∈ items, P v) → P (.array items))
    (object : ∀ members, (∀ m ∈ members, P m.2) → P (.object members))
    (unusable : P .unusable) : P v := by
  refine @Json.rec P (fun items => ∀ v ∈ items, P v) (fun members => ∀ m ∈ members, P m.2)
    (fun m => P m.2) null bool integer real text array object unusable ?_ ?_ ?_ ?_ ?_ v
  · exact fun v hv => absurd hv List.not_mem_nil
  · exact fun v items hv hitems => List.forall_mem_cons.2 ⟨hv, hitems⟩
  · exact fun m hm => absurd hm List.not_mem_nil
  · exact fun m members hm hmembers => List.forall_mem_cons.2 ⟨hm, hmembers⟩
  · exact fun _ _ hv => hv

mutual

/-- Whether a value can be printed and read back: nothing in it is unusable, and its numbers are
read from their digits. -/
def isFaithful : Json → Bool
  | .integer i => FitsWord i
  | .real x => readsBack x
  | .array items => areFaithful items
  | .object members => membersAreFaithful members
  | .unusable => false
  | _ => true

/-- Whether each item is faithful. -/
def areFaithful : List Json → Bool
  | [] => true
  | v :: rest => isFaithful v && areFaithful rest

/-- Whether each member's value is faithful. -/
def membersAreFaithful : List (String × Json) → Bool
  | [] => true
  | (_, v) :: rest => isFaithful v && membersAreFaithful rest

end

mutual

/-- Whether a value can be printed: nothing in it is unusable, and its integers are those of 64
bits. -/
def isPrintable : Json → Bool
  | .integer i => FitsWord i
  | .array items => arePrintable items
  | .object members => membersArePrintable members
  | .unusable => false
  | _ => true

/-- Whether each item can be printed. -/
def arePrintable : List Json → Bool
  | [] => true
  | v :: rest => isPrintable v && arePrintable rest

/-- Whether each member's value can be printed. -/
def membersArePrintable : List (String × Json) → Bool
  | [] => true
  | (_, v) :: rest => isPrintable v && membersArePrintable rest

end

mutual

/-- The value as which a printed value is read: the same, except that the numbers that are no
integers are what the reader makes of their digits. -/
def reread : Json → Json
  | .real x => rereadReal x
  | .array items => .array (rereadItems items)
  | .object members => .object (rereadMembers members)
  | v => v

/-- `reread` on each item. -/
def rereadItems : List Json → List Json
  | [] => []
  | v :: rest => reread v :: rereadItems rest

/-- `reread` on the value of each member. -/
def rereadMembers : List (String × Json) → List (String × Json)
  | [] => []
  | (k, v) :: rest => (k, reread v) :: rereadMembers rest

end

theorem areFaithful_iff {items : List Json} :
    areFaithful items = true ↔ ∀ v ∈ items, v.isFaithful = true := by
  induction items with
  | nil => simp [areFaithful]
  | cons v items ih => simp [areFaithful, ih]

theorem membersAreFaithful_iff {members : List (String × Json)} :
    membersAreFaithful members = true ↔ ∀ m ∈ members, m.2.isFaithful = true := by
  induction members with
  | nil => simp [membersAreFaithful]
  | cons m members ih => simp [membersAreFaithful, ih]

theorem arePrintable_iff {items : List Json} :
    arePrintable items = true ↔ ∀ v ∈ items, v.isPrintable = true := by
  induction items with
  | nil => simp [arePrintable]
  | cons v items ih => simp [arePrintable, ih]

theorem membersArePrintable_iff {members : List (String × Json)} :
    membersArePrintable members = true ↔ ∀ m ∈ members, m.2.isPrintable = true := by
  induction members with
  | nil => simp [membersArePrintable]
  | cons m members ih => simp [membersArePrintable, ih]

theorem rereadItems_eq (items : List Json) : rereadItems items = items.map reread := by
  induction items with
  | nil => rfl
  | cons v items ih => rw [rereadItems, ih, List.map_cons]

theorem rereadMembers_eq (members : List (String × Json)) :
    rereadMembers members = members.map fun m => (m.1, m.2.reread) := by
  induction members with
  | nil => rfl
  | cons m members ih => rw [rereadMembers, ih, List.map_cons]

/-- A faithful value can be printed and is read as itself. -/
theorem isPrintable_of_isFaithful {v : Json} (h : v.isFaithful = true) :
    v.isPrintable = true ∧ v.reread = v := by
  induction v using inductionOn with
  | array items ih =>
    have hitems := fun v hv => ih v hv (areFaithful_iff.1 h v hv)
    refine ⟨arePrintable_iff.2 fun v hv => (hitems v hv).1, ?_⟩
    rw [reread, rereadItems_eq, List.map_congr_left fun v hv => (hitems v hv).2, List.map_id']
  | object members ih =>
    have hmembers := fun m hm => ih m hm (membersAreFaithful_iff.1 h m hm)
    refine ⟨membersArePrintable_iff.2 fun m hm => (hmembers m hm).1, ?_⟩
    rw [reread, rereadMembers_eq,
      List.map_congr_left fun m hm => congrArg (Prod.mk m.1) (hmembers m hm).2, List.map_id']
  | real x => exact ⟨rfl, rereadReal_of_readsBack h⟩
  | integer i => exact ⟨h, rfl⟩
  | unusable => cases h
  | null | bool | text => exact ⟨rfl, rfl⟩

theorem skip_newLine (level : Nat) (cs : List Char) :
    skip ((newLine level).toList ++ cs) = skip cs := by
  have hspaces (n : Nat) : skip (List.replicate n ' ' ++ cs) = skip cs := by
    induction n with
    | zero => rfl
    | succ n ih => rw [← ih]; rfl
  simp only [newLine, String.toList_append, String.toList_ofList, List.append_assoc]
  exact hspaces (2 * level)

theorem skip_of_head {c : Char} (h : skip [c] = [c]) (cs : List Char) :
    skip (c :: cs) = c :: cs := by
  unfold skip at h ⊢
  rw [List.dropWhile_cons] at h ⊢
  split
  · next hblank => simp [hblank] at h
  · rfl

theorem scanItems_newLine (fuel level : Nat) (cs : List Char) :
    scanItems fuel ((newLine level).toList ++ cs) = scanItems fuel cs :=
  scanItems_of_skip (skip_newLine level cs) fuel

theorem scanMembers_newLine (fuel level : Nat) (cs : List Char) :
    scanMembers fuel ((newLine level).toList ++ cs) = scanMembers fuel cs :=
  scanMembers_of_skip (skip_newLine level cs) fuel

theorem head_of_scanNumber {cs : List Char} {r : Json × List Char} (h : scanNumber cs = some r) :
    ∃ c more, cs = c :: more ∧ (c = '-' ∨ c.isDigit = true) := by
  match cs with
  | [] => cases h
  | c :: more =>
    refine ⟨c, more, rfl, ?_⟩
    by_contra hc
    rw [not_or] at hc
    rw [scanNumber_of_head (by simpa using hc.1)] at h
    simp [scanUnsigned, hc.2] at h

/-- The characters with which no printed value begins: the blanks and the closing bracket. -/
def opensValue (c : Char) : Bool :=
  c ≠ ' ' && c ≠ '\t' && c ≠ '\n' && c ≠ '\r' && c ≠ ']'

theorem skip_of_opensValue {c : Char} (h : opensValue c = true) (cs : List Char) :
    skip (c :: cs) = c :: cs := by
  simp_all [opensValue, skip]

theorem opensValue_of_digit {c : Char} (h : c = '-' ∨ c.isDigit = true) :
    opensValue c = true := by
  rcases h with rfl | hc
  · decide
  · have hne {d : Char} (hd : d.isDigit = false) : c ≠ d := by
      rintro rfl
      simp [hc] at hd
    simp [opensValue, hne]

theorem exists_opensValue_of_scanNumber {cs : List Char} {r : Json × List Char}
    (h : scanNumber cs = some r) : ∃ c more, cs = c :: more ∧ opensValue c = true := by
  obtain ⟨c, more, hcs, hc⟩ := head_of_scanNumber h
  exact ⟨c, more, hcs, opensValue_of_digit hc⟩

theorem scanValue_number {cs rest : List Char} {v : Json} {fuel : Nat} (hrest : Stops rest)
    (h : scanNumber cs = some (v, [])) : scanValue (fuel + 1) (cs ++ rest) = some (v, rest) := by
  obtain ⟨c, more, rfl, hc⟩ := head_of_scanNumber h
  rw [scanValue, List.cons_append, skip_of_opensValue (opensValue_of_digit hc),
    ← List.cons_append,
    ← scanNumber_append hrest h]
  split <;> simp_all

/-- The text of some lines between brackets. -/
def joined (level : Nat) (lines : List String) : List Char :=
  (("," ++ newLine level).intercalate lines).toList

theorem joined_singleton (level : Nat) (line : String) : joined level [line] = line.toList := by
  rw [joined, String.intercalate_singleton]

theorem joined_cons_cons (level : Nat) (line next : String) (rest : List String) :
    joined level (line :: next :: rest) =
      line.toList ++ ',' :: ((newLine level).toList ++ joined level (next :: rest)) := by
  simp [joined, String.intercalate_cons_cons]

theorem toList_bracketed (opening closing : String) (level : Nat) (line : String)
    (rest : List String) :
    (bracketed opening closing level (line :: rest)).toList =
      opening.toList ++ ((newLine (level + 1)).toList ++ (joined (level + 1) (line :: rest) ++
        ((newLine level).toList ++ closing.toList))) := by
  simp [bracketed, joined]

/-- A printed value begins with a character that is no blank and closes no array. -/
theorem head_prettyAt {v : Json} (hv : isPrintable v = true) (level : Nat) :
    ∃ c more, (prettyAt level v).toList = c :: more ∧ opensValue c = true := by
  cases v with
  | null => exact ⟨'n', ['u', 'l', 'l'], by simp [prettyAt, compact], by decide⟩
  | bool b =>
    cases b with
    | false => exact ⟨'f', ['a', 'l', 's', 'e'], by simp [prettyAt, compact], by decide⟩
    | true => exact ⟨'t', ['r', 'u', 'e'], by simp [prettyAt, compact], by decide⟩
  | integer i =>
    have hi : FitsWord i := by simpa [isPrintable] using hv
    exact exists_opensValue_of_scanNumber (scanNumber_integer hi)
  | real x => exact exists_opensValue_of_scanNumber (scanNumber_number x)
  | text s => exact ⟨'"', _, toList_quote s, by decide⟩
  | array items =>
    cases items with
    | nil => exact ⟨'[', [']'], by simp [prettyAt, prettyItems, bracketed], by decide⟩
    | cons v items => exact ⟨'[', _, toList_bracketed .., by decide⟩
  | object members =>
    cases members with
    | nil => exact ⟨'\x7b', ['\x7d'], by simp [prettyAt, prettyMembers, bracketed], by decide⟩
    | cons m members => exact ⟨'\x7b', _, toList_bracketed .., by decide⟩
  | unusable => cases hv

theorem scanValue_null (fuel : Nat) (rest : List Char) :
    scanValue (fuel + 1) ((compact .null).toList ++ rest) = some (.null, rest) := by
  rw [scanValue]
  rfl

theorem scanValue_bool (fuel : Nat) (b : Bool) (rest : List Char) :
    scanValue (fuel + 1) ((compact (.bool b)).toList ++ rest) = some (.bool b, rest) := by
  rw [scanValue]
  cases b <;> rfl

theorem scanValue_text (fuel : Nat) (s : String) (rest : List Char) :
    scanValue (fuel + 1) ((compact (.text s)).toList ++ rest) = some (.text s, rest) := by
  rw [scanValue, compact, toList_quote, List.cons_append, skip_of_head (by decide),
    List.append_assoc]
  simp only [List.cons_append, List.nil_append, scanText_quote]
  rfl

theorem length_joined_lt {opening : String} (h : 0 < opening.toList.length) (closing : String)
    (level : Nat) (line : String) (rest : List String) :
    (joined (level + 1) (line :: rest)).length <
      (bracketed opening closing level (line :: rest)).toList.length := by
  simp only [toList_bracketed, List.length_append]
  omega

theorem scanValue_emptyArray (level fuel : Nat) (rest : List Char) :
    scanValue (fuel + 1) ((prettyAt level (.array [])).toList ++ rest) =
      some (.array [], rest) := by
  have htext : (prettyAt level (.array [])).toList = ['[', ']'] := by
    simp [prettyAt, prettyItems, bracketed]
  rw [htext, scanValue]
  rfl

theorem scanValue_emptyObject (level fuel : Nat) (rest : List Char) :
    scanValue (fuel + 1) ((prettyAt level (.object [])).toList ++ rest) =
      some (.object [], rest) := by
  have htext : (prettyAt level (.object [])).toList = ['\x7b', '\x7d'] := by
    simp [prettyAt, prettyMembers, bracketed]
  rw [htext, scanValue]
  rfl

theorem exists_joined_cons {line : String} {c : Char} {more : List Char}
    (h : line.toList = c :: more) (level : Nat) (lines : List String) :
    ∃ last, joined level (line :: lines) = c :: last := by
  cases lines with
  | nil => exact ⟨more, by rw [joined_singleton, h]⟩
  | cons next lines => exact ⟨_, by rw [joined_cons_cons, h]; rfl⟩

theorem objectOf_map (members : List (String × Json)) :
    objectOf (members.map fun m => (some m.1, m.2)) = .object members := by
  have hkeys : (members.map fun m => (some m.1, m.2)).mapM
      (fun m => m.1.map fun k => (k, m.2)) = some members := by
    induction members with
    | nil => rfl
    | cons m members ih => simp [ih]
  rw [objectOf, hkeys]

section Brackets

variable {line : String} {lines : List String} {c : Char} {more rest : List Char} {fuel level : Nat}

theorem scanValue_array (hline : line.toList = c :: more) (hc : opensValue c = true)
    {items : List Json}
    (h : scanItems fuel (joined (level + 1) (line :: lines) ++
      ((newLine level).toList ++ ']' :: rest)) = some (items, rest)) :
    scanValue (fuel + 1) ((bracketed "[" "]" level (line :: lines)).toList ++ rest) =
      some (.array items, rest) := by
  obtain ⟨last, hjoined⟩ := exists_joined_cons hline (level + 1) lines
  have htext : (bracketed "[" "]" level (line :: lines)).toList ++ rest =
      '[' :: ((newLine (level + 1)).toList ++ (joined (level + 1) (line :: lines) ++
        ((newLine level).toList ++ ']' :: rest))) := by
    simp [toList_bracketed]
  have hopen : c ≠ ']' := by
    rintro rfl
    cases hc
  rw [htext, scanValue, skip_of_head (by decide)]
  simp only [scanItems_newLine, h, skip_newLine]
  rw [hjoined, List.cons_append, skip_of_opensValue hc]
  simp [hopen]

theorem scanValue_object (hline : line.toList = '"' :: more) {members : List (String × Json)}
    (h : scanMembers fuel (joined (level + 1) (line :: lines) ++
      ((newLine level).toList ++ '\x7d' :: rest)) =
        some (members.map fun m => (some m.1, m.2), rest)) :
    scanValue (fuel + 1) ((bracketed "\x7b" "\x7d" level (line :: lines)).toList ++ rest) =
      some (.object members, rest) := by
  obtain ⟨last, hjoined⟩ := exists_joined_cons hline (level + 1) lines
  have htext : (bracketed "\x7b" "\x7d" level (line :: lines)).toList ++ rest =
      '\x7b' :: ((newLine (level + 1)).toList ++ (joined (level + 1) (line :: lines) ++
        ((newLine level).toList ++ '\x7d' :: rest))) := by
    simp [toList_bracketed]
  rw [htext, scanValue, skip_of_head (by decide)]
  simp only [scanMembers_newLine, h, skip_newLine]
  rw [hjoined, List.cons_append, skip_of_head (by decide)]
  simp [objectOf_map]

end Brackets

theorem scanItems_singleton {fuel : Nat} {cs rest more : List Char} {v : Json}
    (hvalue : scanValue fuel cs = some (v, rest)) (hrest : skip rest = ']' :: more) :
    scanItems (fuel + 1) cs = some ([v], more) := by
  rw [scanItems, hvalue]
  simp [hrest]

theorem scanItems_cons {fuel : Nat} {cs rest more last : List Char} {v : Json} {vs : List Json}
    (hvalue : scanValue fuel cs = some (v, rest)) (hrest : skip rest = ',' :: more)
    (hitems : scanItems fuel more = some (vs, last)) :
    scanItems (fuel + 1) cs = some (v :: vs, last) := by
  rw [scanItems, hvalue]
  simp [hrest, hitems]

/-- The text of a member: its quoted key and its value. -/
def memberText (level : Nat) (key : String) (v : Json) : String :=
  quote key ++ ": " ++ prettyAt level v

theorem toList_memberText (level : Nat) (key : String) (v : Json) :
    (memberText level key v).toList = '"' :: (key.toList.flatMap escapeChar ++
      '"' :: ':' :: ' ' :: (prettyAt level v).toList) := by
  simp [memberText, toList_quote]

theorem scanValue_space (fuel : Nat) (cs : List Char) :
    scanValue fuel (' ' :: cs) = scanValue fuel cs :=
  scanValue_of_skip (show skip (' ' :: cs) = skip cs from rfl) fuel

theorem prettyMembers_cons (level : Nat) (m : String × Json) (members : List (String × Json)) :
    prettyMembers level (m :: members) =
      memberText level m.1 m.2 :: prettyMembers level members :=
  rfl

theorem length_memberText (level : Nat) (key : String) (v : Json) :
    (prettyAt level v).toList.length < (memberText level key v).toList.length := by
  simp only [toList_memberText, List.length_append, List.length_cons]
  omega

section Members

variable {fuel level : Nat} {key : String} {v w : Json} {cs rest more last : List Char}

theorem scanMembers_singleton
    (hvalue : scanValue fuel ((prettyAt level v).toList ++ cs) = some (w, rest))
    (hrest : skip rest = '\x7d' :: more) :
    scanMembers (fuel + 1) ((memberText level key v).toList ++ cs) =
      some ([(some key, w)], more) := by
  rw [toList_memberText, List.cons_append, scanMembers, skip_of_head (by decide)]
  simp only [List.append_assoc, List.cons_append, scanText_quote, Option.bind_eq_bind,
    Option.bind_some, skip_of_head (show skip [':'] = [':'] by decide), scanValue_space, hvalue,
    hrest]

theorem scanMembers_cons {members : List (Option String × Json)}
    (hvalue : scanValue fuel ((prettyAt level v).toList ++ cs) = some (w, rest))
    (hrest : skip rest = ',' :: more) (hmembers : scanMembers fuel more = some (members, last)) :
    scanMembers (fuel + 1) ((memberText level key v).toList ++ cs) =
      some ((some key, w) :: members, last) := by
  rw [toList_memberText, List.cons_append, scanMembers, skip_of_head (by decide)]
  simp only [List.append_assoc, List.cons_append, scanText_quote, Option.bind_eq_bind,
    Option.bind_some, skip_of_head (show skip [':'] = [':'] by decide), scanValue_space, hvalue,
    hrest, hmembers]

end Members

/-- The printed value is read from the front of a text at any level, with its numbers read from their
digits, and what follows is left over. -/
def Reads (v : Json) : Prop :=
  ∀ (level fuel : Nat) (rest : List Char), Stops rest →
    2 * (prettyAt level v).toList.length ≤ fuel →
    scanValue fuel ((prettyAt level v).toList ++ rest) = some (v.reread, rest)

theorem scanItems_prettyItems {v : Json} {items : List Json} (h : ∀ w ∈ v :: items, Reads w)
    (level outer fuel : Nat) (rest : List Char)
    (hfuel : 2 * (joined level (prettyItems level (v :: items))).length < fuel) :
    scanItems fuel (joined level (prettyItems level (v :: items)) ++
      ((newLine outer).toList ++ ']' :: rest)) = some (rereadItems (v :: items), rest) := by
  induction items generalizing v fuel with
  | nil =>
    obtain ⟨fuel, rfl⟩ := Nat.exists_eq_add_one.2 (Nat.zero_lt_of_lt hfuel)
    rw [prettyItems, prettyItems, joined_singleton] at hfuel ⊢
    refine scanItems_singleton (h v (List.mem_singleton_self v) level fuel _
      (stops_newLine outer _) (by omega)) ?_
    rw [skip_newLine]
    exact skip_of_head (by decide) rest
  | cons w items ih =>
    obtain ⟨fuel, rfl⟩ := Nat.exists_eq_add_one.2 (Nat.zero_lt_of_lt hfuel)
    rw [prettyItems, prettyItems, joined_cons_cons, ← prettyItems] at hfuel ⊢
    simp only [List.length_append, List.length_cons] at hfuel
    simp only [List.append_assoc, List.cons_append]
    refine scanItems_cons (h v List.mem_cons_self level fuel _ (stops_comma _) (by omega))
      (skip_of_head (by decide) _) ?_
    rw [scanItems_newLine]
    exact ih (fun u hu => h u (List.mem_cons_of_mem v hu)) fuel (by omega)

theorem scanMembers_prettyMembers {m : String × Json} {members : List (String × Json)}
    (h : ∀ n ∈ m :: members, Reads n.2) (level outer fuel : Nat) (rest : List Char)
    (hfuel : 2 * (joined level (prettyMembers level (m :: members))).length < fuel) :
    scanMembers fuel (joined level (prettyMembers level (m :: members)) ++
      ((newLine outer).toList ++ '\x7d' :: rest)) =
        some ((rereadMembers (m :: members)).map fun n => (some n.1, n.2), rest) := by
  induction members generalizing m fuel with
  | nil =>
    obtain ⟨fuel, rfl⟩ := Nat.exists_eq_add_one.2 (Nat.zero_lt_of_lt hfuel)
    rw [prettyMembers_cons, prettyMembers, joined_singleton] at hfuel ⊢
    have hlength := length_memberText level m.1 m.2
    refine scanMembers_singleton (h m List.mem_cons_self level fuel _ (stops_newLine outer _)
      (by omega)) ?_
    rw [skip_newLine]
    exact skip_of_head (by decide) rest
  | cons n members ih =>
    obtain ⟨fuel, rfl⟩ := Nat.exists_eq_add_one.2 (Nat.zero_lt_of_lt hfuel)
    rw [prettyMembers_cons, prettyMembers_cons, joined_cons_cons,
      ← prettyMembers_cons] at hfuel ⊢
    have hlength := length_memberText level m.1 m.2
    simp only [List.length_append, List.length_cons] at hfuel
    simp only [List.append_assoc, List.cons_append]
    refine scanMembers_cons (h m List.mem_cons_self level fuel _ (stops_comma _) (by omega))
      (skip_of_head (by decide) _) ?_
    rw [scanMembers_newLine]
    exact ih (fun k hk => h k (List.mem_cons_of_mem m hk)) fuel (by omega)

theorem Reads.of_succ {v : Json} (hv : v.isPrintable = true)
    (h : ∀ (level fuel : Nat) (rest : List Char), Stops rest →
      2 * (prettyAt level v).toList.length ≤ fuel + 1 →
      scanValue (fuel + 1) ((prettyAt level v).toList ++ rest) = some (v.reread, rest)) : Reads v := by
  intro level fuel rest hrest hfuel
  cases fuel with
  | zero =>
    obtain ⟨c, more, htext, -⟩ := head_prettyAt hv level
    simp [htext] at hfuel
  | succ fuel => exact h level fuel rest hrest hfuel

theorem reads_array {items : List Json} (hv : isPrintable (.array items) = true)
    (h : ∀ v ∈ items, Reads v) : Reads (.array items) := by
  apply Reads.of_succ hv
  intro level fuel rest _ hfuel
  cases items with
  | nil => exact scanValue_emptyArray level fuel rest
  | cons v items =>
    have hprintable : v.isPrintable = true := arePrintable_iff.1 hv v List.mem_cons_self
    obtain ⟨c, more, htext, hc⟩ := head_prettyAt hprintable (level + 1)
    rw [prettyAt, prettyItems] at hfuel ⊢
    have hlength := length_joined_lt (show 0 < "[".toList.length by decide) "]" level
      (prettyAt (level + 1) v) (prettyItems (level + 1) items)
    have hitems := scanItems_prettyItems h (level + 1) level fuel rest
      (by rw [prettyItems]; omega)
    exact scanValue_array htext hc hitems

theorem reads_object {members : List (String × Json)} (hv : isPrintable (.object members) = true)
    (h : ∀ m ∈ members, Reads m.2) : Reads (.object members) := by
  apply Reads.of_succ hv
  intro level fuel rest _ hfuel
  cases members with
  | nil => exact scanValue_emptyObject level fuel rest
  | cons m members =>
    rw [prettyAt, prettyMembers_cons] at hfuel ⊢
    have hlength := length_joined_lt (show 0 < "\x7b".toList.length by decide) "\x7d" level
      (memberText (level + 1) m.1 m.2) (prettyMembers (level + 1) members)
    have hmembers := scanMembers_prettyMembers h (level + 1) level fuel rest
      (by rw [prettyMembers_cons]; omega)
    exact scanValue_object (toList_memberText ..) hmembers

/-- Every value that can be printed is read from the front of its printed form. -/
theorem reads_of_isPrintable {v : Json} (hv : v.isPrintable = true) : Reads v := by
  induction v using inductionOn with
  | null => exact .of_succ hv fun _ fuel rest _ _ => scanValue_null fuel rest
  | bool b => exact .of_succ hv fun _ fuel rest _ _ => scanValue_bool fuel b rest
  | integer i =>
    have hi : FitsWord i := by simpa [isPrintable] using hv
    exact .of_succ hv fun _ _ _ hrest _ => scanValue_number hrest (scanNumber_integer hi)
  | real x => exact .of_succ hv fun _ _ _ hrest _ => scanValue_number hrest (scanNumber_number x)
  | text s => exact .of_succ hv fun _ fuel rest _ _ => scanValue_text fuel s rest
  | array items ih =>
    exact reads_array hv fun v hmem => ih v hmem (arePrintable_iff.1 hv v hmem)
  | object members ih =>
    exact reads_object hv fun m hmem => ih m hmem (membersArePrintable_iff.1 hv m hmem)
  | unusable => cases hv

/-- A printed value is read back with its numbers read from their digits. -/
theorem read?_pretty_reread {v : Json} (hv : v.isPrintable = true) :
    read? v.pretty = some v.reread := by
  have hscan := reads_of_isPrintable hv 0 (2 * (prettyAt 0 v).toList.length + 2) [] stops_nil
    (by omega)
  rw [List.append_nil] at hscan
  rw [read?, pretty, hscan]
  rfl

/-- A faithful value is read back from its printed form. -/
theorem read?_pretty {v : Json} (hv : v.isFaithful = true) : read? v.pretty = some v := by
  obtain ⟨hprintable, hreread⟩ := isPrintable_of_isFaithful hv
  rw [read?_pretty_reread hprintable, hreread]

end ApiEvolution.Json
