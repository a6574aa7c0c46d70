import Mathlib.Data.List.SplitBy
import ApiEvolution.Proofs.GeneratedAnnotations
import ApiEvolution.Proofs.TypeSegments

/-!
# Names of instances

The name of an instance is made of the words of its value, which are the stretches of letters and
digits in it, in capitals. It is an identifier (`isInstanceName_upperSnakeCase`), and it tells the
words (`upperSnakeCase_eq_iff`) but not the value: the case of letters and all other characters are
lost. So the instances of an enumeration have different names only where the words of their values
differ (`generate_enumerations`).

The words are got back from a name by splitting it at the underscores, since no word has one.
-/

namespace ApiEvolution

/-! ## Characters of a name -/

variable {c : Char}

/-- Whether a character is a capital letter or a digit of ASCII. -/
def isCapitalOrDigit (c : Char) : Bool :=
  c.isUpper || c.isDigit

theorem isUpper_toUpper (h : c.isLower = true) : c.toUpper.isUpper = true := by
  have hcode : 'a'.val ≤ c.val ∧ c.val ≤ 'z'.val := by simpa [Char.isLower] using h
  rw [Char.toUpper, dif_pos hcode, Char.isUpper, decide_eq_true_eq]
  simp only [UInt32.le_iff_toNat_le, ge_iff_le] at hcode ⊢
  rw [UInt32.toNat_add]
  simp at hcode ⊢
  omega

theorem isCapitalOrDigit_toUpper (h : c.isAlphanum = true) : isCapitalOrDigit c.toUpper = true := by
  by_cases hlower : c.isLower = true
  · rw [isCapitalOrDigit, isUpper_toUpper hlower, Bool.true_or]
  · rw [Char.toUpper_eq_of_not_isLower hlower, isCapitalOrDigit]
    simpa [Char.isAlphanum, Char.isAlpha, hlower] using h

/-! ## Words of a name -/

variable {value other : String} {word : List Char}

/-- The words of a value in capitals. -/
def capitalWords (value : String) : List (List Char) :=
  (alphanumericParts value).map fun part => part.map Char.toUpper

/-- The words of the name of a value's instance: `EMPTY` if the value has no words, and `VALUE`
before a word that starts with a digit. -/
def nameWords (value : String) : List (List Char) :=
  match capitalWords value with
  | [] => [['E', 'M', 'P', 'T', 'Y']]
  | first :: rest =>
    if first.head?.any Char.isDigit then ['V', 'A', 'L', 'U', 'E'] :: first :: rest
    else first :: rest

/-- A word that may be in a name. -/
structure IsNameWord (word : List Char) : Prop where
  ne_nil : word ≠ []
  chars : ∀ c ∈ word, isCapitalOrDigit c = true

theorem isNameWord_of_mem_capitalWords (h : word ∈ capitalWords value) : IsNameWord word := by
  obtain ⟨part, hpart, rfl⟩ := List.mem_map.1 h
  obtain ⟨hstretch, halphanum⟩ := List.mem_filter.1 hpart
  constructor
  · intro hnil
    rw [List.map_eq_nil_iff] at hnil
    rw [hnil] at hstretch
    exact List.nil_notMem_splitBy _ _ hstretch
  · intro c hc
    obtain ⟨d, hd, rfl⟩ := List.mem_map.1 hc
    exact isCapitalOrDigit_toUpper (List.all_eq_true.1 halphanum d hd)

/-- A name has the words of the value, `VALUE` before them if the first starts with a digit, and
`EMPTY` in place of none. -/
theorem nameWords_cases (value : String) :
    (capitalWords value = [] ∧ nameWords value = [['E', 'M', 'P', 'T', 'Y']]) ∨
      (∃ c rest more, capitalWords value = (c :: rest) :: more ∧ c.isDigit = true ∧
        nameWords value = ['V', 'A', 'L', 'U', 'E'] :: (c :: rest) :: more) ∨
      ∃ c rest more, capitalWords value = (c :: rest) :: more ∧ c.isDigit = false ∧
        c.isUpper = true ∧ nameWords value = (c :: rest) :: more := by
  cases hwords : capitalWords value with
  | nil => exact .inl ⟨rfl, by rw [nameWords, hwords]⟩
  | cons word more =>
    obtain ⟨hne, hchars⟩ := isNameWord_of_mem_capitalWords (hwords ▸ List.mem_cons_self)
    obtain ⟨c, rest, rfl⟩ := List.exists_cons_of_ne_nil hne
    by_cases hdigit : c.isDigit = true
    · refine .inr (.inl ⟨c, rest, more, rfl, hdigit, ?_⟩)
      rw [nameWords, hwords]
      exact if_pos hdigit
    · have hupper : c.isUpper = true := by
        simpa [isCapitalOrDigit, hdigit] using hchars c List.mem_cons_self
      refine .inr (.inr ⟨c, rest, more, rfl, Bool.eq_false_iff.2 hdigit, hupper, ?_⟩)
      rw [nameWords, hwords]
      exact if_neg hdigit

theorem isNameWord_of_mem_nameWords (h : word ∈ nameWords value) : IsNameWord word := by
  have hletters : ∀ letters : List Char, letters ≠ [] → letters.all isCapitalOrDigit = true →
      IsNameWord letters := by
    intro letters hne hall
    exact ⟨hne, List.all_eq_true.1 hall⟩
  rcases nameWords_cases value with ⟨-, hname⟩ | ⟨c, rest, more, hwords, -, hname⟩ |
    ⟨c, rest, more, hwords, -, -, hname⟩
  · rw [hname, List.mem_singleton] at h
    subst h
    exact hletters _ (by simp) rfl
  · rw [hname, List.mem_cons, ← hwords] at h
    rcases h with rfl | h
    · exact hletters _ (by simp) rfl
    · exact isNameWord_of_mem_capitalWords h
  · rw [hname, ← hwords] at h
    exact isNameWord_of_mem_capitalWords h

/-- A name starts with a letter. -/
theorem exists_nameWords_eq (value : String) :
    ∃ c rest more, nameWords value = (c :: rest) :: more ∧ c.isUpper = true := by
  rcases nameWords_cases value with ⟨-, hname⟩ | ⟨c, rest, more, -, -, hname⟩ |
    ⟨c, rest, more, -, -, hupper, hname⟩
  · exact ⟨_, _, _, hname, rfl⟩
  · exact ⟨_, _, _, hname, rfl⟩
  · exact ⟨_, _, _, hname, hupper⟩

/-! ## Names -/

theorem intercalate_words (value : String) :
    "_".intercalate ((alphanumericParts value).map fun part =>
      String.ofList (part.map Char.toUpper)) =
      String.ofList (['_'].intercalate (capitalWords value)) := by
  rw [← String.toList_inj, String.toList_ofList, String.toList_intercalate, List.map_map]
  simp [capitalWords, Function.comp_def]

theorem exists_intercalate_eq (c : Char) (rest : List Char) (more : List (List Char)) :
    ∃ tail, ['_'].intercalate ((c :: rest) :: more) = c :: tail := by
  cases more with
  | nil => exact ⟨rest, List.intercalate_singleton⟩
  | cons next more => exact ⟨rest ++ ['_'] ++ _, List.intercalate_cons_cons⟩

/-- A name is its words with underscores between them. -/
theorem toList_upperSnakeCase (value : String) :
    (upperSnakeCase value).toList = ['_'].intercalate (nameWords value) := by
  simp only [upperSnakeCase, intercalate_words, String.toList_ofList]
  rcases nameWords_cases value with ⟨hwords, hname⟩ | ⟨c, rest, more, hwords, hdigit, hname⟩ |
    ⟨c, rest, more, hwords, hdigit, -, hname⟩
  · rw [hname, hwords]
    rfl
  · obtain ⟨tail, htail⟩ := exists_intercalate_eq c rest more
    rw [hname, hwords, List.intercalate_cons_cons, htail]
    simp [hdigit]
  · obtain ⟨tail, htail⟩ := exists_intercalate_eq c rest more
    rw [hname, hwords, htail]
    simp [hdigit]

theorem splitOn_upperSnakeCase (value : String) :
    (upperSnakeCase value).toList.splitOn '_' = nameWords value := by
  rw [toList_upperSnakeCase]
  apply List.splitOn_intercalate
  · intro word hword hmem
    have hunderscore := (isNameWord_of_mem_nameWords hword).chars '_' hmem
    exact absurd hunderscore (by decide)
  · obtain ⟨c, rest, more, hname, -⟩ := exists_nameWords_eq value
    simp [hname]

/-- Two values have the same name exactly when their words agree. -/
theorem upperSnakeCase_eq_iff :
    upperSnakeCase value = upperSnakeCase other ↔ nameWords value = nameWords other := by
  constructor
  · intro h
    rw [← splitOn_upperSnakeCase, h, splitOn_upperSnakeCase]
  · intro h
    rw [← String.toList_inj, toList_upperSnakeCase, toList_upperSnakeCase, h]

/-- An identifier: a capital letter, and then capital letters, digits and underscores. -/
structure IsInstanceName (name : String) : Prop where
  first : ∃ c ∈ name.toList.head?, c.isUpper = true
  chars : ∀ c ∈ name.toList, isCapitalOrDigit c = true ∨ c = '_'

theorem isInstanceName_upperSnakeCase (value : String) : IsInstanceName (upperSnakeCase value) where
  first := by
    obtain ⟨c, rest, more, hname, hupper⟩ := exists_nameWords_eq value
    obtain ⟨tail, htail⟩ := exists_intercalate_eq c rest more
    rw [toList_upperSnakeCase, hname, htail]
    exact ⟨c, rfl, hupper⟩
  chars c hc := by
    rw [toList_upperSnakeCase] at hc
    rcases Text.mem_intercalate hc with hunderscore | ⟨word, hword, hmem⟩
    · exact .inr (List.mem_singleton.1 hunderscore)
    · exact .inl ((isNameWord_of_mem_nameWords hword).chars c hmem)

/-! ## Enumerations -/

/-- The pairs of an enumeration: one for each of its values, of which none occurs twice, with
identifiers for names. Two of them have the same name exactly when the words of their values agree.
-/
structure NamesInstances (values : List String) (pairs : List EnumPair) : Prop where
  nonempty : values ≠ []
  nodup : values.Nodup
  values_eq : pairs.map EnumPair.value = values
  identifiers : ∀ pair ∈ pairs, IsInstanceName pair.instanceName
  sameName_iff : ∀ a ∈ pairs, ∀ b ∈ pairs,
    a.instanceName = b.instanceName ↔ nameWords a.value = nameWords b.value

theorem namesInstances_enumPairs {values : List String} (hne : values ≠ [])
    (hnodup : values.Nodup) : NamesInstances values (enumPairs values) where
  nonempty := hne
  nodup := hnodup
  values_eq := by
    unfold enumPairs
    rw [List.map_map]
    exact List.map_id values
  identifiers pair hpair := by
    obtain ⟨value, -, rfl⟩ := List.mem_map.1 hpair
    exact isInstanceName_upperSnakeCase value
  sameName_iff a ha b hb := by
    obtain ⟨value, -, rfl⟩ := List.mem_map.1 ha
    obtain ⟨other, -, rfl⟩ := List.mem_map.1 hb
    exact upperSnakeCase_eq_iff

open TypeText in
/-- The values of a parameter are a set with an element. -/
theorem values_of_enumeration? {p : ParameterDecl} {values : List String}
    (h : p.type.bind ValueType.enumeration? = some values) : values ≠ [] ∧ values.Nodup := by
  constructor
  · rintro rfl
    exact bind_enumeration?_ne_nil p h
  · obtain ⟨t, ht, hvalues⟩ := Option.bind_eq_some_iff.1 h
    obtain ⟨source, hsource⟩ := exists_readType_of_resolve (p.type_eq.symm.trans ht)
    obtain ⟨text, hunion⟩ := exists_memberTypes_of_readType hsource
    -- the type as a whole is a set, but that its members are made of sets is known of what is read
    have hmember := (ValueType.mem_members_of_union?
      (fun m hm => (hasSets_of_memberTypes hm).1) hunion).1 (ValueType.mem_of_enumeration? hvalues)
    exact (hasSets_of_memberTypes hmember).2

variable {s : Snapshot} {u : UsageCounts} {author : String}

/-- Each enumeration that is generated is for a parameter, and its pairs are for the values of this
parameter. -/
theorem generate_enumerations {l : Ledger} (h : generate s u author = .ok l) {a : Annotation}
    (ha : a ∈ l.entries) {name : String} {pairs : List EnumPair}
    (hpayload : a.payload = .enumeration name pairs) :
    ∃ p ∈ s.parameters, p.id = a.target ∧ ∃ values,
      p.type.bind ValueType.enumeration? = some values ∧ NamesInstances values pairs := by
  obtain ⟨proposed, hproposed, rfl⟩ := generate_eq_ok_iff.1 h
  rw [Ledger.entries_ofList] at ha
  have ha := (Ledger.survivors_sublist _).subset ha
  obtain ⟨-, rfl⟩ := proposals_eq_ok_iff.1 hproposed
  obtain ⟨e, he, hmem⟩ := List.mem_flatMap.1 ha
  obtain ⟨payload, hproposal, rfl⟩ := List.mem_map.1 hmem
  obtain rfl : payload = .enumeration name pairs := hpayload
  have hkind := kind_mem_of_mem_elementPayloads hproposal
  cases e with
  | ofParameter p =>
    obtain ⟨_, hp, heq⟩ := List.mem_map.1 (Snapshot.mem_allElements_iff.1 he)
    cases heq
    obtain ⟨-, constant, -, hpayloads⟩ := mem_elementPayloads_parameter.1 hproposal
    rcases ParameterDecl.mem_payloads_iff.1 hpayloads with
      ⟨value, -, hconstant⟩ | ⟨-, ⟨b, -, hboundary⟩ | ⟨values, hvalues, heq⟩⟩
    · cases hconstant
    · cases hboundary
    · obtain ⟨-, rfl⟩ := Payload.enumeration.inj heq
      obtain ⟨hne, hnodup⟩ := values_of_enumeration? hvalues
      exact ⟨p, hp, rfl, values, hvalues, namesInstances_enumPairs hne hnodup⟩
  | ofClass | ofFunction | ofAttribute | ofResult =>
    simp [proposedKinds, Element.kind, Payload.kind] at hkind

/-- A document of a function with a parameter of the given type. -/
def enumeratedLibrary (typeText : String) : Json :=
  .object [("distribution", .text "lib"), ("package", .text "lib"), ("version", .text "1"),
    ("functions", .array [.object [("id", .text "f"), ("qname", .text "f"),
      ("parameters", .array [.text "f/p"])]]),
    ("parameters", .array [.object [("id", .text "f/p"), ("qname", .text "f.p"),
      ("is_public", .bool true), ("docstring", .object [("type", .text typeText)])]])]

theorem generate_enumerations_solvers :
    ∃ s l, Snapshot.read (enumeratedLibrary "\x7b'', '2d', 'l-bfgs'\x7d").pretty = .ok s ∧
      generate s {} "me" = .ok l ∧ ∃ a ∈ l.entries,
        a.payload = .enumeration "P" [⟨"", "EMPTY"⟩, ⟨"2d", "VALUE_2D"⟩, ⟨"l-bfgs", "L_BFGS"⟩] ∧
        ∃ p ∈ s.parameters, p.id = a.target ∧ ∃ values,
          p.type.bind ValueType.enumeration? = some values ∧
          NamesInstances values [⟨"", "EMPTY"⟩, ⟨"2d", "VALUE_2D"⟩, ⟨"l-bfgs", "L_BFGS"⟩] := by
  have hgenerates : (Snapshot.ofJson
      (enumeratedLibrary "\x7b'', '2d', 'l-bfgs'\x7d")).toOption.any (fun s =>
      (generate s {} "me").toOption.any fun l => l.entries.any fun a => a.payload =
        .enumeration "P" [⟨"", "EMPTY"⟩, ⟨"2d", "VALUE_2D"⟩, ⟨"l-bfgs", "L_BFGS"⟩]) = true := by
    decide +kernel
  obtain ⟨s, l, hread, hl, h⟩ := exists_generate_pretty (by decide) hgenerates
  obtain ⟨a, ha, hpayload⟩ := List.any_eq_true.1 h
  have hpayload := of_decide_eq_true hpayload
  exact ⟨s, l, hread, hl, a, ha, hpayload, generate_enumerations hl ha hpayload⟩

/-- Different values may have the same name. -/
theorem generate_sameName :
    ∃ s l, Snapshot.read (enumeratedLibrary "\x7b'A', 'a'\x7d").pretty = .ok s ∧
      generate s {} "me" = .ok l ∧ ∃ a ∈ l.entries,
        a.payload = .enumeration "P" [⟨"A", "A"⟩, ⟨"a", "A"⟩] := by
  have hgenerates : (Snapshot.ofJson (enumeratedLibrary "\x7b'A', 'a'\x7d")).toOption.any (fun s =>
      (generate s {} "me").toOption.any fun l => l.entries.any fun a => a.payload =
        .enumeration "P" [⟨"A", "A"⟩, ⟨"a", "A"⟩]) = true := by
    decide +kernel
  obtain ⟨s, l, hread, hl, h⟩ := exists_generate_pretty (by decide) hgenerates
  obtain ⟨a, ha, hpayload⟩ := List.any_eq_true.1 h
  exact ⟨s, l, hread, hl, a, ha, of_decide_eq_true hpayload⟩

end ApiEvolution
