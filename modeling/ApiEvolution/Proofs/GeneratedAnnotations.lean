import ApiEvolution.Proofs.Proposals

/-!
# What is generated from usage

Proposals do not conflict, so nothing that is proposed is ever evicted, and the ledger of the
proposals has all of them in their order.

* `generate_isGenerated`: what is generated, and that it all stays.
* `exists_generate_of_read`: the counts of an accepted document can be added up, so a ledger is
  generated from them.
-/

namespace ApiEvolution

variable {s : Snapshot} {u : UsageCounts} {author : String}

/-- Where annotations do not conflict, none evicts another. -/
theorem Ledger.evictedBy_ofList_eq_nil {annotations before after : List Annotation} {a : Annotation}
    (h : annotations.Pairwise fun a b => b.conflicts a = false)
    (hsplit : annotations = before ++ a :: after) : (ofList before).evictedBy a = [] := by
  rw [hsplit, List.pairwise_append] at h
  obtain ⟨hbefore, -, hcross⟩ := h
  rw [evictedBy, entries_ofList, survivors_eq_self hbefore, List.filter_eq_nil_iff]
  intro b hb
  simp [hcross b hb a List.mem_cons_self]

/-- What a ledger has if it has just the annotations that follow from usage and documentation. -/
structure IsGenerated (s : Snapshot) (u : UsageCounts) (author : String) (l : Ledger) : Prop where
  /-- The annotations come in the order in which the elements are declared. Those of one element
  have different kinds, which depend on the kind of the element. -/
  ordered : ∃ payloads : Element → List Payload,
    l.entries = (s.allElements.flatMap fun e =>
      (payloads e).map (.ofPayload e.id author)) ∧
    ∀ e, ((payloads e).map Payload.kind).Sublist (proposedKinds e.kind)
  authored : ∀ a ∈ l.entries, a.authors = [author]
  /-- Classes and functions are removed that are public and not used. -/
  remove_iff : ∀ id, .ofPayload id author .remove ∈ l.entries ↔
    (∃ c ∈ s.classes, c.id = id ∧ c.isPublic = true ∧ u.classes.get id = 0) ∨
      ∃ f ∈ s.functions, f.id = id ∧ f.isPublic = true ∧ u.functions.get id = 0
  /-- Public parameters are made constant that have a single value. -/
  constant_iff : ∀ p ∈ s.parameters, ∀ value,
    .ofPayload p.id author (.constant value) ∈ l.entries ↔
      p.isPublic = true ∧ ∃ literal, HasOnlyLiteral s u p literal ∧ value = .ofLiteral literal
  /-- Other public parameters get the boundary of their type, if there is one. -/
  boundary_iff : ∀ p ∈ s.parameters,
    (∃ i, .ofPayload p.id author (.boundary i) ∈ l.entries) ↔ p.isPublic = true ∧
      (∀ value, .ofPayload p.id author (.constant value) ∉ l.entries) ∧
        ∃ t ∈ p.type, ∃ b, .boundary b ∈ t.members
  boundary_eq : ∀ p ∈ s.parameters, ∀ i, .ofPayload p.id author (.boundary i) ∈ l.entries →
    ∃ b, p.type.bind ValueType.boundary? = some b ∧ i = .ofBoundary b
  /-- Other public parameters get the enumeration of their type, if there is one. -/
  enumeration_iff : ∀ p ∈ s.parameters,
    (∃ name pairs, .ofPayload p.id author (.enumeration name pairs) ∈ l.entries) ↔
      p.isPublic = true ∧ (∀ value, .ofPayload p.id author (.constant value) ∉ l.entries) ∧
        ∃ t ∈ p.type, ∃ vs, .enumeration vs ∈ t.members
  enumeration_eq : ∀ p ∈ s.parameters, ∀ name pairs,
    .ofPayload p.id author (.enumeration name pairs) ∈ l.entries →
      ∃ vs, p.type.bind ValueType.enumeration? = some vs ∧ name = upperCamelCase p.name ∧
        pairs = enumPairs vs

/-- The proposals are what should be generated. -/
theorem isGenerated_of_entries_eq {l : Ledger} (hs : s.Indexed)
    (h : proposals s u author = .ok l.entries) : IsGenerated s u author l where
  ordered := ⟨elementPayloads s u, (proposals_eq_ok_iff.1 h).2, map_kind_elementPayloads⟩
  authored a ha := by
    rw [(proposals_eq_ok_iff.1 h).2] at ha
    obtain ⟨e, -, ha⟩ := List.mem_flatMap.1 ha
    obtain ⟨payload, -, rfl⟩ := List.mem_map.1 ha
    rfl
  remove_iff id := remove_mem_proposals_iff h
  constant_iff p hp value := by
    rw [constant_mem_proposals_iff hs.distinct h hp, constantValue?_eq_some_iff hs hp]
  boundary_iff p hp := by
    simp only [boundary_mem_proposals_iff hs.distinct h hp, ← ValueType.exists_boundary_iff]
    constructor
    · rintro ⟨i, hpublic, hno, b, hb, -⟩
      exact ⟨hpublic, hno, b, hb⟩
    · rintro ⟨hpublic, hno, b, hb⟩
      exact ⟨_, hpublic, hno, b, hb, rfl⟩
  boundary_eq p hp i hi := ((boundary_mem_proposals_iff hs.distinct h hp).1 hi).2.2
  enumeration_iff p hp := by
    simp only [enumeration_mem_proposals_iff hs.distinct h hp, ← ValueType.exists_enumeration_iff]
    constructor
    · rintro ⟨name, pairs, hpublic, hno, vs, hvs, -⟩
      exact ⟨hpublic, hno, vs, hvs⟩
    · rintro ⟨hpublic, hno, vs, hvs⟩
      exact ⟨_, _, hpublic, hno, vs, hvs, rfl, rfl⟩
  enumeration_eq p hp name pairs hpairs :=
    ((enumeration_mem_proposals_iff hs.distinct h hp).1 hpairs).2.2

theorem generate_eq_ok_iff {l : Ledger} :
    generate s u author = .ok l ↔
      ∃ proposed, proposals s u author = .ok proposed ∧ Ledger.ofList proposed = l :=
  map_eq_ok_iff

/-- The counts of an accepted document can be added up. -/
theorem exists_generate_of_read {text : String} (hu : UsageCounts.read text = .ok u) (s : Snapshot)
    (author : String) : ∃ l, generate s u author = .ok l := by
  cases hgenerate : generate s u author with
  | ok l => exact ⟨l, rfl⟩
  | error cause =>
    have htally := UsageCounts.isTally_of_read hu
    obtain ⟨-, p, -, -, function, -, -, -, hvalues⟩ :=
      proposals_eq_error_iff.1 (map_eq_error_iff.1 hgenerate)
    have hexceeds := (UsageCounts.effectiveValues_eq_error_iff htally p.id p.defaultValue
      (htally.functions.get_lt function)).1 hvalues
    exact absurd (UsageCounts.total_lt_of_read hu p.id) (Nat.not_lt.2 hexceeds)

/-- For an accepted document, whatever the counts and the author, the generated ledger has just the
annotations that follow from them, and none of them is evicted while it is made. There is no ledger
only if the values of a parameter are too many to be added up. -/
theorem generate_isGenerated {text : String} (h : Snapshot.read text = .ok s) (u : UsageCounts)
    (author : String) :
    (∃ proposed l, proposals s u author = .ok proposed ∧ generate s u author = .ok l ∧
      IsGenerated s u author l ∧
        ∀ before a after, proposed = before ++ a :: after →
          (Ledger.ofList before).evictedBy a = []) ∨
      generate s u author = .error .overflow ∧ ∃ p ∈ s.parameters, ValuesOverflow s u p := by
  have hs := Snapshot.indexed_of_read h
  cases hproposals : proposals s u author with
  | ok proposed =>
    have hpairwise := pairwise_proposals hs.distinct hproposals
    have hentries : (Ledger.ofList proposed).entries = proposed := by
      rw [Ledger.entries_ofList, Ledger.survivors_eq_self hpairwise]
    refine .inl ⟨proposed, _, rfl, generate_eq_ok_iff.2 ⟨proposed, hproposals, rfl⟩, ?_, ?_⟩
    · exact isGenerated_of_entries_eq hs (hentries.symm ▸ hproposals)
    · exact fun _ _ _ hsplit => Ledger.evictedBy_ofList_eq_nil hpairwise hsplit
  | error cause =>
    obtain ⟨rfl, hoverflow⟩ := proposals_eq_error_iff.1 hproposals
    exact .inr ⟨map_eq_error_iff.2 hproposals, hoverflow⟩

/-- A ledger generated for a printed document. -/
theorem exists_generate_pretty {v : Json} (hv : v.isFaithful = true) {P : Ledger → Bool}
    (h : (Snapshot.ofJson v).toOption.any
      (fun s => (generate s u author).toOption.any P) = true) :
    ∃ s l, Snapshot.read v.pretty = .ok s ∧ generate s u author = .ok l ∧ P l = true := by
  obtain ⟨s, hread, h⟩ := Snapshot.exists_read_pretty hv h
  obtain ⟨l, hl, hP⟩ := exists_eq_ok_of_any h
  exact ⟨s, l, hread, hl, hP⟩

/-- A document of a class and of a function with a default and a value set. -/
def usedLibrary : Json :=
  .object [("distribution", .text "lib"), ("package", .text "lib"), ("version", .text "1.0"),
    ("classes", .array [.object [("id", .text "lib/A"), ("qname", .text "lib.A")]]),
    ("functions", .array [.object [("id", .text "lib/f"), ("qname", .text "lib.f"),
      ("parameters", .array [.text "lib/f/p", .text "lib/f/q"])]]),
    ("parameters", .array [
      .object [("id", .text "lib/f/p"), ("qname", .text "lib.f.p"), ("default_value", .text "1")],
      .object [("id", .text "lib/f/q"), ("qname", .text "lib.f.q"),
        ("docstring", .object [("type", .text "\x7b'a', 'b'\x7d")])]])]

/-- Two calls of the function, which pass two values for one parameter and none for the other. -/
def twoCalls : UsageCounts :=
  { functions := [("lib/f", 2)]
    parameters := [("lib/f/p", 2), ("lib/f/q", 2)]
    values := [("lib/f/q", [("'a'", 1), ("'b'", 1)])] }

theorem generate_isGenerated_twoCalls :
    ∃ s proposed l, Snapshot.read usedLibrary.pretty = .ok s ∧
      proposals s twoCalls "me" = .ok proposed ∧ generate s twoCalls "me" = .ok l ∧
      IsGenerated s twoCalls "me" l ∧
      (∀ before a after, proposed = before ++ a :: after →
        (Ledger.ofList before).evictedBy a = []) ∧
      l.entries.map (fun a => (a.target, a.kind)) =
        [("lib/A", .remove), ("lib/f/p", .constant), ("lib/f/q", .enumeration)] := by
  have hgenerates : (Snapshot.ofJson usedLibrary).toOption.any (fun s =>
      (generate s twoCalls "me").toOption.any fun l =>
        l.entries.map (fun a => (a.target, a.kind)) =
          [("lib/A", .remove), ("lib/f/p", .constant), ("lib/f/q", .enumeration)]) = true := by
    decide +kernel
  obtain ⟨s, l, hread, hl, hentries⟩ := exists_generate_pretty (by decide) hgenerates
  rcases generate_isGenerated hread twoCalls "me" with
    ⟨proposed, l', hproposed, hl', hgenerated, hkept⟩ | ⟨hfail, -⟩
  · obtain rfl := Except.ok.inj (hl.symm.trans hl')
    exact ⟨s, proposed, l, hread, hproposed, hl, hgenerated, hkept, of_decide_eq_true hentries⟩
  · cases hl.symm.trans hfail

end ApiEvolution
