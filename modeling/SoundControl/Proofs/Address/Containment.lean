import SoundControl.Proofs.Address.NormalForm
import SoundControl.Route

/-! # Containment and union of paths

Containment is decided atom by atom: patterns have to be listed, literals have to be covered. It is
sound for the addresses covered, and an order whose join is the union.

* **`Path.covers_iff`** — an address is covered as a literal that is listed or by a pattern.
* **`Path.contains_iff`** — containment said of patterns and literals.
* **`Path.covers_of_contains`**, **`Path.contains_trans`**, **`Path.Normal.contains_antisymm`** —
  containment is sound and an order.
* **`Path.covers_union`**, **`Path.contains_of_union`** — the addresses and the containers of a union.
* **`contains_partialOrder`**, **`union_join`** — both together, for the paths that can be made. -/

namespace SoundControl

/-- A containing signature accepts what the contained one accepts. -/
theorem TypeSpec.accepts_of_contains {spec other : TypeSpec} {arguments : List Wire.Argument}
    (contained : spec.contains other = true) (fits : other.accepts arguments = true) :
    spec.accepts arguments = true := by
  rw [contains, Bool.or_eq_true] at contained
  rcases contained with all | same
  · obtain rfl : spec = anyArgs := by simpa [isAnyArgs] using all
    rfl
  · obtain rfl : spec = other := by simpa using same
    exact fits

namespace Address

namespace Path

variable {a b c : Path} {address : String}

/-! ## Addresses covered -/

/-- The path of all addresses covers each. -/
theorem covers_of_isAny (all : a.isAny = true) : a.covers address = true := by
  rw [eq_any_of_isAny all]
  rfl

/-- What is covered is covered by an atom. -/
theorem covers_iff_exists_atom (notAny : a.isAny = false) :
    a.covers address = true ↔ ∃ atom ∈ a.atoms, atom.covers address = true := by
  cases a with
  | any => simp [isAny] at notAny
  | single atom => simp [covers, atoms]
  | several union => simp [covers, atoms]

/-- **An address is covered** if it is listed as a literal or a listed pattern matches it. -/
theorem covers_iff (notAny : a.isAny = false) : a.covers address = true ↔
    .literal address ∈ a.atoms ∨ PatternCovers a.atoms address := by
  rw [covers_iff_exists_atom notAny]
  constructor
  · rintro ⟨atom, listed, covered⟩
    cases atom with
    | literal text =>
      obtain rfl : text = address := by simpa [Atom.covers] using covered
      exact .inl listed
    | pattern p => exact .inr ⟨p, listed, covered⟩
  · rintro (listed | ⟨p, listed, covered⟩)
    · exact ⟨_, listed, by simp [Atom.covers]⟩
    · exact ⟨_, listed, covered⟩

/-! ## Containment -/

/-- The path of all addresses contains every atom. -/
theorem containsAtom_of_isAny (all : a.isAny = true) (atom : Atom) : a.containsAtom atom = true := by
  cases atom with
  | literal text => exact covers_of_isAny all
  | pattern p => simp [containsAtom, all]

/-- The path of all addresses contains every path. -/
theorem contains_of_isAny (all : a.isAny = true) : a.contains b = true := by
  cases b with
  | any => exact all
  | single atom => exact containsAtom_of_isAny all atom
  | several union => simp [contains, all]

/-- What is not the path of all addresses is contained atom by atom. -/
theorem contains_iff_forall_atom (notAny : b.isAny = false) :
    a.contains b = true ↔ ∀ atom ∈ b.atoms, a.containsAtom atom = true := by
  cases b with
  | any => simp [isAny] at notAny
  | single atom => simp [contains, atoms]
  | several union =>
    cases all : a.isAny with
    | true => simp [contains, all, containsAtom_of_isAny all]
    | false => simp [contains, all, atoms]

/-- **Containment in anything else:** the patterns are listed and the literals covered. -/
theorem contains_iff (notAny : a.isAny = false) : a.contains b = true ↔ b.isAny = false ∧
    (∀ p, .pattern p ∈ b.atoms → .pattern p ∈ a.atoms) ∧
    ∀ text, .literal text ∈ b.atoms → a.covers text = true := by
  have pattern_contained (p : Pattern) :
      a.containsAtom (.pattern p) = true ↔ .pattern p ∈ a.atoms := by
    simp [containsAtom, notAny]
  have by_atoms : a.contains b = true ↔
      b.isAny = false ∧ ∀ atom ∈ b.atoms, a.containsAtom atom = true := by
    cases all : b.isAny with
    | true =>
      rw [eq_any_of_isAny all, contains, notAny]
      simp
    | false => rw [contains_iff_forall_atom all, and_iff_right rfl]
  rw [by_atoms]
  refine and_congr_right fun _ => ⟨fun contained => ⟨fun p listed => ?_, fun text listed => ?_⟩, ?_⟩
  · exact (pattern_contained p).1 (contained _ listed)
  · exact contained _ listed
  · rintro ⟨patterns, literals⟩ (text | p) listed
    · exact literals text listed
    · exact (pattern_contained p).2 (patterns p listed)

/-- What a contained pattern matches is matched by a pattern of the container. -/
theorem patternCovers_mono (patterns : ∀ p, .pattern p ∈ b.atoms → .pattern p ∈ a.atoms)
    (covered : PatternCovers b.atoms address) : PatternCovers a.atoms address :=
  covered.imp fun p listed => ⟨patterns p listed.1, listed.2⟩

/-- **Containment is sound:** what a contained path covers is covered. -/
theorem covers_of_contains (contained : a.contains b = true) (covered : b.covers address = true) :
    a.covers address = true := by
  cases all : a.isAny with
  | true => exact covers_of_isAny all
  | false =>
    obtain ⟨notAny, patterns, literals⟩ := (contains_iff all).1 contained
    rcases (covers_iff notAny).1 covered with listed | matched
    · exact literals address listed
    · exact (covers_iff all).2 (.inr (patternCovers_mono patterns matched))

theorem contains_refl (a : Path) : a.contains a = true := by
  cases all : a.isAny with
  | true => exact contains_of_isAny all
  | false =>
    exact (contains_iff all).2 ⟨all, fun _ => id, fun text listed => (covers_iff all).2 (.inl listed)⟩

theorem contains_trans (hab : a.contains b = true) (hbc : b.contains c = true) :
    a.contains c = true := by
  cases all : a.isAny with
  | true => exact contains_of_isAny all
  | false =>
    obtain ⟨notAny, patterns, -⟩ := (contains_iff all).1 hab
    obtain ⟨notAny', patterns', literals'⟩ := (contains_iff notAny).1 hbc
    exact (contains_iff all).2 ⟨notAny', fun p listed => patterns p (patterns' p listed),
      fun text listed => covers_of_contains hab (literals' text listed)⟩

/-- A literal of a contained path in normal form is listed, not matched, if the patterns are the
same. -/
theorem Normal.literal_listed (hb : b.Normal) (notAny : a.isAny = false) {text : String}
    (patterns : ∀ p, .pattern p ∈ a.atoms → .pattern p ∈ b.atoms)
    (covered : a.covers text = true) (listed : .literal text ∈ b.atoms) :
    .literal text ∈ a.atoms := by
  rcases (covers_iff notAny).1 covered with here | matched
  · exact here
  · exact absurd (patternCovers_mono patterns matched) (hb.reduced.apart text listed)

/-- **Paths in normal form that contain each other are equal.** -/
theorem Normal.contains_antisymm (ha : a.Normal) (hb : b.Normal) (hab : a.contains b = true)
    (hba : b.contains a = true) : a = b := by
  cases all : a.isAny with
  | true =>
    obtain rfl := eq_any_of_isAny all
    exact (eq_any_of_isAny hba).symm
  | false =>
    obtain ⟨notAny, patterns, literals⟩ := (contains_iff all).1 hab
    obtain ⟨-, patterns', literals'⟩ := (contains_iff notAny).1 hba
    refine ha.ext hb (all.trans notAny.symm) fun _ atom => ?_
    cases atom with
    | pattern p => exact ⟨patterns' p, patterns p⟩
    | literal text =>
      exact ⟨fun listed => ha.literal_listed notAny patterns (literals' text listed) listed,
        fun listed => hb.literal_listed all patterns' (literals text listed) listed⟩

/-! ## Union -/

/-- **A union covers what either side covers.** -/
theorem covers_union : (a.union b).covers address = true ↔
    a.covers address = true ∨ b.covers address = true := by
  cases all : (a.union b).isAny with
  | true =>
    refine iff_of_true (covers_of_isAny all) ?_
    rw [isAny_union, Bool.or_eq_true] at all
    exact all.imp covers_of_isAny covers_of_isAny
  | false =>
    obtain ⟨notAnyA, notAnyB⟩ : a.isAny = false ∧ b.isAny = false := by
      rwa [isAny_union, Bool.or_eq_false_iff] at all
    rw [covers_iff all, covers_iff notAnyA, covers_iff notAnyB, mem_atoms_union_literal all,
      patternCovers_union all]
    -- A literal that is not kept is matched by a pattern that is.
    by_cases matched : PatternCovers a.atoms address ∨ PatternCovers b.atoms address <;> tauto

/-- **A path contains a union if and only if it contains both sides.** -/
theorem contains_of_union :
    c.contains (a.union b) = true ↔ c.contains a = true ∧ c.contains b = true := by
  cases all : c.isAny with
  | true => simp [contains_of_isAny all]
  | false =>
    rw [contains_iff all, contains_iff all, contains_iff all, isAny_union, Bool.or_eq_false_iff]
    constructor
    · rintro ⟨⟨notAnyA, notAnyB⟩, patterns, literals⟩
      have notAny : (a.union b).isAny = false := by simp [notAnyA, notAnyB]
      have covered (text : String) (listed : .literal text ∈ a.atoms ∨ .literal text ∈ b.atoms) :
          c.covers text = true := by
        by_cases matched : PatternCovers a.atoms text ∨ PatternCovers b.atoms text
        · rw [← patternCovers_union notAny] at matched
          exact (covers_iff all).2 (.inr (patternCovers_mono patterns matched))
        · exact literals text ((mem_atoms_union_literal notAny).2 ⟨listed, matched⟩)
      exact ⟨⟨notAnyA, fun p listed => patterns p ((mem_atoms_union_pattern notAny).2 (.inl listed)),
          fun text listed => covered text (.inl listed)⟩,
        notAnyB, fun p listed => patterns p ((mem_atoms_union_pattern notAny).2 (.inr listed)),
          fun text listed => covered text (.inr listed)⟩
    · rintro ⟨⟨notAnyA, patternsA, literalsA⟩, notAnyB, patternsB, literalsB⟩
      have notAny : (a.union b).isAny = false := by simp [notAnyA, notAnyB]
      refine ⟨⟨notAnyA, notAnyB⟩, fun p listed => ?_, fun text listed => ?_⟩
      · exact ((mem_atoms_union_pattern notAny).1 listed).elim (patternsA p) (patternsB p)
      · exact ((mem_atoms_union_literal notAny).1 listed).1.elim (literalsA text) (literalsB text)

/-- Paths in normal form with the same containers are equal. -/
theorem Normal.eq_of_containers (ha : a.Normal) (hb : b.Normal)
    (same : ∀ c : Path, c.contains a = true ↔ c.contains b = true) : a = b :=
  ha.contains_antisymm hb ((same a).1 a.contains_refl) ((same b).2 b.contains_refl)

end Path

/-! ## The paths that can be made -/

/-- **Containment is sound and a partial order,** on the paths that can be made, and hence sound for
the messages of routes. -/
theorem contains_partialOrder {a b : Path} (ha : a.Built) (hb : b.Built) :
    (a.contains b = true → ∀ address, b.covers address = true → a.covers address = true) ∧
    a.contains a = true ∧
    (∀ c, a.contains b = true → b.contains c = true → a.contains c = true) ∧
    (a.contains b = true → b.contains a = true → a = b) ∧
    ∀ spec spec' : TypeSpec, (Route.mk a spec).contains ⟨b, spec'⟩ = true →
      ∀ address arguments, (Route.mk b spec').accepts address arguments = true →
        (Route.mk a spec).accepts address arguments = true := by
  refine ⟨fun contained _ => Path.covers_of_contains contained, a.contains_refl,
    fun _ => Path.contains_trans, ha.normal.contains_antisymm hb.normal, ?_⟩
  intro spec spec' contained address arguments accepted
  obtain ⟨paths, specs⟩ := Bool.and_eq_true_iff.1 contained
  obtain ⟨covered, fits⟩ := Bool.and_eq_true_iff.1 accepted
  exact Bool.and_eq_true_iff.2
    ⟨Path.covers_of_contains paths covered, TypeSpec.accepts_of_contains specs fits⟩

/-- A union of a pattern and a literal, one of literals, and a literal in the order of containment. -/
theorem partialOrder_of_three_paths :
    let a := (Path.single (.pattern ⟨"/a*", [.parts [.literal ['a'], .wildcard]], by rfl⟩)).union
      (.single (.literal "/z"))
    let b := (Path.single (.literal "/z")).union (.single (.literal "/ab"))
    let c := Path.single (.literal "/ab")
    (a.Built ∧ b.Built) ∧ (a.contains b = true ∧ b.contains c = true) ∧
      (∀ address, b.covers address = true → a.covers address = true) ∧ a.contains c = true ∧
      (∀ arguments, (Route.mk b (.typed .int32 [])).accepts "/ab" arguments = true →
        (Route.mk a .anyArgs).accepts "/ab" arguments = true) := by
  intro a b c
  have ha : a.Built :=
    .union (@Path.Built.parsed "/a*" _ (by rfl)) (@Path.Built.parsed "/z" _ (by rfl))
  have hb : b.Built :=
    .union (@Path.Built.parsed "/z" _ (by rfl)) (@Path.Built.parsed "/ab" _ (by rfl))
  have hab : a.contains b = true := by decide +kernel
  have hbc : b.contains c = true := by decide +kernel
  obtain ⟨sound, -, transitive, -, routes⟩ := contains_partialOrder ha hb
  exact ⟨⟨ha, hb⟩, ⟨hab, hbc⟩, sound hab, transitive c hab hbc,
    routes _ _ (Bool.and_eq_true_iff.2 ⟨hab, rfl⟩) "/ab"⟩

/-- **Union is the join of containment and adds no address,** on the paths that can be made. The
members of a union are atoms, neither unions themselves nor the path of all addresses. -/
theorem union_join {a b c : Path} (ha : a.Built) (hb : b.Built) (hc : c.Built) :
    (∀ address, (a.union b).covers address = true ↔
      a.covers address = true ∨ b.covers address = true) ∧
    a.union b = b.union a ∧ (a.union b).union c = a.union (b.union c) ∧ a.union a = a ∧
    (a.union b).contains a = true ∧ (a.union b).contains b = true ∧
    (c.contains a = true → c.contains b = true → c.contains (a.union b) = true) ∧
    ∀ members, a = .several members → 2 ≤ members.atoms.length ∧ Ascending members.atoms ∧
      ∀ text p, .literal text ∈ members.atoms → .pattern p ∈ members.atoms →
        p.covers text = false := by
  have both := Path.contains_of_union.1 (a.union b).contains_refl
  refine ⟨fun _ => Path.covers_union, ?_, ?_, ?_, both.1, both.2,
    fun overA overB => Path.contains_of_union.2 ⟨overA, overB⟩, ?_⟩
  -- Paths are equal as soon as the same paths contain them.
  · exact (ha.union hb).normal.eq_of_containers (hb.union ha).normal fun d => by
      simp only [Path.contains_of_union, and_comm]
  · exact ((ha.union hb).union hc).normal.eq_of_containers (ha.union (hb.union hc)).normal fun d => by
      simp only [Path.contains_of_union, and_assoc]
  · exact (ha.union ha).normal.eq_of_containers ha.normal fun d => by
      simp only [Path.contains_of_union, and_self]
  · rintro members rfl
    have reduced : Reduced members.atoms := ha.normal
    refine ⟨members.two, reduced.ascending, fun text p literal pattern => ?_⟩
    exact Bool.eq_false_iff.2 fun covered => reduced.apart text literal ⟨p, pattern, covered⟩

/-- A union drops the literal that its pattern matches and keeps the other one. -/
theorem union_of_pattern_and_literals :
    let star := Path.single (.pattern ⟨"/a*", [.parts [.literal ['a'], .wildcard]], by rfl⟩)
    let a := star.union (.single (.literal "/z"))
    let b := Path.single (.literal "/ab")
    let c := Path.any
    (a.Built ∧ b.Built ∧ c.Built) ∧ a.union b = b.union a ∧ a.union b = a ∧
      (∀ address, (a.union b).covers address = true ↔
        a.covers address = true ∨ b.covers address = true) ∧
      c.contains (a.union b) = true := by
  intro star a b c
  have ha : a.Built :=
    .union (@Path.Built.parsed "/a*" _ (by rfl)) (@Path.Built.parsed "/z" _ (by rfl))
  have hb : b.Built := @Path.Built.parsed "/ab" _ (by rfl)
  obtain ⟨covers, comm, -, -, -, -, least, -⟩ := union_join ha hb Path.Built.any
  exact ⟨⟨ha, hb, .any⟩, comm, by decide +kernel, covers, least rfl rfl⟩

end Address

end SoundControl
