import SoundControl.Proofs.Address.Containment
import SoundControl.Proofs.Address.Literal
import SoundControl.Proofs.Address.Printable
import SoundControl.Proofs.Address.Slashes

/-! # Routes that overlap

Two paths overlap if some address is covered by both.  Whether two routes do is decided without
searching for an address: by containment, and by trying the texts that stand for one path as
addresses of the other.  The text of a literal is the one address that it covers, so a literal is
judged rightly.  The text of a pattern need not be an address that it covers, and two patterns can
share addresses that are the text of neither: with a pattern on each side, both answers can be wrong.

* **`Pattern.exists_covers`**, **`Path.exists_covers`** — patterns and paths cover some address.
* **`Plain`**, **`Pattern.covers_source`** — a pattern of stars, question marks and traversals covers
  its own text.
* **`Path.Overlaps`**, **`Path.SharesLiteral`**, **`Path.PatternPair`** — a common address, and where
  it can come from.
* **`Path.overlaps_iff`**, **`Route.intersects_iff`** — what there is, and what is answered.
* **`Route.intersects_decides`** — when the answer is wrong. -/

namespace SoundControl

namespace Address

/-! ## There is an address to cover -/

/-- Productions that can be read match some text. -/
theorem Token.exists_matchesEach {tokens : List Token}
    (each : ∀ token ∈ tokens, token.WellFormed ∧ token.Inside) : ∃ piece, MatchesEach tokens piece := by
  induction tokens with
  | nil => exact ⟨[], .nil⟩
  | cons token tokens ih =>
    obtain ⟨⟨wellFormed, inside⟩, others⟩ := List.forall_mem_cons.1 each
    obtain ⟨piece, own, -⟩ := exists_matches_without_slash wellFormed inside
    obtain ⟨rest, behind⟩ := ih others
    exact ⟨piece ++ rest, .cons own behind⟩

/-- Segments that can be read match some address. -/
theorem exists_matchesAll {segments : List Segment}
    (each : ∀ tokens, .parts tokens ∈ segments →
      ∀ token ∈ tokens, token.WellFormed ∧ token.Inside) : ∃ address, MatchesAll segments address := by
  induction segments with
  | nil => exact ⟨[], .nil⟩
  | cons segment segments ih =>
    obtain ⟨rest, behind⟩ := ih fun tokens listed => each tokens (List.mem_cons_of_mem _ listed)
    cases segment with
    | traverse => exact ⟨[] ++ rest, .cons (.traverse .nil) behind⟩
    | parts tokens =>
      obtain ⟨piece, own⟩ := Token.exists_matchesEach (each tokens List.mem_cons_self)
      exact ⟨'/' :: piece ++ rest, .cons (.parts own) behind⟩

/-- **Every pattern covers some address.** -/
theorem Pattern.exists_covers (p : Pattern) : ∃ address : String, p.covers address = true := by
  obtain ⟨written, -⟩ := written_of_parse p.parse_source
  obtain ⟨address, covered⟩ := exists_matchesAll fun _ listed => written.tokens listed
  refine ⟨String.ofList address, (p.covers_iff _).2 ?_⟩
  rwa [String.toList_ofList]

/-- **Every path covers some address.** -/
theorem Path.exists_covers (a : Path) : ∃ address : String, a.covers address = true := by
  cases all : a.isAny with
  | true => exact ⟨"", covers_of_isAny all⟩
  | false =>
    obtain ⟨atom, listed⟩ := List.exists_mem_of_ne_nil _ (Path.atoms_ne_nil all)
    cases atom with
    | literal text => exact ⟨text, (covers_iff all).2 (.inl listed)⟩
    | pattern p =>
      obtain ⟨address, covered⟩ := p.exists_covers
      exact ⟨address, (covers_iff all).2 (.inr ⟨p, listed, covered⟩)⟩

/-! ## Patterns that cover their own text -/

/-- **Written without escapes, lists and classes.** -/
def Plain (text : List Char) : Prop := ∀ c ∈ text, c ≠ '\\' ∧ c ≠ '{' ∧ c ≠ '['

instance (text : List Char) : Decidable (Plain text) := List.decidableBAll _ text

/-- Runs, stars and question marks match the letters that form them. -/
theorem Token.Formed.matches_self {token : Token} {letters : List Letter}
    (formed : token.Formed letters) (plain : Plain (meant letters)) : token.Matches (meant letters) := by
  cases formed with
  | literal => rfl
  | array => exact absurd rfl (plain '{' List.mem_cons_self).2.1
  | chars | negated => exact absurd rfl (plain '[' List.mem_cons_self).2.2
  | wildcard => exact ⟨List.cons_ne_nil _ _, by simp [meant]⟩
  | maybe => exact ⟨'?', rfl, by decide⟩

theorem Token.FormedEach.matches_self {tokens : List Token} {letters : List Letter}
    (formed : FormedEach tokens letters) (plain : Plain (meant letters)) :
    MatchesEach tokens (meant letters) := by
  induction formed with
  | nil => exact .nil
  | @cons token tokens letters rest first _ ih =>
    rw [meant, List.map_append] at plain ⊢
    obtain ⟨own, others⟩ := List.forall_mem_append.1 plain
    exact .cons (first.matches_self own) (ih others)

theorem Segment.Written.matches_self {segment : Segment} {text : List Char}
    (written : segment.Written text) (plain : Plain text) : segment.Matches ('/' :: text) := by
  cases written with
  | traverse => exact .traverse (Blocks.cons (List.forall_mem_nil _) .nil)
  | @parts tokens letters text _ formed spelled =>
    -- Without a backslash, the letters mean what is written.
    have same : unescape text = text :=
      unescape_eq_self_iff.2 fun escaped => (plain '\\' escaped).1 rfl
    rw [← same, spelled.unescape_eq] at plain ⊢
    exact .parts (formed.matches_self plain)

/-- **Plain segments match the text they are written as.** -/
theorem Written.matches_self {segments : List Segment} {source : List Char}
    (written : Written segments source) (plain : Plain source) : MatchesAll segments source := by
  induction written with
  | @last segment text written =>
    obtain ⟨-, own⟩ := List.forall_mem_cons.1 plain
    have ended : '/' :: text = ('/' :: text) ++ [] := (List.append_nil _).symm
    rw [ended]
    exact .cons (written.matches_self own) .nil
  | @cons segment segments text rest written _ ih =>
    obtain ⟨-, both⟩ := List.forall_mem_cons.1 plain
    obtain ⟨own, others⟩ := List.forall_mem_append.1 both
    rw [← List.cons_append]
    exact .cons (written.matches_self own) (ih others)

/-- **A plain pattern covers its own text.** -/
theorem Pattern.covers_source {p : Pattern} (plain : Plain p.source.toList) :
    p.covers p.source = true :=
  (p.covers_iff _).2 ((written_of_parse p.parse_source).1.matches_self plain)

/-! ## Common addresses -/

/-- **Some address is matched by both patterns.** -/
def Pattern.Overlaps (p q : Pattern) : Prop :=
  ∃ address : String, p.covers address = true ∧ q.covers address = true

/-- **One of two patterns matches the text that the other is written as.** -/
def Pattern.TakesText (p q : Pattern) : Prop := p.covers q.source = true ∨ q.covers p.source = true

namespace Path

variable {a b : Path} {R : Pattern → Pattern → Prop}

/-- **Some address is covered by both paths.** -/
def Overlaps (a b : Path) : Prop :=
  ∃ address : String, a.covers address = true ∧ b.covers address = true

theorem Overlaps.symm (common : a.Overlaps b) : b.Overlaps a :=
  common.imp fun _ => And.symm

/-- **A literal of one path is covered by the other.** -/
def SharesLiteral (a b : Path) : Prop :=
  (∃ text, .literal text ∈ a.atoms ∧ b.covers text = true) ∨
    ∃ text, .literal text ∈ b.atoms ∧ a.covers text = true

/-- **A pattern of one path and one of the other** are in a relation. -/
def PatternPair (R : Pattern → Pattern → Prop) (a b : Path) : Prop :=
  ∃ p q, .pattern p ∈ a.atoms ∧ .pattern q ∈ b.atoms ∧ R p q

/-- A path without patterns has no pattern to pair. -/
theorem not_patternPair (without : (∀ p, .pattern p ∉ a.atoms) ∨ ∀ q, .pattern q ∉ b.atoms) :
    ¬ PatternPair R a b := by
  rintro ⟨p, q, inA, inB, -⟩
  rcases without with without | without
  · exact without p inA
  · exact without q inB

/-- The path of all addresses has no pattern to pair. -/
theorem PatternPair.isAny_eq_false (pair : PatternPair R a b) :
    a.isAny = false ∧ b.isAny = false := by
  obtain ⟨p, q, inA, inB, -⟩ := pair
  have notAny {c : Path} {atom : Atom} (listed : atom ∈ c.atoms) : c.isAny = false := by
    cases c with
    | any => contradiction
    | single | several => rfl
  exact ⟨notAny inA, notAny inB⟩

/-- **Plain patterns that match each other's text overlap,** because each covers its own. -/
theorem PatternPair.overlaps_of_plain
    (plain : ∀ p, .pattern p ∈ a.atoms ∨ .pattern p ∈ b.atoms → Plain p.source.toList)
    (pair : PatternPair Pattern.TakesText a b) : PatternPair Pattern.Overlaps a b := by
  obtain ⟨p, q, inA, inB, taken | taken⟩ := pair
  · exact ⟨p, q, inA, inB, q.source, taken, Pattern.covers_source (plain q (.inr inB))⟩
  · exact ⟨p, q, inA, inB, p.source, Pattern.covers_source (plain p (.inl inA)), taken⟩

/-- What is contained in another path overlaps it. -/
theorem overlaps_of_contains (contained : a.contains b = true) : a.Overlaps b := by
  obtain ⟨address, covered⟩ := b.exists_covers
  exact ⟨address, covers_of_contains contained covered, covered⟩

/-- A literal that is shared is a common address. -/
theorem SharesLiteral.overlaps (notAnyA : a.isAny = false) (notAnyB : b.isAny = false)
    (shared : a.SharesLiteral b) : a.Overlaps b := by
  rcases shared with ⟨text, listed, covered⟩ | ⟨text, listed, covered⟩
  · exact ⟨text, (covers_iff notAnyA).2 (.inl listed), covered⟩
  · exact ⟨text, covered, (covers_iff notAnyB).2 (.inl listed)⟩

/-- **A common address** is a literal of one side, or matched by a pattern of each. -/
theorem overlaps_iff (notAnyA : a.isAny = false) (notAnyB : b.isAny = false) :
    a.Overlaps b ↔ a.SharesLiteral b ∨ PatternPair Pattern.Overlaps a b := by
  constructor
  · rintro ⟨address, coveredA, coveredB⟩
    rcases (covers_iff notAnyA).1 coveredA with literal | ⟨p, inA, matchedA⟩
    · exact .inl (.inl ⟨address, literal, coveredB⟩)
    rcases (covers_iff notAnyB).1 coveredB with literal | ⟨q, inB, matchedB⟩
    · exact .inl (.inr ⟨address, literal, coveredA⟩)
    · exact .inr ⟨p, q, inA, inB, address, matchedA, matchedB⟩
  · rintro (shared | ⟨p, q, inA, inB, address, matchedA, matchedB⟩)
    · exact shared.overlaps notAnyA notAnyB
    · exact ⟨address, (covers_iff notAnyA).2 (.inr ⟨p, inA, matchedA⟩),
        (covers_iff notAnyB).2 (.inr ⟨q, inB, matchedB⟩)⟩

/-- **Where a common address comes from,** the path of all addresses included. -/
theorem overlaps_iff_contains_or (a b : Path) :
    a.Overlaps b ↔ (a.contains b = true ∨ b.contains a = true) ∨ a.SharesLiteral b ∨
      PatternPair Pattern.Overlaps a b := by
  have of_contains : a.contains b = true ∨ b.contains a = true → a.Overlaps b := by
    rintro (contained | contained)
    · exact overlaps_of_contains contained
    · exact (overlaps_of_contains contained).symm
  -- The path of all addresses has no atoms to look at, but it contains whatever stands beside it.
  cases allA : a.isAny with
  | true =>
    have contained : a.contains b = true ∨ b.contains a = true := .inl (contains_of_isAny allA)
    exact iff_of_true (of_contains contained) (.inl contained)
  | false =>
    cases allB : b.isAny with
    | true =>
      have contained : a.contains b = true ∨ b.contains a = true := .inr (contains_of_isAny allB)
      exact iff_of_true (of_contains contained) (.inl contained)
    | false =>
      rw [← Path.overlaps_iff allA allB]
      exact ⟨.inr, fun common => common.elim of_contains id⟩

/-- The text of a pattern is no literal, so that it is covered by patterns only. -/
theorem Built.covers_source_iff (ha : a.Built) (hb : b.Built) (notAny : b.isAny = false) {p : Pattern}
    (listed : .pattern p ∈ a.atoms) :
    b.covers p.source = true ↔ ∃ q, .pattern q ∈ b.atoms ∧ q.covers p.source = true := by
  rw [covers_iff notAny]
  refine ⟨fun covered => covered.resolve_left fun literal => ?_, .inr⟩
  -- One text cannot be read both ways.
  have asPattern : Atom.parse p.source = .ok (.pattern p) := ha.parse_atom listed
  have asLiteral : Atom.parse p.source = .ok (.literal p.source) := hb.parse_atom literal
  rw [asPattern] at asLiteral
  exact Atom.noConfusion (Except.ok.inj asLiteral)

/-- **Trying the texts of one path** finds its literals, and patterns of the other that match the text
of one of its own. -/
theorem Built.any_addresses_iff (ha : a.Built) (hb : b.Built) (notAny : b.isAny = false) :
    a.addresses.any (fun text => b.covers text) = true ↔
      (∃ text, .literal text ∈ a.atoms ∧ b.covers text = true) ∨
        PatternPair (fun p q => q.covers p.source = true) a b := by
  rw [List.any_eq_true]
  constructor
  · rintro ⟨text, listed, covered⟩
    obtain ⟨atom, member, rfl⟩ := List.mem_map.1 listed
    cases atom with
    | literal text => exact .inl ⟨text, member, covered⟩
    | pattern p =>
      obtain ⟨q, second, matched⟩ := (ha.covers_source_iff hb notAny member).1 covered
      exact .inr ⟨p, q, member, second, matched⟩
  · rintro (⟨text, member, covered⟩ | ⟨p, q, member, second, matched⟩)
    · exact ⟨text, List.mem_map_of_mem (f := Atom.source) member, covered⟩
    · exact ⟨p.source, List.mem_map_of_mem (f := Atom.source) member,
        (ha.covers_source_iff hb notAny member).2 ⟨q, second, matched⟩⟩

/-- **Trying the texts of both paths** finds shared literals, and patterns that match each other's
text. -/
theorem Built.any_addresses_or_iff (ha : a.Built) (hb : b.Built) (notAnyA : a.isAny = false)
    (notAnyB : b.isAny = false) :
    a.addresses.any (fun text => b.covers text) = true ∨
      b.addresses.any (fun text => a.covers text) = true ↔
        a.SharesLiteral b ∨ PatternPair Pattern.TakesText a b := by
  rw [ha.any_addresses_iff hb notAnyB, hb.any_addresses_iff ha notAnyA]
  constructor
  · rintro ((textA | ⟨p, q, one, two, taken⟩) | (textB | ⟨q, p, two, one, taken⟩))
    · exact .inl (.inl textA)
    · exact .inr ⟨p, q, one, two, .inr taken⟩
    · exact .inl (.inr textB)
    · exact .inr ⟨p, q, one, two, .inl taken⟩
  · rintro ((textA | textB) | ⟨p, q, one, two, taken | taken⟩)
    · exact .inl (.inl textA)
    · exact .inr (.inl textB)
    · exact .inr (.inr ⟨q, p, two, one, taken⟩)
    · exact .inl (.inr ⟨p, q, one, two, taken⟩)

end Path

end Address

/-! ## The answer of routes -/

namespace Route

open Address

variable {a b : Path}

/-- The answer is the same from both sides. -/
theorem intersects_comm (a b : Path) (spec : TypeSpec) :
    (Route.mk a spec).intersects ⟨b, spec⟩ = (Route.mk b spec).intersects ⟨a, spec⟩ := by
  simp only [intersects]
  cases a.contains b <;> cases b.contains a <;> simp [Bool.or_comm]

/-- Containment is always found. -/
theorem intersects_of_contains (contained : a.contains b = true ∨ b.contains a = true)
    (spec : TypeSpec) : (Route.mk a spec).intersects ⟨b, spec⟩ = true := by
  rcases contained with contained | contained <;> simp [intersects, contained]

/-- **What is answered:** containment, a literal, or a pattern that matches the text of another. -/
theorem intersects_iff (ha : a.Built) (hb : b.Built) (spec : TypeSpec) :
    (Route.mk a spec).intersects ⟨b, spec⟩ = true ↔
      (a.contains b = true ∨ b.contains a = true) ∨ a.SharesLiteral b ∨
        Path.PatternPair Pattern.TakesText a b := by
  cases allA : a.isAny with
  | true =>
    have contained : a.contains b = true ∨ b.contains a = true := .inl (Path.contains_of_isAny allA)
    exact iff_of_true (intersects_of_contains contained spec) (.inl contained)
  | false =>
    cases allB : b.isAny with
    | true =>
      have contained : a.contains b = true ∨ b.contains a = true := .inr (Path.contains_of_isAny allB)
      exact iff_of_true (intersects_of_contains contained spec) (.inl contained)
    | false =>
      rw [← Path.Built.any_addresses_or_iff ha hb allA allB]
      simp [intersects, or_assoc]

/-- **When the answer is wrong.** Routes with one signature are asked whether some address is covered by
both.  They answer the same from both sides.  They deny a common address if and only if neither
contains the other, no literal of one is covered by the other, and two of their patterns share an
address but none matches the text of one on the other side.  They invent one if and only if no
literal and no two patterns give one, but a pattern matches the text of one on the other side.  So
the answer is right if one side has no patterns, and what is found is there if all patterns are
plain. -/
theorem intersects_decides (ha : a.Built) (hb : b.Built) (spec : TypeSpec) :
    (Route.mk a spec).intersects ⟨b, spec⟩ = (Route.mk b spec).intersects ⟨a, spec⟩ ∧
    ((Route.mk a spec).intersects ⟨b, spec⟩ = false ∧ a.Overlaps b ↔
      ¬ (a.contains b = true ∨ b.contains a = true) ∧ ¬ a.SharesLiteral b ∧
        Path.PatternPair Pattern.Overlaps a b ∧ ¬ Path.PatternPair Pattern.TakesText a b) ∧
    ((Route.mk a spec).intersects ⟨b, spec⟩ = true ∧ ¬ a.Overlaps b ↔
      ¬ a.SharesLiteral b ∧ ¬ Path.PatternPair Pattern.Overlaps a b ∧
        Path.PatternPair Pattern.TakesText a b) ∧
    ((∀ p, .pattern p ∉ a.atoms) ∨ (∀ q, .pattern q ∉ b.atoms) →
      ((Route.mk a spec).intersects ⟨b, spec⟩ = true ↔ a.Overlaps b)) ∧
    ((∀ p, .pattern p ∈ a.atoms ∨ .pattern p ∈ b.atoms → Plain p.source.toList) →
      (Route.mk a spec).intersects ⟨b, spec⟩ = true → a.Overlaps b) := by
  have answered := intersects_iff ha hb spec
  have common := Path.overlaps_iff_contains_or a b
  refine ⟨intersects_comm a b spec, ?_, ?_, ?_, ?_⟩
  · rw [← Bool.not_eq_true, answered, common]
    constructor
    · rintro ⟨denied, overlap⟩
      obtain ⟨apart, others⟩ := not_or.1 denied
      obtain ⟨noLiteral, noText⟩ := not_or.1 others
      exact ⟨apart, noLiteral, (overlap.resolve_left apart).resolve_left noLiteral, noText⟩
    · rintro ⟨apart, noLiteral, pair, noText⟩
      exact ⟨not_or.2 ⟨apart, not_or.2 ⟨noLiteral, noText⟩⟩, .inr (.inr pair)⟩
  · constructor
    · rintro ⟨found, invented⟩
      obtain ⟨apart, others⟩ := not_or.1 fun overlap => invented (common.2 overlap)
      obtain ⟨noLiteral, noPair⟩ := not_or.1 others
      exact ⟨noLiteral, noPair, ((answered.1 found).resolve_left apart).resolve_left noLiteral⟩
    · rintro ⟨noLiteral, noPair, taken⟩
      -- Where there are patterns, containment gives nothing else.
      obtain ⟨notAnyA, notAnyB⟩ := taken.isAny_eq_false
      refine ⟨answered.2 (.inr (.inr taken)), fun overlap => ?_⟩
      exact ((Path.overlaps_iff notAnyA notAnyB).1 overlap).elim noLiteral noPair
  · intro without
    rw [answered, common]
    simp only [Path.not_patternPair without]
  · intro plain found
    rw [common]
    exact (answered.1 found).imp_right (Or.imp_right (Path.PatternPair.overlaps_of_plain plain))

/-- A union with plain patterns on both sides, and one of literals against a class. -/
theorem intersects_decides_unions :
    let plain := (Path.single (.pattern ⟨"/a*", [.parts [.literal ['a'], .wildcard]], by rfl⟩)).union
      (.single (.literal "/c"))
    let plain' := (Path.single (.pattern ⟨"/a?", [.parts [.literal ['a'], .maybe]], by rfl⟩)).union
      (.single (.literal "/d"))
    let classed := Path.single (.pattern ⟨"/[ab]", [.parts [.chars false [('a', 'a'), ('b', 'b')]]],
      by rfl⟩)
    let literals := (Path.single (.literal "/b")).union (.single (.literal "/d"))
    let spec := TypeSpec.typed .int32 []
    (plain.Built ∧ plain'.Built ∧ classed.Built ∧ literals.Built) ∧
      ((∀ p, .pattern p ∈ plain.atoms ∨ .pattern p ∈ plain'.atoms → Plain p.source.toList) ∧
        (Route.mk plain spec).intersects ⟨plain', spec⟩ = true ∧ plain.Overlaps plain') ∧
      ((∀ q, .pattern q ∉ literals.atoms) ∧
        ((Route.mk classed spec).intersects ⟨literals, spec⟩ = true ↔ classed.Overlaps literals)) := by
  intro plain plain' classed literals spec
  have ha : plain.Built :=
    .union (@Path.Built.parsed "/a*" _ (by rfl)) (@Path.Built.parsed "/c" _ (by rfl))
  have hb : plain'.Built :=
    .union (@Path.Built.parsed "/a?" _ (by rfl)) (@Path.Built.parsed "/d" _ (by rfl))
  have hc : classed.Built := @Path.Built.parsed "/[ab]" _ (by rfl)
  have hd : literals.Built :=
    .union (@Path.Built.parsed "/b" _ (by rfl)) (@Path.Built.parsed "/d" _ (by rfl))
  have found : (Route.mk plain spec).intersects ⟨plain', spec⟩ = true := by decide +kernel
  have written : ∀ atom ∈ plain.atoms ++ plain'.atoms, Plain atom.source.toList := by
    decide +kernel
  have each : ∀ p, .pattern p ∈ plain.atoms ∨ .pattern p ∈ plain'.atoms → Plain p.source.toList :=
    fun p listed => written (.pattern p) (List.mem_append.2 listed)
  have without : ∀ q, .pattern q ∉ literals.atoms := by
    have only : ∀ atom ∈ literals.atoms, atom.isPattern = false := by decide +kernel
    exact fun q listed => Bool.noConfusion (only _ listed)
  obtain ⟨-, -, -, -, sound⟩ := intersects_decides ha hb spec
  obtain ⟨-, -, -, decides, -⟩ := intersects_decides hc hd spec
  exact ⟨⟨ha, hb, hc, hd⟩, ⟨each, found, sound each found⟩, without, decides (.inr without)⟩

/-- **A common address is missed, and one is invented.** Two patterns share the address `/ab`, which is
the text of neither; and a pattern matches the text of another, whose only address it does not
cover. -/
theorem overlap_missed_and_invented :
    let spec := TypeSpec.typed .int32 []
    (∃ a b : Path, Path.parse "/a*" = .ok a ∧ Path.parse "/*b" = .ok b ∧
      (Route.mk a spec).intersects ⟨b, spec⟩ = false ∧
        a.covers "/ab" = true ∧ b.covers "/ab" = true) ∧
    ∃ a b : Path, Path.parse "/\x7ba\x7d" = .ok a ∧ Path.parse "/???" = .ok b ∧
      (Route.mk a spec).intersects ⟨b, spec⟩ = true ∧ ¬ a.Overlaps b := by
  refine ⟨⟨_, _, by rfl, by rfl, by rfl, by rfl, by rfl⟩, _, _, by rfl, by rfl, by rfl, ?_⟩
  rintro ⟨address, coveredA, coveredB⟩
  have matched : MatchesAll [.parts [.array [['a']]]] address.toList := (matchesAll_iff _ _).1 coveredA
  have only : address.toList = ['/', 'a'] := by
    simpa [matchesAll_cons, matchesAll_nil, Segment.matches_parts_iff, Token.matchesEach_cons,
      Token.matchesEach_nil, Token.Matches, Before] using matched
  have covered : matchesAll [.parts [.maybe, .maybe, .maybe]] address.toList = true := coveredB
  rw [only] at covered
  exact absurd covered (by decide)

end Route

end SoundControl
