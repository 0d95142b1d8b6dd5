import SoundControl.Proofs.Address.Matching
import SoundControl.Proofs.Address.Parsing
import SoundControl.Proofs.Address.RegexText
import Mathlib.Computability.Language

/-! # Compiled patterns mean what the grammar says

A pattern has three readings: the declarative one (`MatchesAll`), the language of the regular
expression it is compiled to, and the answer of the matcher. This file shows that they agree.

* **`Regex.language`** — the texts that an expression stands for.
* **`Token.items`**, **`Segment.items`** — what a production contributes to the expression, read
  back from its text.
* **`Token.WellFormed`** — what the reader of addresses ensures of a token; without it the text of a
  class or an array would not say what the token means.
* **`mem_language_segments`** — the expression of a pattern stands for the addresses that the pattern
  covers.
* **`compile_covers_iff`** — the three readings agree on every pattern that can be read. -/

namespace SoundControl.Address

open Computability

namespace Regex

/-! ## Languages -/

/-- **The texts that an expression stands for.** -/
def language : Regex → Language Char
  | empty => 1
  | one negated ranges => {text | ∃ c, text = [c] ∧ inRanges ranges c ≠ negated}
  | seq first second => first.language * second.language
  | either first second => first.language + second.language
  | optional body => 1 + body.language
  | star body => body.language∗
  | plus body => body.language * body.language∗

/-- A product of languages holds the texts that begin with one of the first and go on with one of
the second. -/
theorem mem_mul_iff_before {L M : Language Char} {cs : List Char} :
    cs ∈ L * M ↔ Before (· ∈ L) (· ∈ M) cs := by
  rw [Language.mem_mul]
  constructor
  · rintro ⟨piece, hpiece, rest, hrest, rfl⟩
    exact ⟨piece, rest, rfl, hpiece, hrest⟩
  · rintro ⟨piece, rest, rfl, hpiece, hrest⟩
    exact ⟨piece, hpiece, rest, hrest, rfl⟩

/-- No items stand for the empty text. -/
theorem language_sequence_nil : (sequence []).language = 1 := rfl

/-- A sequence stands for a text of its first item and then one of the others. -/
theorem language_sequence_cons (item : Regex) (items : List Regex) :
    (sequence (item :: items)).language = item.language * (sequence items).language := rfl

/-- A single item stands for its own texts. -/
theorem language_sequence_singleton (item : Regex) : (sequence [item]).language = item.language := by
  rw [language_sequence_cons, language_sequence_nil, mul_one]

/-- Two sequences one after the other. -/
theorem language_sequence_append (xs ys : List Regex) :
    (sequence (xs ++ ys)).language = (sequence xs).language * (sequence ys).language := by
  induction xs with
  | nil => rw [List.nil_append, language_sequence_nil, one_mul]
  | cons x xs ih => rw [List.cons_append, language_sequence_cons, ih, language_sequence_cons, mul_assoc]

/-- Several alternatives stand for the texts of any of them. -/
theorem mem_language_alternation {rs : List Regex} (hne : rs ≠ []) {text : List Char} :
    text ∈ (alternation rs).language ↔ ∃ r ∈ rs, text ∈ r.language := by
  induction rs with
  | nil => exact absurd rfl hne
  | cons r rs ih =>
    cases rs with
    | nil => simp [alternation]
    | cons s rs =>
      show text ∈ r.language + (alternation (s :: rs)).language ↔ _
      rw [Language.mem_add, ih (List.cons_ne_nil s rs)]
      exact (List.exists_mem_cons_iff (fun r => text ∈ r.language) r (s :: rs)).symm

/-- The expression of a single character. -/
def char (c : Char) : Regex := .one false [(c, c)]

/-- The expression of a character other than a slash. -/
def nonSlash : Regex := .one true [('/', '/')]

/-- A character lies in the range of itself only. -/
theorem inRanges_singleton (c d : Char) : inRanges [(c, c)] d = true ↔ d = c := by
  simp only [inRanges, List.any_cons, List.any_nil, Bool.or_false, Bool.and_eq_true,
    decide_eq_true_eq]
  constructor
  · rintro ⟨hlow, hhigh⟩
    exact Char.le_antisymm hhigh hlow
  · rintro rfl
    exact ⟨Char.le_refl d, Char.le_refl d⟩

/-- The expression of a character stands for that character. -/
theorem mem_language_char {c : Char} {text : List Char} :
    text ∈ (char c).language ↔ text = [c] := by
  show (∃ d, text = [d] ∧ inRanges [(c, c)] d ≠ false) ↔ text = [c]
  simp [inRanges_singleton]

/-- The expression of a character other than a slash stands for all of them. -/
theorem mem_language_nonSlash {text : List Char} :
    text ∈ nonSlash.language ↔ ∃ c, text = [c] ∧ c ≠ '/' := by
  show (∃ d, text = [d] ∧ inRanges [('/', '/')] d ≠ true) ↔ _
  simp [inRanges_singleton]

/-- Characters one after another stand for the text they make. -/
theorem mem_language_chars {text cs : List Char} :
    cs ∈ (sequence (text.map char)).language ↔ cs = text := by
  induction text generalizing cs with
  | nil => exact Language.mem_one cs
  | cons c text ih =>
    rw [List.map_cons, language_sequence_cons, Language.mem_mul]
    constructor
    · rintro ⟨_, hpiece, rest, hrest, rfl⟩
      rw [mem_language_char.mp hpiece, ih.mp hrest]
      rfl
    · rintro rfl
      exact ⟨[c], mem_language_char.mpr rfl, text, ih.mpr rfl, rfl⟩

/-- Repeated characters other than a slash make the texts without one. -/
theorem mem_language_star_nonSlash {text : List Char} :
    text ∈ (star nonSlash).language ↔ ∀ c ∈ text, c ≠ '/' := by
  show text ∈ nonSlash.language∗ ↔ _
  rw [Language.mem_kstar]
  constructor
  · rintro ⟨pieces, rfl, hpieces⟩ c hc
    obtain ⟨piece, hpiece, hcpiece⟩ := List.mem_flatten.mp hc
    obtain ⟨d, rfl, hd⟩ := mem_language_nonSlash.mp (hpieces piece hpiece)
    rwa [List.mem_singleton.mp hcpiece]
  · intro htext
    refine ⟨text.map fun c => [c], ?_, ?_⟩
    · rw [← List.flatMap_def, List.flatMap_singleton']
    · intro piece hpiece
      obtain ⟨c, hc, rfl⟩ := List.mem_map.mp hpiece
      exact mem_language_nonSlash.mpr ⟨c, rfl, htext c hc⟩

/-- One character other than a slash or more make the texts of a wildcard. -/
theorem mem_language_plus_nonSlash {text : List Char} :
    text ∈ (plus nonSlash).language ↔ text ≠ [] ∧ ∀ c ∈ text, c ≠ '/' := by
  show text ∈ nonSlash.language * nonSlash.language∗ ↔ _
  rw [Language.mem_mul]
  constructor
  · rintro ⟨_, hfirst, rest, hrest, rfl⟩
    obtain ⟨c, rfl, hc⟩ := mem_language_nonSlash.mp hfirst
    refine ⟨List.cons_ne_nil c rest, ?_⟩
    exact List.forall_mem_cons.mpr ⟨hc, mem_language_star_nonSlash.mp hrest⟩
  · rintro ⟨hne, htext⟩
    obtain ⟨c, rest, rfl⟩ := List.exists_cons_of_ne_nil hne
    obtain ⟨hc, hrest⟩ := List.forall_mem_cons.mp htext
    exact ⟨[c], mem_language_nonSlash.mpr ⟨c, rfl, hc⟩, rest,
      mem_language_star_nonSlash.mpr hrest, rfl⟩

/-- A slash and then anything without one, any number of times over, is a row of blocks. -/
theorem mem_language_traverse {text : List Char} :
    text ∈ (star (sequence [char '/', star nonSlash])).language ↔ Blocks text := by
  have hblock : ∀ block, block ∈ (sequence [char '/', star nonSlash]).language ↔
      ∃ name, block = '/' :: name ∧ ∀ c ∈ name, c ≠ '/' := by
    intro block
    rw [language_sequence_cons, language_sequence_singleton, Language.mem_mul]
    constructor
    · rintro ⟨_, hslash, name, hname, rfl⟩
      rw [mem_language_char.mp hslash]
      exact ⟨name, rfl, mem_language_star_nonSlash.mp hname⟩
    · rintro ⟨name, rfl, hname⟩
      exact ⟨['/'], mem_language_char.mpr rfl, name, mem_language_star_nonSlash.mpr hname, rfl⟩
  show text ∈ (sequence [char '/', star nonSlash]).language∗ ↔ _
  rw [Language.mem_kstar]
  constructor
  · -- The pieces that are repeated are the blocks, so both directions go block by block.
    rintro ⟨blocks, rfl, hblocks⟩
    induction blocks with
    | nil => exact .nil
    | cons block blocks ih =>
      obtain ⟨name, rfl, hname⟩ := (hblock block).mp (hblocks block List.mem_cons_self)
      exact .cons hname (ih fun b hb => hblocks b (List.mem_cons_of_mem _ hb))
  · intro htext
    induction htext with
    | nil => exact ⟨[], rfl, by simp⟩
    | cons hname _ ih =>
      obtain ⟨blocks, rfl, hblocks⟩ := ih
      refine ⟨('/' :: _) :: blocks, rfl, ?_⟩
      intro block hmem
      rcases List.mem_cons.mp hmem with rfl | hmem
      · exact (hblock _).mpr ⟨_, rfl, hname⟩
      · exact hblocks block hmem

end Regex

/-! ## What productions contribute -/

/-- **The items of a token.** -/
def Token.items : Token → List Regex
  | .literal text => text.map Regex.char
  | .array items =>
    let filled := items.filter (· ≠ [])
    let group := Regex.alternation (filled.map fun item => Regex.sequence (item.map Regex.char))
    if filled.isEmpty then [] else if items.contains [] then [.optional group] else [group]
  | .chars false ranges => [.one false ranges]
  | .chars true ranges => [.one true (('/', '/') :: ranges)]
  | .wildcard => [.plus Regex.nonSlash]
  | .maybe => [Regex.nonSlash]

/-- **The items of a segment.** -/
def Segment.items : Segment → List Regex
  | .traverse => [.star (Regex.sequence [Regex.char '/', .star Regex.nonSlash])]
  | .parts tokens => Regex.char '/' :: tokens.flatMap Token.items

/-- **What the reader of addresses ensures of a token**: an array lists something, and a class has
ranges, none of them reversed. -/
def Token.WellFormed : Token → Prop
  | .array items => items ≠ []
  | .chars _ ranges => ranges ≠ [] ∧ ∀ r ∈ ranges, r.1 ≤ r.2
  | _ => True

/-- What the reader of addresses ensures of a segment. -/
def Segment.WellFormed : Segment → Prop
  | .traverse => True
  | .parts tokens => ∀ token ∈ tokens, token.WellFormed

/-! ## The language of the items -/

/-- **The items of an array stand for what it lists**: the empty item, if it is listed, is what makes
the group of the others optional. -/
theorem mem_language_array {items : List (List Char)} (hne : items ≠ []) {piece : List Char} :
    piece ∈ (Regex.sequence (Token.array items).items).language ↔ piece ∈ items := by
  have hgroup : ∀ filled : List (List Char), filled ≠ [] →
      (piece ∈ (Regex.alternation
        (filled.map fun item => Regex.sequence (item.map Regex.char))).language ↔ piece ∈ filled) := by
    intro filled hfilled
    rw [Regex.mem_language_alternation (by simpa using hfilled)]
    simp [Regex.mem_language_chars]
  -- The empty item is left out of the group, and taken back by making the group optional.
  have hmem : piece ∈ items ↔ (piece = [] ∧ [] ∈ items) ∨ piece ∈ items.filter (· ≠ []) := by
    rw [List.mem_filter, decide_eq_true_eq]
    by_cases hpiece : piece = []
    · simp [hpiece]
    · simp [hpiece]
  rw [hmem, Token.items]
  by_cases hfilled : items.filter (· ≠ []) = []
  · -- Nothing but the empty item is listed.
    have hempty : [] ∈ items := by
      obtain ⟨item, hitem⟩ := List.exists_mem_of_ne_nil items hne
      have hitemEmpty : item = [] := by simpa using List.filter_eq_nil_iff.mp hfilled item hitem
      rwa [← hitemEmpty]
    simp only [hfilled, hempty, List.isEmpty_nil, if_true, Regex.language_sequence_nil,
      Language.mem_one, and_true, List.not_mem_nil, or_false]
  · have hnonempty : (items.filter (· ≠ [])).isEmpty = false := by
      simpa [List.isEmpty_iff] using hfilled
    by_cases hempty : [] ∈ items
    · have hcontains : items.contains [] = true := by simpa using hempty
      simp only [hnonempty, hcontains, if_true, Bool.false_eq_true, if_false,
        Regex.language_sequence_singleton, Regex.language, Language.mem_add, Language.mem_one,
        hgroup _ hfilled, hempty, and_true]
    · have hcontains : items.contains [] = false := by simpa using hempty
      simp only [hnonempty, hcontains, Bool.false_eq_true, if_false,
        Regex.language_sequence_singleton, hgroup _ hfilled, hempty, and_false, false_or]

/-- A class stands for the characters inside its ranges, or outside of them all. -/
theorem mem_language_one {negated : Bool} {ranges : List (Char × Char)} {piece : List Char} :
    piece ∈ (Regex.sequence [.one negated ranges]).language ↔
      ∃ c, piece = [c] ∧ inRanges ranges c ≠ negated := by
  rw [Regex.language_sequence_singleton]
  rfl

/-- **The items of a token stand for its pieces.** -/
theorem Token.mem_language_items {token : Token} (h : token.WellFormed) {piece : List Char} :
    piece ∈ (Regex.sequence token.items).language ↔ token.Matches piece := by
  match token with
  | .literal text => exact Regex.mem_language_chars
  | .array items => exact mem_language_array h
  | .chars false ranges =>
    rw [Token.items, mem_language_one]
    simp [Token.Matches]
  | .chars true ranges =>
    rw [Token.items, mem_language_one]
    -- The range in front keeps the slash out of a negated class.
    have hslash : ∀ c, inRanges (('/', '/') :: ranges) c ≠ true ↔
        c ≠ '/' ∧ ¬ inRanges ranges c = true := by
      intro c
      have hself := Regex.inRanges_singleton '/' c
      simp only [inRanges, List.any_cons, List.any_nil, Bool.or_false] at hself ⊢
      rw [ne_eq, Bool.or_eq_true, not_or, hself]
    simp only [hslash, Token.Matches]
  | .wildcard =>
    rw [Token.items, Regex.language_sequence_singleton]
    exact Regex.mem_language_plus_nonSlash
  | .maybe =>
    rw [Token.items, Regex.language_sequence_singleton]
    exact Regex.mem_language_nonSlash

/-- **The items of several tokens stand for the texts they match.** -/
theorem Token.mem_language_flatMap_items {tokens : List Token}
    (h : ∀ token ∈ tokens, token.WellFormed) {piece : List Char} :
    piece ∈ (Regex.sequence (tokens.flatMap Token.items)).language ↔
      Token.MatchesEach tokens piece := by
  induction tokens generalizing piece with
  | nil =>
    rw [Token.matchesEach_nil]
    exact Language.mem_one piece
  | cons token tokens ih =>
    have htoken : token.WellFormed := h token List.mem_cons_self
    have htokens : ∀ t ∈ tokens, t.WellFormed := fun t ht => h t (List.mem_cons_of_mem _ ht)
    rw [List.flatMap_cons, Regex.language_sequence_append, Regex.mem_mul_iff_before,
      Token.matchesEach_cons]
    simp only [Before, Token.mem_language_items htoken, ih htokens]

/-- **The items of a segment stand for its pieces.** -/
theorem Segment.mem_language_items {segment : Segment} (h : segment.WellFormed)
    {piece : List Char} :
    piece ∈ (Regex.sequence segment.items).language ↔ segment.Matches piece := by
  cases segment with
  | traverse =>
    rw [Segment.matches_traverse_iff, Segment.items, Regex.language_sequence_singleton]
    exact Regex.mem_language_traverse
  | parts tokens =>
    rw [Segment.matches_parts_iff, Segment.items, Regex.language_sequence_cons,
      Regex.mem_mul_iff_before]
    simp only [Before, Regex.mem_language_char, Token.mem_language_flatMap_items h]

/-- **The items of a pattern stand for the addresses it covers.** -/
theorem mem_language_segments {segments : List Segment}
    (h : ∀ segment ∈ segments, segment.WellFormed) {address : List Char} :
    address ∈ (Regex.sequence (segments.flatMap Segment.items)).language ↔
      MatchesAll segments address := by
  induction segments generalizing address with
  | nil =>
    rw [matchesAll_nil]
    exact Language.mem_one address
  | cons segment segments ih =>
    have hsegment : segment.WellFormed := h segment List.mem_cons_self
    have hsegments : ∀ s ∈ segments, s.WellFormed := fun s hs => h s (List.mem_cons_of_mem _ hs)
    rw [List.flatMap_cons, Regex.language_sequence_append, Regex.mem_mul_iff_before,
      matchesAll_cons]
    simp only [Before, Segment.mem_language_items hsegment, ih hsegments]

/-! ## The text of the items -/

/-- The text of a class of anything but a slash. -/
theorem spells_nonSlash :
    Regex.Lexes ['[', '^', '/', ']'] [.openClass true, .text '/', .sign ']'] ∧
      Regex.Parses [.openClass true, .text '/', .sign ']'] [Regex.nonSlash] := by
  constructor
  · intro rest
    simp [Regex.lex, Regex.signs, Function.comp_def]
  · have hranges : ∀ r ∈ [('/', '/')], r.1 ≤ r.2 := by simp
    exact Regex.parses_class true (List.cons_ne_nil _ _) hranges

/-- A literal text spells one item for each of its characters. -/
theorem spells_literal (text : List Char) :
    Regex.Spells (text.flatMap charText) (text.map Regex.char) := by
  rw [List.map_eq_flatMap]
  exact .flatMap fun c _ => ⟨_, Regex.lexes_charText c, Regex.parses_text c⟩

/-- Several texts in a group spell one item. -/
theorem spells_group {filled : List (List Char)} (hne : filled ≠ []) :
    ∃ ls, Regex.Lexes (['(', '?', ':'] ++ List.intercalate ['|'] (filled.map (·.flatMap charText)) ++
        [')']) ls ∧
      Regex.Parses ls
        [Regex.alternation (filled.map fun item => Regex.sequence (item.map Regex.char))] := by
  have hopen : Regex.Lexes ['(', '?', ':'] [.openGroup] := by
    intro rest
    simp [Regex.lex]
  have hclose : Regex.Lexes [')'] [.sign ')'] := Regex.lexes_sign (by decide)
  have hlex : ∀ item : List Char, Regex.Lexes (item.flatMap charText)
      (item.flatMap fun c => [Regex.Lexeme.text c]) :=
    Regex.Lexes.flatMap Regex.lexes_charText
  have hparse : ∀ item : List Char, Regex.Parses (item.flatMap fun c => [Regex.Lexeme.text c])
      (item.map Regex.char) := by
    intro item
    rw [List.map_eq_flatMap]
    exact Regex.Parses.flatMap Regex.parses_text item
  exact ⟨_, (hopen.append (Regex.Lexes.intercalate hlex filled)).append hclose,
    Regex.parses_group hparse hne⟩

/-- **The text of an array spells its items.** -/
theorem spells_array (items : List (List Char)) :
    Regex.Spells (Token.array items).regexText (Token.array items).items := by
  rw [Token.regexText, Token.items]
  by_cases hfilled : items.filter (· ≠ []) = []
  · simp only [hfilled, List.isEmpty_nil, if_true]
    exact .nil
  · have hnonempty : (items.filter (· ≠ [])).isEmpty = false := by
      simpa [List.isEmpty_iff] using hfilled
    obtain ⟨ls, hlex, hparse⟩ := spells_group hfilled
    simp only [hnonempty, Bool.false_eq_true, if_false]
    split
    · have hquestion : Regex.Lexes ['?'] [.sign '?'] := Regex.lexes_sign (by decide)
      exact ⟨_, hlex.append hquestion, hparse.repeated.2.2⟩
    · rw [List.append_nil]
      exact ⟨ls, hlex, hparse⟩

/-- The text of a negated class spells one item, which is not a slash either. -/
theorem spells_negated {ranges : List (Char × Char)} (h : ∀ r ∈ ranges, r.1 ≤ r.2) :
    Regex.Spells (['[', '^', '/'] ++ ranges.flatMap Address.rangeText ++ [']'])
      [.one true (('/', '/') :: ranges)] := by
  have hopen : Regex.Lexes ['[', '^', '/'] [.openClass true, .text '/'] := by
    intro rest
    simp [Regex.lex, Regex.signs, Function.comp_def]
  have hclose : Regex.Lexes [']'] [.sign ']'] := Regex.lexes_sign (by decide)
  have hslash : ∀ r ∈ ('/', '/') :: ranges, r.1 ≤ r.2 :=
    List.forall_mem_cons.mpr ⟨Char.le_refl '/', h⟩
  exact ⟨_, (hopen.append (Regex.Lexes.flatMap Regex.lexes_rangeText ranges)).append hclose,
    Regex.parses_class true (List.cons_ne_nil _ _) hslash⟩

/-- **The text of a token spells its items.** -/
theorem Token.spells_regexText {token : Token} (h : token.WellFormed) :
    Regex.Spells token.regexText token.items := by
  match token with
  | .literal text => exact spells_literal text
  | .array items => exact spells_array items
  | .chars false ranges => exact ⟨_, Regex.lexes_class h.1, Regex.parses_class false h.1 h.2⟩
  | .chars true ranges => exact spells_negated h.2
  | .wildcard =>
    obtain ⟨hlex, hparse⟩ := spells_nonSlash
    have hplus : Regex.Lexes ['+'] [.sign '+'] := Regex.lexes_sign (by decide)
    exact ⟨_, hlex.append hplus, hparse.repeated.2.1⟩
  | .maybe => exact ⟨_, spells_nonSlash⟩

/-- The text of a slash. -/
theorem spells_slash : Regex.Spells ['/'] [Regex.char '/'] :=
  ⟨_, Regex.lexes_char (by decide), Regex.parses_text '/'⟩

/-- The text of a traversal spells a repeated group of one alternative. -/
theorem spells_traverse : Regex.Spells Segment.traverse.regexText Segment.traverse.items := by
  have hblock : Regex.Parses
      ([.text '/'] ++ ([.openClass true, .text '/', .sign ']'] ++ [.sign '*']))
      ([Regex.char '/'] ++ [.star Regex.nonSlash]) :=
    (Regex.parses_text '/').append spells_nonSlash.2.repeated.1
  have hgroup := Regex.parses_group (fun _ : Unit => hblock) (List.cons_ne_nil () [])
  rw [List.map_singleton, List.map_singleton, List.intercalate_singleton] at hgroup
  refine ⟨_, ?_, hgroup.repeated.1⟩
  intro rest
  simp [Segment.regexText, Regex.lex, Regex.signs, Function.comp_def]

/-- **The text of a segment spells its items.** -/
theorem Segment.spells_regexText {segment : Segment} (h : segment.WellFormed) :
    Regex.Spells segment.regexText segment.items := by
  cases segment with
  | traverse => exact spells_traverse
  | parts tokens =>
    have htokens : Regex.Spells (tokens.flatMap Token.regexText) (tokens.flatMap Token.items) :=
      .flatMap fun token htoken => Token.spells_regexText (h token htoken)
    exact spells_slash.append htokens

/-- **The text of a pattern's expression is read as its items.** -/
theorem read_regexText {segments : List Segment} (h : ∀ segment ∈ segments, segment.WellFormed) :
    Regex.read (regexText segments) = some (Regex.sequence (segments.flatMap Segment.items)) := by
  have hsegments : Regex.Spells (segments.flatMap Segment.regexText)
      (segments.flatMap Segment.items) :=
    .flatMap fun segment hsegment => Segment.spells_regexText (h segment hsegment)
  exact hsegments.read

/-! ## What the reader of addresses ensures -/

/-- The ranges that members group to are not reversed, and there is one if there is a member. -/
theorem Grouped.ordered {members : List Letter} {ranges : List (Char × Char)}
    (grouped : Grouped members ranges) :
    (members ≠ [] → ranges ≠ []) ∧ ∀ r ∈ ranges, r.1 ≤ r.2 := by
  induction grouped with
  | nil => simp
  | range ordered _ ih =>
    exact ⟨fun _ => List.cons_ne_nil _ _, List.forall_mem_cons.2 ⟨ordered, ih.2⟩⟩
  | single _ _ ih =>
    exact ⟨fun _ => List.cons_ne_nil _ _, List.forall_mem_cons.2 ⟨Char.le_refl _, ih.2⟩⟩

/-- A production is well-formed. -/
theorem Token.Formed.wellFormed {token : Token} {letters : List Letter}
    (formed : token.Formed letters) : token.WellFormed := by
  cases formed with
  | array filled => simpa [WellFormed] using filled
  | chars filled _ _ grouped => exact ⟨grouped.ordered.1 filled, grouped.ordered.2⟩
  | negated filled _ grouped => exact ⟨grouped.ordered.1 filled, grouped.ordered.2⟩
  | _ => trivial

theorem Token.FormedEach.wellFormed {tokens : List Token} {letters : List Letter}
    (formed : FormedEach tokens letters) : ∀ token ∈ tokens, token.WellFormed := by
  induction formed with
  | nil => exact List.forall_mem_nil _
  | cons formed _ ih => exact List.forall_mem_cons.2 ⟨formed.wellFormed, ih⟩

theorem Segment.Written.wellFormed {segment : Segment} {text : List Char}
    (written : segment.Written text) : segment.WellFormed := by
  cases written with
  | traverse => trivial
  | parts _ formed _ => exact formed.wellFormed

theorem Written.wellFormed {segments : List Segment} {source : List Char}
    (written : Written segments source) : ∀ segment ∈ segments, segment.WellFormed := by
  induction written with
  | last written => exact List.forall_mem_singleton.2 written.wellFormed
  | cons written _ ih => exact List.forall_mem_cons.2 ⟨written.wellFormed, ih⟩

/-- **The segments of an address that can be read are well-formed.** -/
theorem parse_wellFormed {source : String} {segments : List Segment}
    (h : parse source = .ok segments) : ∀ segment ∈ segments, segment.WellFormed :=
  (written_of_parse h).1.wellFormed

/-! ## Agreement -/

/-- A source that can be read is compiled. -/
theorem Pattern.compile_of_parse {source : String} {segments : List Segment}
    (h : parse source = .ok segments) :
    Pattern.compile source = .ok ⟨source, segments, h⟩ := by
  rw [Pattern.compile]
  split
  · rename_i others hothers
    obtain rfl : others = segments := Except.ok.inj (hothers.symm.trans h)
    rfl
  · rename_i fault hfault
    rw [h] at hfault
    exact absurd hfault (by simp)

/-- **Compiled patterns mean what the grammar says.** A source that can be read is compiled; the text
of its regular expression can be read; and an address is covered exactly if it is a text of that
expression, and exactly if it can be cut into one piece for every segment. -/
theorem compile_covers_iff {source : String} {segments : List Segment}
    (h : parse source = .ok segments) :
    ∃ pattern expression, Pattern.compile source = .ok pattern ∧
      Regex.read (regexText segments) = some expression ∧
      ∀ address : String,
        (pattern.covers address = true ↔ address.toList ∈ expression.language) ∧
          (pattern.covers address = true ↔ MatchesAll segments address.toList) := by
  have hsegments := parse_wellFormed h
  refine ⟨_, _, Pattern.compile_of_parse h, read_regexText hsegments, fun address => ?_⟩
  have hmeaning := matchesAll_iff segments address.toList
  exact ⟨hmeaning.trans (mem_language_segments hsegments).symm, hmeaning⟩

/-- The agreement at a pattern with every kind of production, a traversal and an escape. -/
theorem compile_covers_iff_all_productions :
    ∃ segments, parse "/x\x7b1,,10\x7d[!a-c-]*?//[+-9]/\\\x7b" = .ok segments ∧
      ∃ pattern expression,
        Pattern.compile "/x\x7b1,,10\x7d[!a-c-]*?//[+-9]/\\\x7b" = .ok pattern ∧
        Regex.read (regexText segments) = some expression ∧
        ∀ address : String,
          (pattern.covers address = true ↔ address.toList ∈ expression.language) ∧
            (pattern.covers address = true ↔ MatchesAll segments address.toList) :=
  ⟨[.parts [.literal ['x'], .array [['1'], [], ['1', '0']], .chars true [('a', 'c'), ('-', '-')],
      .wildcard, .maybe], .traverse, .parts [.chars false [('+', '9')]], .parts [.literal ['{']]],
    by rfl, compile_covers_iff (by rfl)⟩

end SoundControl.Address
