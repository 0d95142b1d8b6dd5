import SoundControl.Proofs.Outcome
import SoundControl.Address.Syntax

/-! # The grammar of addresses

What an address is, told without reading it: which texts spell which letters, which letters form
which production, and which productions make a segment.

* **`Spelled`** — the letters of a segment, each written with or without a backslash.
* **`Grouped`**, **`Token.Formed`** — the ranges of a class, and the letters that form a production.
* **`Segment.Written`**, **`Written`** — segments and whole addresses as text.
* **`Segment.Separate`** — no literal run beside another, so that runs are as long as can be.
* **`spelled_of_lex`**, **`lex_of_spelled`** — letters are read as they are spelled.
* **`classRanges_eq_ok_iff`** — the ranges of a class are those that its members group to. -/

namespace SoundControl.Address

/-! ## Letters -/

/-- **A letter of a segment:** the character meant, and whether a backslash stands before it. -/
abbrev Letter := Char × Bool

/-- **The text that spells letters.** A backslash takes the next character of the segment verbatim;
no slash belongs to a segment. -/
inductive Spelled : List Letter → List Char → Prop where
  /-- No letter, no text. -/
  | nil : Spelled [] []
  /-- A character that stands for itself. -/
  | plain {c : Char} {letters : List Letter} {text : List Char} :
      isPrintable c = true → c ≠ '/' → c ≠ '\\' → Spelled letters text →
      Spelled ((c, false) :: letters) (c :: text)
  /-- A character behind a backslash. -/
  | escaped {c : Char} {letters : List Letter} {text : List Char} :
      isPrintable c = true → c ≠ '/' → Spelled letters text →
      Spelled ((c, true) :: letters) ('\\' :: c :: text)

/-- None of the letters is one of these characters without a backslash. -/
def Avoids (reserved : List Char) (letters : List Letter) : Prop :=
  ∀ c ∈ reserved, (c, false) ∉ letters

/-- The characters that are meant. -/
def meant (letters : List Letter) : List Char := letters.map Prod.fst

/-! ## Productions -/

/-- **The ranges that members group to,** from left to right: a member, an unescaped `-` and a
further member are a range, which must not be reversed; any other member stands for itself. -/
inductive Grouped : List Letter → List (Char × Char) → Prop where
  /-- No member, no range. -/
  | nil : Grouped [] []
  /-- Two members joined by a dash. -/
  | range {low high : Letter} {rest : List Letter} {ranges : List (Char × Char)} :
      low.1 ≤ high.1 → Grouped rest ranges →
      Grouped (low :: ('-', false) :: high :: rest) ((low.1, high.1) :: ranges)
  /-- A member that is joined to no other. -/
  | single {member : Letter} {rest : List Letter} {ranges : List (Char × Char)} :
      (∀ high others, rest ≠ ('-', false) :: high :: others) → Grouped rest ranges →
      Grouped (member :: rest) ((member.1, member.1) :: ranges)

/-- **The letters that form a production.** -/
inductive Token.Formed : Token → List Letter → Prop where
  /-- A run of letters, at least one. -/
  | literal {letters : List Letter} :
      letters ≠ [] → Avoids ['{', '}', '[', ']', '*', '?'] letters →
      Formed (.literal (meant letters)) letters
  /-- Items between braces, with commas between them. -/
  | array {items : List (List Letter)} :
      items ≠ [] → (∀ item ∈ items, Avoids ['{', '}', ','] item) →
      Formed (.array (items.map meant))
        (('{', false) :: (List.intercalate [(',', false)] items ++ [('}', false)]))
  /-- Members between brackets, at least one, of which a bare `!` is not the first. -/
  | chars {members : List Letter} {ranges : List (Char × Char)} :
      members ≠ [] → members.head? ≠ some ('!', false) → Avoids ['[', ']'] members →
      Grouped members ranges →
      Formed (.chars false ranges) (('[', false) :: (members ++ [(']', false)]))
  /-- Members behind a bare `!`. -/
  | negated {members : List Letter} {ranges : List (Char × Char)} :
      members ≠ [] → Avoids ['[', ']'] members → Grouped members ranges →
      Formed (.chars true ranges) (('[', false) :: ('!', false) :: (members ++ [(']', false)]))
  /-- A bare star. -/
  | wildcard : Formed .wildcard [('*', false)]
  /-- A bare question mark. -/
  | maybe : Formed .maybe [('?', false)]

/-- Letters cut into one production per token. -/
inductive Token.FormedEach : List Token → List Letter → Prop where
  /-- No token, no letter. -/
  | nil : FormedEach [] []
  /-- The letters of the first token, and those of the others. -/
  | cons {token : Token} {tokens : List Token} {letters rest : List Letter} :
      token.Formed letters → FormedEach tokens rest →
      FormedEach (token :: tokens) (letters ++ rest)

/-! ## Segments and addresses -/

/-- **The text of a segment,** without its slash: nothing, or productions. -/
inductive Segment.Written : Segment → List Char → Prop where
  /-- The empty segment. -/
  | traverse : Written .traverse []
  /-- At least one production. -/
  | parts {tokens : List Token} {letters : List Letter} {text : List Char} :
      tokens ≠ [] → Token.FormedEach tokens letters → Spelled letters text →
      Written (.parts tokens) text

/-- **The text of an address:** one or more segments, each behind a slash. -/
inductive Written : List Segment → List Char → Prop where
  /-- The last segment. -/
  | last {segment : Segment} {text : List Char} :
      segment.Written text → Written [segment] ('/' :: text)
  /-- A segment before others. -/
  | cons {segment : Segment} {segments : List Segment} {text rest : List Char} :
      segment.Written text → Written segments rest →
      Written (segment :: segments) ('/' :: (text ++ rest))

/-- Of two tokens side by side, at most one is a literal run. -/
def Token.Separate (tokens : List Token) : Prop :=
  tokens.IsChain fun a b => a.isPattern || b.isPattern

/-- **No literal run stands beside another.** -/
def Segment.Separate : Segment → Prop
  | .traverse => True
  | .parts tokens => Token.Separate tokens

/-! ## Reading letters -/

/-- The letter of a glyph. -/
def Glyph.letter (g : Glyph) : Letter := (g.char, g.escaped)

theorem Glyph.is_iff {g : Glyph} {c : Char} : g.is c = true ↔ g.letter = (c, false) := by
  simp [Glyph.is, Glyph.letter, and_comm]

/-- A glyph of a bare letter is that character and no other. -/
theorem Glyph.is_of_letter {g : Glyph} {c : Char} (bare : g.letter = (c, false)) (d : Char) :
    g.is d = (c == d) := by
  obtain ⟨rfl, unescaped⟩ := Prod.mk.inj bare
  simp [Glyph.is, unescaped]

/-- A character that neither ends a text as a backslash nor escapes what follows is no backslash. -/
theorem ne_backslash {c : Char} {cs : List Char} (last : c = '\\' → cs = [] → False)
    (before : ∀ d ds, c = '\\' → cs = d :: ds → False) : c ≠ '\\' := by
  intro backslash
  cases cs with
  | nil => exact last backslash rfl
  | cons d ds => exact before d ds backslash rfl

/-- **What is read to the end spells the letters that were read.** -/
theorem spelled_of_lex (position : Nat) (text : List Char) (inside : '/' ∉ text)
    (whole : (Glyph.lex position text).2 = none) :
    Spelled ((Glyph.lex position text).1.map Glyph.letter) text := by
  fun_induction Glyph.lex position text with
  | case1 => exact .nil
  | case2 | case4 | case6 => simp at whole
  | case3 position c cs printable glyphs stop lexed ih =>
    simp only [List.mem_cons, not_or] at inside
    have rest := ih inside.2.2 (by rw [lexed]; exact whole)
    rw [lexed] at rest
    exact .escaped printable (Ne.symm inside.2.1) rest
  | case5 position c cs bare more printable glyphs stop lexed ih =>
    simp only [List.mem_cons, not_or] at inside
    have rest := ih inside.2 (by rw [lexed]; exact whole)
    rw [lexed] at rest
    exact .plain printable (Ne.symm inside.1) (ne_backslash bare more) rest

/-- **What spells letters is read to the end,** as these letters. -/
theorem lex_of_spelled {letters : List Letter} {text : List Char} (spelled : Spelled letters text)
    (position : Nat) : (Glyph.lex position text).1.map Glyph.letter = letters ∧
      (Glyph.lex position text).2 = none := by
  induction spelled generalizing position with
  | nil => exact ⟨rfl, rfl⟩
  | @plain c letters text printable _ plain _ ih =>
    obtain ⟨others, whole⟩ := ih (position + 1)
    rw [Glyph.lex, if_pos printable]
    · exact ⟨congrArg _ others, whole⟩
    all_goals simp [plain]
  | @escaped c letters text printable _ _ ih =>
    obtain ⟨others, whole⟩ := ih (position + 2)
    rw [Glyph.lex, if_pos printable]
    exact ⟨congrArg _ others, whole⟩

/-- No letter is written as a slash. -/
theorem Spelled.no_slash {letters : List Letter} {text : List Char} (spelled : Spelled letters text) :
    '/' ∉ text := by
  induction spelled with
  | nil => simp
  | plain _ other _ _ ih => simpa [ih] using other.symm
  | escaped _ other _ ih => simpa [ih] using other.symm

/-! ## Ranges -/

theorem grouped_range_iff {low high : Letter} {rest : List Letter} {ranges : List (Char × Char)} :
    Grouped (low :: ('-', false) :: high :: rest) ranges ↔
      low.1 ≤ high.1 ∧ ∃ others, Grouped rest others ∧ ranges = (low.1, high.1) :: others := by
  constructor
  · intro grouped
    cases grouped with
    | range ordered others => exact ⟨ordered, _, others, rfl⟩
    | single apart => exact absurd rfl (apart high rest)
  · rintro ⟨ordered, others, grouped, rfl⟩
    exact .range ordered grouped

theorem grouped_single_iff {member : Letter} {rest : List Letter} {ranges : List (Char × Char)}
    (apart : ∀ high others, rest ≠ ('-', false) :: high :: others) :
    Grouped (member :: rest) ranges ↔
      ∃ others, Grouped rest others ∧ ranges = (member.1, member.1) :: others := by
  constructor
  · intro grouped
    cases grouped with
    | range => exact absurd rfl (apart _ _)
    | single _ others => exact ⟨_, others, rfl⟩
  · rintro ⟨others, grouped, rfl⟩
    exact .single apart grouped

theorem grouped_nil_iff {ranges : List (Char × Char)} : Grouped [] ranges ↔ ranges = [] :=
  ⟨fun grouped => by cases grouped; rfl, fun empty => empty ▸ .nil⟩

theorem grouped_singleton_iff {member : Letter} {ranges : List (Char × Char)} :
    Grouped [member] ranges ↔ ranges = [(member.1, member.1)] := by
  rw [grouped_single_iff (by simp)]
  simp [grouped_nil_iff]

/-- **The ranges of a class are those that its members group to.** -/
theorem classRanges_eq_ok_iff {members : List Glyph} {ranges : List (Char × Char)} :
    classRanges members = .ok ranges ↔ Grouped (members.map Glyph.letter) ranges := by
  induction members using classRanges.induct generalizing ranges with
  | case1 => simp [classRanges, grouped_nil_iff, eq_comm]
  | case2 g =>
    rw [List.map_singleton, grouped_singleton_iff]
    simp [classRanges, Glyph.letter, eq_comm]
  | case3 g h =>
    rw [List.map_cons, List.map_singleton, grouped_single_iff (by simp)]
    simp [classRanges, grouped_singleton_iff, Glyph.letter, eq_comm]
  | case4 low dash high rest joined reversed =>
    rw [classRanges, if_pos joined, if_pos reversed]
    simp only [List.map_cons, Glyph.is_iff.1 joined, grouped_range_iff]
    simp [Glyph.letter, Char.not_le.2 reversed]
  | case5 low dash high rest joined ordered ih =>
    rw [classRanges, if_pos joined, if_neg ordered, map_eq_ok_iff]
    simp only [List.map_cons, Glyph.is_iff.1 joined, grouped_range_iff, ih]
    simp [Glyph.letter, Char.not_lt.1 ordered, eq_comm]
  | case6 low dash high rest apart ih =>
    have alone (high' : Letter) (others : List Letter) :
        (dash :: high :: rest).map Glyph.letter ≠ ('-', false) :: high' :: others :=
      fun same => apart (Glyph.is_iff.2 (List.cons.inj same).1)
    rw [classRanges, if_neg apart, map_eq_ok_iff, List.map_cons, grouped_single_iff alone]
    simp only [ih]
    simp [Glyph.letter, eq_comm]

/-- A class is made of at least one member, if the members group to ranges. -/
theorem Token.ofMembers_eq_ok_iff {start : Nat} {negated : Bool} {members : List Glyph}
    {token : Token} : ofMembers start negated members = .ok token ↔ members ≠ [] ∧
      ∃ ranges, Grouped (members.map Glyph.letter) ranges ∧ token = .chars negated ranges := by
  rw [ofMembers]
  split
  next empty => simp [List.isEmpty_iff.1 empty]
  next nonempty =>
    have nonempty : members ≠ [] := by simpa using nonempty
    simp only [← classRanges_eq_ok_iff]
    cases classRanges members <;> simp [nonempty, eq_comm]

/-- The sign of a class. -/
def signOf (negated : Bool) : List Letter := if negated then [('!', false)] else []

/-- The letters that form a class, negated or not. -/
theorem Token.formed_class {negated : Bool} {members : List Letter} {ranges : List (Char × Char)}
    (filled : members ≠ []) (bare : negated = false → members.head? ≠ some ('!', false))
    (avoids : Avoids ['[', ']'] members) (grouped : Grouped members ranges) :
    Formed (.chars negated ranges)
      (('[', false) :: (signOf negated ++ members ++ [(']', false)])) := by
  cases negated with
  | false => exact .chars filled (bare rfl) avoids grouped
  | true => exact .negated filled avoids grouped

end SoundControl.Address
