import SoundControl.Address.Pattern

/-! # The matcher decides the meaning

`matchesAll` runs a pattern from its last production to its first and keeps one mark for every
ending of the address. This file reads the marks as a predicate on endings and shows that every
production turns a predicate into the one in front of it:

* **`Marked P cs marks`** — `marks` says of every ending of `cs`, the longest first, whether `P`
  holds of it.
* **`Before M P`** — the endings that begin with a piece in `M` and go on with an ending in `P`.
* **`Token.marks_marked`**, **`Segment.marks_marked`** — a production makes the marks of
  `Before` out of the marks of what is behind it.
* **`matchesAll_iff`** — the matcher decides `MatchesAll`. -/

namespace SoundControl.Address

/-! ## Marks as predicates on endings -/

/-- **The marks of a predicate**: one for every ending of the text, the longest first. -/
def Marked (P : List Char → Prop) : List Char → List Bool → Prop
  | [], marks => ∃ b, marks = [b] ∧ (b = true ↔ P [])
  | c :: cs, marks => ∃ b rest, marks = b :: rest ∧ (b = true ↔ P (c :: cs)) ∧ Marked P cs rest

/-- **The texts that begin with a piece in `M`** and go on with one in `P`. -/
def Before (M P : List Char → Prop) (cs : List Char) : Prop :=
  ∃ piece rest, cs = piece ++ rest ∧ M piece ∧ P rest

variable {P Q : List Char → Prop}

/-- The first mark is that of the whole text. -/
theorem Marked.head {cs : List Char} {marks : List Bool} (h : Marked P cs marks) :
    marks.headD false = true ↔ P cs := by
  cases cs with
  | nil =>
    obtain ⟨b, rfl, hb⟩ := h
    exact hb
  | cons c cs =>
    obtain ⟨b, rest, rfl, hb, -⟩ := h
    exact hb

/-- The other marks are those of the text without its first character. -/
theorem Marked.tail {c : Char} {cs : List Char} {marks : List Bool}
    (h : Marked P (c :: cs) marks) : Marked P cs marks.tail := by
  obtain ⟨b, rest, rfl, -, hrest⟩ := h
  exact hrest

/-- Marks of the empty text from the one mark. -/
theorem Marked.of_nil {b : Bool} (h : b = true ↔ P []) : Marked P [] [b] :=
  ⟨b, rfl, h⟩

/-- Marks of a longer text from its mark and those of its endings. -/
theorem Marked.of_cons {c : Char} {cs : List Char} {b : Bool} {marks : List Bool}
    (h : b = true ↔ P (c :: cs)) (hmarks : Marked P cs marks) :
    Marked P (c :: cs) (b :: marks) :=
  ⟨b, marks, rfl, h, hmarks⟩

/-- The end marks are those of the empty ending. -/
theorem endMarks_marked (cs : List Char) : Marked (· = []) cs (endMarks cs) := by
  induction cs with
  | nil => exact .of_nil (by simp)
  | cons c cs ih => exact .of_cons (by simp) ih

/-! ## Pieces of a fixed shape -/

/-- `textBefore` finds the text in front of a marked ending. -/
theorem textBefore_iff {text cs : List Char} {marks : List Bool} (h : Marked P cs marks) :
    textBefore text cs marks = true ↔ Before (· = text) P cs := by
  induction text generalizing cs marks with
  | nil =>
    rw [textBefore, h.head]
    constructor
    · intro hcs
      exact ⟨[], cs, rfl, rfl, hcs⟩
    · rintro ⟨_, rest, rfl, rfl, hrest⟩
      exact hrest
  | cons t ts ih =>
    cases cs with
    | nil => simp [textBefore, Before]
    | cons c cs =>
      rw [textBefore, Bool.and_eq_true, beq_iff_eq, ih h.tail]
      constructor
      · rintro ⟨rfl, piece, rest, rfl, rfl, hrest⟩
        exact ⟨t :: piece, rest, rfl, rfl, hrest⟩
      · rintro ⟨piece, rest, hcs, rfl, hrest⟩
        obtain ⟨rfl, rfl⟩ := List.cons.inj hcs
        exact ⟨rfl, ts, rest, rfl, rfl, hrest⟩

/-- `oneBefore` finds one character of its kind in front of a marked ending. -/
theorem oneBefore_iff {accepts : Char → Bool} {cs : List Char} {marks : List Bool}
    (h : Marked P cs marks) :
    oneBefore accepts cs marks = true ↔ Before (fun piece => ∃ c, piece = [c] ∧ accepts c) P cs := by
  cases cs with
  | nil =>
    simp only [oneBefore, Bool.false_eq_true, false_iff]
    rintro ⟨piece, rest, hcs, ⟨c, rfl, -⟩, -⟩
    exact List.cons_ne_nil c rest hcs.symm
  | cons c cs =>
    rw [oneBefore, Bool.and_eq_true, h.tail.head]
    constructor
    · rintro ⟨hc, hrest⟩
      exact ⟨[c], cs, rfl, ⟨c, rfl, hc⟩, hrest⟩
    · rintro ⟨piece, rest, hcs, ⟨d, rfl, hd⟩, hrest⟩
      obtain ⟨rfl, rfl⟩ := List.cons.inj hcs
      exact ⟨hd, hrest⟩

/-- In front of nothing there is only the empty piece. -/
theorem before_empty {M : List Char → Prop} : Before M P [] ↔ M [] ∧ P [] := by
  constructor
  · rintro ⟨piece, rest, hcs, hpiece, hrest⟩
    obtain ⟨rfl, rfl⟩ := List.append_eq_nil_iff.mp hcs.symm
    exact ⟨hpiece, hrest⟩
  · rintro ⟨hpiece, hrest⟩
    exact ⟨[], [], rfl, hpiece, hrest⟩

/-- `Before` depends on the pieces only through their membership. -/
theorem before_congr {M N : List Char → Prop} (h : ∀ piece, M piece ↔ N piece) (cs : List Char) :
    Before M P cs ↔ Before N P cs := by
  simp only [Before, h]

/-- Pieces of any of several texts are pieces of one of them. -/
theorem before_mem {items : List (List Char)} {cs : List Char} :
    Before (· ∈ items) P cs ↔ ∃ item ∈ items, Before (· = item) P cs := by
  constructor
  · rintro ⟨piece, rest, hcs, hpiece, hrest⟩
    exact ⟨piece, hpiece, piece, rest, hcs, rfl, hrest⟩
  · rintro ⟨item, hitem, piece, rest, hcs, rfl, hrest⟩
    exact ⟨piece, rest, hcs, hitem, hrest⟩

/-- **A run within a segment grows by one character at a time**: it is that character alone, or the
character and a run in front of the same ending. -/
theorem before_wildcard_cons {c : Char} {cs : List Char} :
    Before Token.wildcard.Matches P (c :: cs) ↔
      c ≠ '/' ∧ (P cs ∨ Before Token.wildcard.Matches P cs) := by
  simp only [Before, Token.Matches]
  constructor
  · rintro ⟨piece, rest, hcs, ⟨hne, hpiece⟩, hrest⟩
    obtain ⟨d, ds, rfl⟩ := List.exists_cons_of_ne_nil hne
    obtain ⟨rfl, rfl⟩ := List.cons.inj hcs
    refine ⟨hpiece c List.mem_cons_self, ?_⟩
    by_cases hds : ds = []
    · subst hds
      exact Or.inl hrest
    · exact Or.inr ⟨ds, rest, rfl, ⟨hds, fun e he => hpiece e (List.mem_cons_of_mem c he)⟩, hrest⟩
  · rintro ⟨hc, hrest | ⟨piece, rest, rfl, ⟨-, hpiece⟩, hrest⟩⟩
    · exact ⟨[c], cs, rfl, ⟨List.cons_ne_nil c [], by simpa using hc⟩, hrest⟩
    · exact ⟨c :: piece, rest, rfl, ⟨List.cons_ne_nil c piece, by simpa using ⟨hc, hpiece⟩⟩, hrest⟩

/-! ## Tokens -/

/-- **`Token.covers` looks for a piece of the token.** `later` has to be the answer for the text
without its first character. -/
theorem Token.covers_iff (token : Token) {later : Bool} {cs : List Char} {marks : List Bool}
    (h : Marked P cs marks)
    (hlater : ∀ c rest, cs = c :: rest → (later = true ↔ Before token.Matches P rest)) :
    token.covers later cs marks = true ↔ Before token.Matches P cs := by
  match token with
  | .literal text => exact textBefore_iff h
  | .array items =>
    simp only [Token.covers, List.any_eq_true, textBefore_iff h]
    exact before_mem.symm
  | .chars false ranges => exact oneBefore_iff h
  | .chars true ranges =>
    rw [Token.covers, oneBefore_iff h]
    exact before_congr (fun piece => by simp [Token.Matches]) cs
  | .maybe =>
    rw [Token.covers, oneBefore_iff h]
    exact before_congr (fun piece => by simp [Token.Matches]) cs
  | .wildcard =>
    cases cs with
    | nil => simp [Token.covers, oneBefore, Before, Token.Matches]
    | cons c cs =>
      -- The run ends behind `c`, which is a mark, or goes on, which is what `later` says.
      rw [before_wildcard_cons, ← hlater c cs rfl, ← h.tail.head]
      simp only [Token.covers, oneBefore, List.head?_cons, Option.any_some, Bool.or_eq_true,
        Bool.and_eq_true, bne_iff_ne]
      rw [and_comm (a := later = true), ← and_or_left]

/-- The marks of a token are those of the endings that begin with a piece of it. -/
theorem Token.marks_marked (token : Token) {cs : List Char} {marks : List Bool}
    (h : Marked P cs marks) : Marked (Before token.Matches P) cs (token.marks cs marks) := by
  induction cs generalizing marks with
  | nil => exact .of_nil (token.covers_iff h (by simp))
  | cons c cs ih =>
    -- The first of the marks made so far is the answer for the text behind `c`.
    refine .of_cons (token.covers_iff h ?_) (ih h.tail)
    rintro d rest hcs
    obtain ⟨rfl, rfl⟩ := List.cons.inj hcs
    exact (ih h.tail).head

/-! ## Runs of tokens -/

/-- Equivalent predicates have the same marks. -/
theorem Marked.congr (h : ∀ cs, P cs ↔ Q cs) {cs : List Char} {marks : List Bool}
    (hmarks : Marked P cs marks) : Marked Q cs marks := by
  have hPQ : P = Q := funext fun cs => propext (h cs)
  rwa [← hPQ]

/-- Two pieces in front of an ending are one piece in front of it. -/
theorem before_before {M N : List Char → Prop} {cs : List Char} :
    Before M (Before N P) cs ↔ Before (Before M N) P cs := by
  constructor
  · rintro ⟨first, _, rfl, hfirst, second, rest, rfl, hsecond, hrest⟩
    exact ⟨first ++ second, rest, (List.append_assoc ..).symm, ⟨first, second, rfl, hfirst, hsecond⟩,
      hrest⟩
  · rintro ⟨_, rest, rfl, ⟨first, second, rfl, hfirst, hsecond⟩, hrest⟩
    exact ⟨first, second ++ rest, List.append_assoc .., hfirst, second, rest, rfl, hsecond, hrest⟩

/-- The empty piece in front of an ending is no piece at all. -/
theorem before_nil {cs : List Char} : Before (· = []) P cs ↔ P cs := by
  constructor
  · rintro ⟨_, rest, rfl, rfl, hrest⟩
    exact hrest
  · intro hcs
    exact ⟨[], cs, rfl, rfl, hcs⟩

/-- No token matches the empty text only. -/
theorem Token.matchesEach_nil {cs : List Char} : Token.MatchesEach [] cs ↔ cs = [] := by
  constructor
  · rintro ⟨⟩
    rfl
  · rintro rfl
    exact .nil

/-- A text matches several tokens if it is a piece of the first and the others match the rest. -/
theorem Token.matchesEach_cons {token : Token} {tokens : List Token} {cs : List Char} :
    Token.MatchesEach (token :: tokens) cs ↔ Before token.Matches (Token.MatchesEach tokens) cs := by
  constructor
  · rintro ⟨⟩
    exact ⟨_, _, rfl, ‹_›, ‹_›⟩
  · rintro ⟨piece, rest, rfl, htoken, htokens⟩
    exact .cons htoken htokens

/-- Running the tokens of a segment marks the endings that begin with a text they match. -/
theorem Token.foldr_marks_marked (tokens : List Token) {cs : List Char} {marks : List Bool}
    (h : Marked P cs marks) :
    Marked (Before (Token.MatchesEach tokens) P) cs
      (tokens.foldr (fun token marks => token.marks cs marks) marks) := by
  induction tokens with
  | nil =>
    refine h.congr fun cs => ?_
    simp only [Before, Token.matchesEach_nil]
    exact before_nil.symm
  | cons token tokens ih =>
    refine (token.marks_marked ih).congr fun cs => ?_
    rw [before_before]
    exact before_congr (fun piece => Token.matchesEach_cons.symm) cs

/-! ## Segments -/

/-- The slash marks are those of a slash and then an ending. -/
theorem slashMarks_marked {cs : List Char} {marks : List Bool} (h : Marked P cs marks) :
    Marked (Before (· = ['/']) P) cs (slashMarks cs marks) := by
  induction cs generalizing marks with
  | nil => exact .of_nil (by simp [Before])
  | cons c cs ih =>
    refine .of_cons ?_ (ih h.tail)
    rw [Bool.and_eq_true, beq_iff_eq, h.tail.head]
    constructor
    · rintro ⟨rfl, hcs⟩
      exact ⟨['/'], cs, rfl, rfl, hcs⟩
    · rintro ⟨_, rest, hcs, rfl, hrest⟩
      obtain ⟨rfl, rfl⟩ := List.cons.inj hcs
      exact ⟨rfl, hrest⟩

/-- Whatever follows a slash and a name falls into blocks, cut at its slashes. -/
theorem blocks_slash_append (rest : List Char) {name : List Char} (hname : ∀ c ∈ name, c ≠ '/') :
    Blocks ('/' :: (name ++ rest)) := by
  -- The name grows along `rest` and is complete at the next slash.
  induction rest generalizing name with
  | nil => exact .cons hname .nil
  | cons c rest ih =>
    by_cases hc : c = '/'
    · subst hc
      exact .cons hname (@ih [] (by simp))
    · have hlonger : ∀ d ∈ name ++ [c], d ≠ '/' := by
        intro d hd
        rcases List.mem_append.mp hd with hd | hd
        · exact hname d hd
        · rwa [List.mem_singleton.mp hd]
      simpa using ih hlonger

/-- **A traversal takes nothing, or anything that starts with a slash.** -/
theorem blocks_iff {piece : List Char} : Blocks piece ↔ piece = [] ∨ ∃ rest, piece = '/' :: rest := by
  constructor
  · rintro (_ | ⟨-, -⟩)
    · exact Or.inl rfl
    · exact Or.inr ⟨_, rfl⟩
  · rintro (rfl | ⟨rest, rfl⟩)
    · exact .nil
    · exact @blocks_slash_append rest [] (by simp)

/-- In front of a character a traversal takes nothing, or ends anywhere behind a first slash. -/
theorem before_blocks_cons {c : Char} {cs : List Char} :
    Before Blocks P (c :: cs) ↔ P (c :: cs) ∨ c = '/' ∧ Before (fun _ => True) P cs := by
  constructor
  · rintro ⟨piece, rest, hcs, hpiece, hrest⟩
    rcases blocks_iff.mp hpiece with rfl | ⟨front, rfl⟩
    · rw [List.nil_append] at hcs
      exact Or.inl (hcs ▸ hrest)
    · obtain ⟨rfl, rfl⟩ := List.cons.inj hcs
      exact Or.inr ⟨rfl, front, rest, rfl, trivial, hrest⟩
  · rintro (hcs | ⟨rfl, front, rest, rfl, -, hrest⟩)
    · exact ⟨[], c :: cs, rfl, .nil, hcs⟩
    · exact ⟨'/' :: front, rest, rfl, blocks_iff.mpr (Or.inr ⟨front, rfl⟩), hrest⟩

/-- Some ending of a text is marked if the text is or some ending of the text behind its first
character is. -/
theorem before_true_cons {c : Char} {cs : List Char} :
    Before (fun _ => True) P (c :: cs) ↔ P (c :: cs) ∨ Before (fun _ => True) P cs := by
  constructor
  · rintro ⟨piece, rest, hcs, -, hrest⟩
    cases piece with
    | nil => exact Or.inl (by simpa using hcs ▸ hrest)
    | cons d piece =>
      obtain ⟨rfl, rfl⟩ := List.cons.inj hcs
      exact Or.inr ⟨piece, rest, rfl, trivial, hrest⟩
  · rintro (hcs | ⟨piece, rest, rfl, -, hrest⟩)
    · exact ⟨[], c :: cs, rfl, trivial, hcs⟩
    · exact ⟨c :: piece, rest, rfl, trivial, hrest⟩

/-- **The marks of a traversal**, and whether any ending was marked. -/
theorem traverseMarks_marked {cs : List Char} {marks : List Bool} (h : Marked P cs marks) :
    ((traverseMarks cs marks).1 = true ↔ Before (fun _ => True) P cs) ∧
      Marked (Before Blocks P) cs (traverseMarks cs marks).2 := by
  induction cs generalizing marks with
  | nil =>
    have hhead : marks.headD false = true ↔ P [] := h.head
    refine ⟨?_, .of_nil ?_⟩
    · rw [before_empty]
      exact hhead.trans (and_iff_right trivial).symm
    · rw [before_empty]
      exact hhead.trans (and_iff_right Blocks.nil).symm
  | cons c cs ih =>
    obtain ⟨hlater, hrest⟩ := ih h.tail
    refine ⟨?_, .of_cons ?_ hrest⟩
    · rw [before_true_cons, ← h.head, ← hlater, ← Bool.or_eq_true]
      rfl
    · rw [before_blocks_cons, ← h.head, ← hlater, Bool.or_eq_true, Bool.and_eq_true, beq_iff_eq]

/-- A segment with tokens takes a slash and then a text that its tokens match. -/
theorem Segment.matches_parts_iff {tokens : List Token} {piece : List Char} :
    (Segment.parts tokens).Matches piece ↔ Before (· = ['/']) (Token.MatchesEach tokens) piece := by
  constructor
  · rintro ⟨⟩
    exact ⟨['/'], _, rfl, rfl, ‹_›⟩
  · rintro ⟨_, rest, rfl, rfl, hrest⟩
    exact .parts hrest

/-- A traversal takes blocks. -/
theorem Segment.matches_traverse_iff {piece : List Char} :
    Segment.traverse.Matches piece ↔ Blocks piece := by
  constructor
  · rintro ⟨⟩
    assumption
  · exact .traverse

/-- The marks of a segment are those of the endings that begin with a piece of it. -/
theorem Segment.marks_marked (segment : Segment) {cs : List Char} {marks : List Bool}
    (h : Marked P cs marks) : Marked (Before segment.Matches P) cs (segment.marks cs marks) := by
  cases segment with
  | traverse =>
    exact (traverseMarks_marked h).2.congr
      fun cs => before_congr (fun piece => Segment.matches_traverse_iff.symm) cs
  | parts tokens =>
    refine (slashMarks_marked (Token.foldr_marks_marked tokens h)).congr fun cs => ?_
    rw [before_before]
    exact before_congr (fun piece => Segment.matches_parts_iff.symm) cs

/-! ## Whole addresses -/

/-- No segment covers the empty address only. -/
theorem matchesAll_nil {cs : List Char} : MatchesAll [] cs ↔ cs = [] := by
  constructor
  · rintro ⟨⟩
    rfl
  · rintro rfl
    exact .nil

/-- An address matches several segments if it begins with a piece of the first and the others
match the rest. -/
theorem matchesAll_cons {segment : Segment} {segments : List Segment} {cs : List Char} :
    MatchesAll (segment :: segments) cs ↔ Before segment.Matches (MatchesAll segments) cs := by
  constructor
  · rintro ⟨⟩
    exact ⟨_, _, rfl, ‹_›, ‹_›⟩
  · rintro ⟨piece, rest, rfl, hsegment, hsegments⟩
    exact .cons hsegment hsegments

/-- Running the segments marks the endings that match all of them. -/
theorem foldr_marks_marked (segments : List Segment) (address : List Char) :
    Marked (MatchesAll segments) address
      (segments.foldr (fun segment marks => segment.marks address marks) (endMarks address)) := by
  induction segments with
  | nil => exact (endMarks_marked address).congr fun cs => matchesAll_nil.symm
  | cons segment segments ih =>
    exact (segment.marks_marked ih).congr fun cs => matchesAll_cons.symm

/-- **The matcher decides the meaning of a pattern.** -/
theorem matchesAll_iff (segments : List Segment) (address : List Char) :
    matchesAll segments address = true ↔ MatchesAll segments address :=
  (foldr_marks_marked segments address).head

end SoundControl.Address
