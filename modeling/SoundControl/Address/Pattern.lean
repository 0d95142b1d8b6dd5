import SoundControl.Address.Syntax

/-!
# Address patterns

What an address pattern means, and a procedure that decides it.  An address is any text: it is
matched character by character, and need not be well formed itself.

* **`Token.Matches`**, **`Segment.Matches`**, **`MatchesAll`** — the meaning: which pieces of an
  address a production stands for, and how an address is cut into such pieces.
* **`Token.marks`**, **`Segment.marks`** — the endings of an address from which a production reaches
  an ending that the productions behind it cover.
* **`matchesAll`** — runs all segments over the address, the last one first.
* **`Pattern`** — a source text with its segments, compared by source.
-/

namespace SoundControl.Address

/-- A character lies in one of the ranges. -/
def inRanges (ranges : List (Char × Char)) (c : Char) : Bool :=
  ranges.any fun (low, high) => low ≤ c && c ≤ high

/-! ## Meaning -/

/-- **The pieces a token stands for.** -/
def Token.Matches : Token → List Char → Prop
  | .literal text, piece => piece = text
  | .array items, piece => piece ∈ items
  | .chars false ranges, piece => ∃ c, piece = [c] ∧ inRanges ranges c
  | .chars true ranges, piece => ∃ c, piece = [c] ∧ c ≠ '/' ∧ ¬ inRanges ranges c
  | .wildcard, piece => piece ≠ [] ∧ ∀ c ∈ piece, c ≠ '/'
  | .maybe, piece => ∃ c, piece = [c] ∧ c ≠ '/'

/-- A text cut into one piece per token. -/
inductive Token.MatchesEach : List Token → List Char → Prop where
  /-- No token, nothing to match. -/
  | nil : MatchesEach [] []
  /-- A piece for the first token, the rest for the others. -/
  | cons {token : Token} {tokens : List Token} {piece rest : List Char} :
      token.Matches piece → MatchesEach tokens rest → MatchesEach (token :: tokens) (piece ++ rest)

/-- Zero or more blocks, each a `/` and then characters other than `/`. -/
inductive Blocks : List Char → Prop where
  /-- No block. -/
  | nil : Blocks []
  /-- A block before others. -/
  | cons {name rest : List Char} : (∀ c ∈ name, c ≠ '/') → Blocks rest →
      Blocks ('/' :: (name ++ rest))

/-- **The pieces a segment stands for.** -/
inductive Segment.Matches : Segment → List Char → Prop where
  /-- A traversal covers whole segments. -/
  | traverse {piece : List Char} : Blocks piece → Matches .traverse piece
  /-- Any other segment is introduced by its slash. -/
  | parts {tokens : List Token} {piece : List Char} : Token.MatchesEach tokens piece →
      Matches (.parts tokens) ('/' :: piece)

/-- **An address cut into one piece per segment.** -/
inductive MatchesAll : List Segment → List Char → Prop where
  /-- No segment, nothing to match. -/
  | nil : MatchesAll [] []
  /-- A piece for the first segment, the rest for the others. -/
  | cons {segment : Segment} {segments : List Segment} {piece rest : List Char} :
      segment.Matches piece → MatchesAll segments rest →
      MatchesAll (segment :: segments) (piece ++ rest)

/-! ## Decision

A pattern is run from its last production to its first.  What is kept is one mark for every ending
of the address, the longest first: whether the productions run so far cover that ending.  A
production makes new marks from the old ones in one pass, so no ending is ever looked at twice for
the same production. -/

/-- Whether a given text stands in front, and the ending behind it is marked. -/
def textBefore : List Char → List Char → List Bool → Bool
  | [], _, marks => marks.headD false
  | _ :: _, [], _ => false
  | t :: ts, c :: cs, marks => t == c && textBefore ts cs marks.tail

/-- Whether a character of the given kind stands in front, and the ending behind it is marked. -/
def oneBefore (accepts : Char → Bool) : List Char → List Bool → Bool
  | [], _ => false
  | c :: _, marks => accepts c && marks.tail.headD false

/-- **Whether a token covers a piece of a text up to a marked ending.** `later` says whether it does
so for the text without its first character. -/
def Token.covers (later : Bool) : Token → List Char → List Bool → Bool
  | .literal text, cs, marks => textBefore text cs marks
  | .array items, cs, marks => items.any fun item => textBefore item cs marks
  | .chars false ranges, cs, marks => oneBefore (inRanges ranges) cs marks
  | .chars true ranges, cs, marks => oneBefore (fun c => c != '/' && !inRanges ranges c) cs marks
  | .wildcard, cs, marks =>
    oneBefore (· != '/') cs marks || (later && cs.head?.any (· != '/'))
  | .maybe, cs, marks => oneBefore (· != '/') cs marks

/-- **The marks in front of a token.** -/
def Token.marks (token : Token) : List Char → List Bool → List Bool
  | [], marks => [token.covers false [] marks]
  | c :: cs, marks =>
    let later := token.marks cs marks.tail
    token.covers (later.headD false) (c :: cs) marks :: later

/-- The marks in front of a slash. -/
def slashMarks : List Char → List Bool → List Bool
  | [], _ => [false]
  | c :: cs, marks => (c == '/' && marks.tail.headD false) :: slashMarks cs marks.tail

/-- The marks in front of a traversal, behind whether any ending is marked at all: a traversal ends
anywhere behind a first slash, or takes nothing. -/
def traverseMarks : List Char → List Bool → Bool × List Bool
  | [], marks => (marks.headD false, [marks.headD false])
  | c :: cs, marks =>
    let (later, rest) := traverseMarks cs marks.tail
    let here := marks.headD false
    (here || later, (here || (c == '/' && later)) :: rest)

/-- **The marks in front of a segment.** -/
def Segment.marks : Segment → List Char → List Bool → List Bool
  | .traverse, cs, marks => (traverseMarks cs marks).2
  | .parts tokens, cs, marks =>
    slashMarks cs (tokens.foldr (fun token marks => token.marks cs marks) marks)

/-- The marks behind the last segment: it has to end where the text does. -/
def endMarks : List Char → List Bool
  | [] => [true]
  | _ :: cs => false :: endMarks cs

/-- **Whether the segments cover the whole address.** -/
def matchesAll (segments : List Segment) (address : List Char) : Bool :=
  (segments.foldr (fun segment marks => segment.marks address marks)
    (endMarks address)).headD false

/-! ## Compiled patterns -/

/-- **A compiled address pattern.** The segments are those of the source, so that patterns are
equal when their sources are. -/
structure Pattern where
  /-- The pattern as written. -/
  source : String
  /-- Its segments. -/
  segments : List Segment
  /-- The segments are read off the source. -/
  parse_source : parse source = .ok segments

namespace Pattern

@[ext] theorem ext {p q : Pattern} (h : p.source = q.source) : p = q := by
  obtain ⟨source, segments, hp⟩ := p
  obtain ⟨_, segments', hq⟩ := q
  subst h
  obtain rfl : segments = segments' := Except.ok.inj (hp.symm.trans hq)
  rfl

instance : DecidableEq Pattern := fun p q =>
  decidable_of_iff (p.source = q.source) ⟨ext, fun h => h ▸ rfl⟩

/-- Read a pattern; a literal address is a pattern too. -/
def compile (source : String) : Except Fault Pattern :=
  match h : parse source with
  | .ok segments => .ok ⟨source, segments, h⟩
  | .error fault => .error fault

/-- Whether the pattern covers an address. -/
def covers (p : Pattern) (address : String) : Bool := matchesAll p.segments address.toList

/-- Whether a production other than literal runs occurs. -/
def isPattern (p : Pattern) : Bool := p.segments.any Segment.isPattern

instance : Ord Pattern := ⟨fun p q => compare p.source q.source⟩

end Pattern

end SoundControl.Address
