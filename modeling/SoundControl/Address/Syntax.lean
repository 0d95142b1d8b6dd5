/-!
# Address syntax

An address is a `/` followed by segments separated by `/`.  An empty segment is the traversal
wildcard; any other segment is a run of tokens.  A backslash takes the next character verbatim,
in every context, and only printable ASCII is allowed.

* **`Token`**, **`Segment`** — the productions of a segment and the segments of an address.
* **`Reason`**, **`Fault`** — why and where a text is no address.
* **`Glyph.lex`** — one segment as characters with their escapes resolved, up to the first
  character that cannot be read.
* **`Segment.read`** — one segment as tokens, or its first fault.
* **`parse`** — a whole address, segment by segment; the first faulty segment decides.

All characters before a fault are ASCII, so the positions counted here in characters are byte
offsets too.
-/

namespace SoundControl.Address

/-- One production of an address segment. -/
inductive Token where
  /-- A run of plain characters, escapes resolved. -/
  | literal (text : List Char)
  /-- `{a,b,c}`: one of the listed texts, the empty one included if it is listed. -/
  | array (items : List (List Char))
  /-- `[a-z]` or `[!a-z]`: one character inside the ranges, or one that is not `/` and outside. -/
  | chars (negated : Bool) (ranges : List (Char × Char))
  /-- `*`: one or more characters within the segment. -/
  | wildcard
  /-- `?`: exactly one character within the segment. -/
  | maybe
  deriving DecidableEq, Repr

/-- One `/`-introduced part of an address. -/
inductive Segment where
  /-- The empty segment: zero or more whole segments. -/
  | traverse
  /-- A non-empty segment. -/
  | parts (tokens : List Token)
  deriving DecidableEq, Repr

/-- Everything but a literal run makes a pattern. -/
def Token.isPattern : Token → Bool
  | .literal _ => false
  | _ => true

/-- A traversal, or a segment with a pattern token. -/
def Segment.isPattern : Segment → Bool
  | .traverse => true
  | .parts tokens => tokens.any Token.isPattern

/-! ## Faults -/

/-- What is wrong with a text that is no address. -/
inductive Reason where
  /-- The text is empty. -/
  | emptyAddress
  /-- The text does not start with `/`. -/
  | missingSlash
  /-- A `}` without its `{`. -/
  | unmatchedBrace
  /-- A `]` without its `[`. -/
  | unmatchedBracket
  /-- A `{` without its `}`. -/
  | unterminatedBrace
  /-- A `[` without its `]`. -/
  | unterminatedBracket
  /-- A `{` inside `{...}`. -/
  | nestedBrace
  /-- A `[` inside `[...]`. -/
  | nestedBracket
  /-- A class without members. -/
  | emptyClass
  /-- A range whose ends are in the wrong order. -/
  | reversedRange (low high : Char)
  /-- A backslash at the end of a segment. -/
  | danglingEscape
  /-- A control character or one outside ASCII. -/
  | notPrintable
  deriving DecidableEq, Repr

/-- The wording of a reason. -/
def Reason.message : Reason → String
  | .emptyAddress => "empty address"
  | .missingSlash => "address must start with '/'"
  | .unmatchedBrace => "unmatched '\x7d'"
  | .unmatchedBracket => "unmatched ']'"
  | .unterminatedBrace => "unterminated '\x7b'"
  | .unterminatedBracket => "unterminated '['"
  | .nestedBrace => "nested '\x7b'"
  | .nestedBracket => "nested '['"
  | .emptyClass => "empty character class"
  | .reversedRange low high => "reversed range '" ++ String.ofList [low, '-', high] ++ "'"
  | .danglingEscape => "dangling escape"
  | .notPrintable => "not a printable ASCII character"

/-- A reason and the offset it is reported at. -/
structure Fault where
  /-- Offset from the start of the address. -/
  position : Nat
  /-- What is wrong there. -/
  reason : Reason
  deriving DecidableEq, Repr

/-! ## Characters of a segment -/

/-- The characters an address is written in: space to tilde. -/
def isPrintable (c : Char) : Bool := 0x20 ≤ c.toNat && c.toNat ≤ 0x7e

/-- **A character with its escape resolved.** An escaped character is never syntax. -/
structure Glyph where
  /-- The character meant. -/
  char : Char
  /-- Whether a backslash stood before it. -/
  escaped : Bool
  /-- Offset of the character, or of the backslash before it. -/
  position : Nat
  deriving DecidableEq, Repr

/-- The glyph is the given character, written without a backslash. -/
def Glyph.is (g : Glyph) (c : Char) : Bool := !g.escaped && g.char == c

/-- **The glyphs of a segment.** Reading stops at the first character that cannot be read; its
fault is the second component, and whoever reads the glyphs meets it after the last of them. -/
def Glyph.lex (position : Nat) : List Char → List Glyph × Option Fault
  | [] => ([], none)
  | ['\\'] => ([], some ⟨position, .danglingEscape⟩)
  | '\\' :: c :: cs =>
    if isPrintable c then
      let (glyphs, stop) := lex (position + 2) cs
      (⟨c, true, position⟩ :: glyphs, stop)
    else ([], some ⟨position + 1, .notPrintable⟩)
  | c :: cs =>
    if isPrintable c then
      let (glyphs, stop) := lex (position + 1) cs
      (⟨c, false, position⟩ :: glyphs, stop)
    else ([], some ⟨position, .notPrintable⟩)

/-! ## Tokens of a segment -/

/-- **The ranges of a class**, or the first reversed one.  Members are grouped left to right: a
member, an unescaped `-` and a further member are a range; any other member stands for itself. -/
def classRanges : List Glyph → Except (Char × Char) (List (Char × Char))
  | [] => .ok []
  | [g] => .ok [(g.char, g.char)]
  | [g, h] => .ok [(g.char, g.char), (h.char, h.char)]
  | low :: dash :: high :: rest =>
    if dash.is '-' then
      if high.char < low.char then .error (low.char, high.char)
      else (classRanges rest).map ((low.char, high.char) :: ·)
    else (classRanges (dash :: high :: rest)).map ((low.char, low.char) :: ·)

/-- What the reader of a segment is inside of. -/
inductive Context where
  /-- Outside all brackets. -/
  | plain
  /-- Inside `{...}`: where it opened, the finished items and the one being read, all reversed. -/
  | array (start : Nat) (items : List (List Char)) (item : List Char)
  /-- Inside `[...]`: where it opened, whether it is negated, and the members, reversed. -/
  | chars (start : Nat) (negated : Bool) (members : List Glyph)
  deriving DecidableEq, Repr

/-- The fault of a segment that ends inside an open bracket. -/
def Context.unterminated : Context → Option Fault
  | .plain => none
  | .array start _ _ => some ⟨start, .unterminatedBrace⟩
  | .chars start _ _ => some ⟨start, .unterminatedBracket⟩

/-- Put a character in front of a segment's tokens, extending a literal run that begins them. -/
def Token.consLiteral (c : Char) : List Token → List Token
  | .literal text :: tokens => .literal (c :: text) :: tokens
  | tokens => .literal [c] :: tokens

/-- The class made of the members read between `[` and `]`. -/
def Token.ofMembers (start : Nat) (negated : Bool) (members : List Glyph) : Except Fault Token :=
  if members.isEmpty then .error ⟨start, .emptyClass⟩
  else match classRanges members with
    | .ok ranges => .ok (.chars negated ranges)
    | .error (low, high) => .error ⟨start, .reversedRange low high⟩

/-- **The tokens of a segment's glyphs.** `stop` is the fault met behind the last glyph, if any:
it wins over an unterminated bracket and loses to every fault before it. -/
def Token.ofGlyphs (stop : Option Fault) : Context → List Glyph → Except Fault (List Token)
  | context, [] =>
    match stop.or context.unterminated with
    | some fault => .error fault
    | none => .ok []
  | .plain, g :: gs =>
    if g.is '{' then ofGlyphs stop (.array g.position [] []) gs
    else if g.is '[' then ofGlyphs stop (.chars g.position false []) gs
    else if g.is '*' then (ofGlyphs stop .plain gs).map (.wildcard :: ·)
    else if g.is '?' then (ofGlyphs stop .plain gs).map (.maybe :: ·)
    else if g.is '}' then .error ⟨g.position, .unmatchedBrace⟩
    else if g.is ']' then .error ⟨g.position, .unmatchedBracket⟩
    else (ofGlyphs stop .plain gs).map (consLiteral g.char)
  | .array start items item, g :: gs =>
    if g.is ',' then ofGlyphs stop (.array start (item.reverse :: items) []) gs
    else if g.is '}' then
      (ofGlyphs stop .plain gs).map (.array (item.reverse :: items).reverse :: ·)
    else if g.is '{' then .error ⟨g.position, .nestedBrace⟩
    else ofGlyphs stop (.array start items (g.char :: item)) gs
  | .chars start negated members, g :: gs =>
    if g.is '!' && !negated && members.isEmpty then ofGlyphs stop (.chars start true []) gs
    else if g.is ']' then do
      let token ← Token.ofMembers start negated members.reverse
      let tokens ← ofGlyphs stop .plain gs
      return token :: tokens
    else if g.is '[' then .error ⟨g.position, .nestedBracket⟩
    else ofGlyphs stop (.chars start negated (g :: members)) gs

/-! ## Whole addresses -/

/-- One segment of an address, given the offset of its first character. -/
def Segment.read (position : Nat) (text : List Char) : Except Fault Segment :=
  if text.isEmpty then .ok .traverse
  else
    let (glyphs, stop) := Glyph.lex position text
    (Token.ofGlyphs stop .plain glyphs).map .parts

/-- The texts between the slashes; one more than there are slashes. -/
def splitSlashes : List Char → List (List Char)
  | [] => [[]]
  | c :: cs =>
    if c = '/' then [] :: splitSlashes cs
    else match splitSlashes cs with
      | [] => [[c]]
      | text :: texts => (c :: text) :: texts

/-- The segments with the given texts, the first of which starts at `position`. -/
def readSegments (position : Nat) : List (List Char) → Except Fault (List Segment)
  | [] => .ok []
  | text :: texts => do
    let segment ← Segment.read position text
    let segments ← readSegments (position + text.length + 1) texts
    return segment :: segments

/-- **The segments of an address**, or its first fault. -/
def parse (source : String) : Except Fault (List Segment) :=
  match source.toList with
  | [] => .error ⟨0, .emptyAddress⟩
  | c :: cs =>
    if c = '/' then readSegments 1 (splitSlashes cs)
    else .error ⟨0, .missingSlash⟩

/-- **Whether an address has a pattern production.** A malformed address is a fault here too. -/
def isPattern (source : String) : Except Fault Bool :=
  (parse source).map (·.any Segment.isPattern)

end SoundControl.Address
