import SoundControl.Address.Syntax

/-!
# Regular expressions

A pattern is compiled to the text of a regular expression, in a dialect without surprises: every
character that is not a letter or digit is written as a hexadecimal escape, groups capture nothing,
and the whole text is anchored at both ends.

* **`Token.regexText`**, **`Segment.regexText`**, **`regexText`** — the text of a pattern's
  expression.
* **`Regex`** — expressions over characters.
* **`Regex.lex`** — the characters of a text with their escapes resolved.
* **`Regex.read`** — the expression that a text stands for, if it is one of the dialect.
-/

namespace SoundControl.Address

/-! ## Writing -/

/-- A code point in upper-case hexadecimal, of two digits at least. -/
def hexText (n : Nat) : List Char :=
  let digits := (Nat.toDigits 16 n).map Char.toUpper
  if n < 16 then '0' :: digits else digits

/-- A character as an escape. -/
def escapeText (c : Char) : List Char := ['\\', 'x', '{'] ++ hexText c.toNat ++ ['}']

/-- A character that stands for itself: ASCII letters and digits as they are. -/
def charText (c : Char) : List Char := if c.isAlphanum then [c] else escapeText c

/-- A range of a class; one of a single character is just that. -/
def rangeText (range : Char × Char) : List Char :=
  if range.1 = range.2 then escapeText range.1
  else escapeText range.1 ++ '-' :: escapeText range.2

/-- **The text of a token's expression.** The empty item of an array makes the group of the others
optional. -/
def Token.regexText : Token → List Char
  | .literal text => text.flatMap charText
  | .array items =>
    let filled := items.filter (· ≠ [])
    if filled.isEmpty then []
    else
      ['(', '?', ':'] ++ List.intercalate ['|'] (filled.map (·.flatMap charText)) ++ [')'] ++
        if items.contains [] then ['?'] else []
  | .chars false ranges => ['['] ++ ranges.flatMap rangeText ++ [']']
  | .chars true ranges => ['[', '^', '/'] ++ ranges.flatMap rangeText ++ [']']
  | .wildcard => ['[', '^', '/', ']', '+']
  | .maybe => ['[', '^', '/', ']']

/-- The text of a segment's expression. -/
def Segment.regexText : Segment → List Char
  | .traverse => ['(', '?', ':', '/', '[', '^', '/', ']', '*', ')', '*']
  | .parts tokens => '/' :: tokens.flatMap Token.regexText

/-- **The text of a pattern's expression**, anchored at both ends. -/
def regexText (segments : List Segment) : List Char :=
  '^' :: segments.flatMap Segment.regexText ++ ['$']

/-! ## Expressions -/

/-- **A regular expression over characters.** -/
inductive Regex where
  /-- The empty text. -/
  | empty
  /-- One character inside the ranges, or one outside. -/
  | one (negated : Bool) (ranges : List (Char × Char))
  /-- A text of the first and then one of the second. -/
  | seq (first second : Regex)
  /-- A text of either. -/
  | either (first second : Regex)
  /-- A text of the body, or nothing. -/
  | optional (body : Regex)
  /-- Any number of texts of the body. -/
  | star (body : Regex)
  /-- One text of the body or more. -/
  | plus (body : Regex)
  deriving DecidableEq, Repr

namespace Regex

/-- Several expressions one after another. -/
def sequence (items : List Regex) : Regex := items.foldr seq empty

/-! ## Reading -/

/-- A sign of an expression's text. -/
inductive Lexeme where
  /-- A character that stands for itself. -/
  | text (c : Char)
  /-- A character with a meaning of its own. -/
  | sign (c : Char)
  /-- The start of a group. -/
  | openGroup
  /-- The start of a class. -/
  | openClass (negated : Bool)
  deriving DecidableEq, Repr

/-- The characters with a meaning of their own. -/
def signs : List Char :=
  ['\\', '.', '+', '*', '?', '(', ')', '|', '[', ']', '{', '}', '^', '$', '#', '&', '-', '~']

/-- The value of a hexadecimal digit. -/
def hexValue? (c : Char) : Option Nat :=
  ['0', '1', '2', '3', '4', '5', '6', '7', '8', '9', 'A', 'B', 'C', 'D', 'E', 'F'].idxOf? c.toUpper

/-- **The signs of a text.** The first argument is the value of the escape being read, if any. -/
def lex : Option Nat → List Char → Option (List Lexeme)
  | none, [] => some []
  | some _, [] => none
  | none, '\\' :: 'x' :: '{' :: c :: cs =>
    match hexValue? c with
    | some digit => lex (some digit) cs
    | none => none
  | none, '(' :: '?' :: ':' :: cs => (lex none cs).map (.openGroup :: ·)
  | none, '[' :: '^' :: cs => (lex none cs).map (.openClass true :: ·)
  | none, '[' :: cs => (lex none cs).map (.openClass false :: ·)
  | none, c :: cs => (lex none cs).map ((if signs.contains c then .sign c else .text c) :: ·)
  | some value, c :: cs =>
    if c = '}' then
      if value.isValidChar then (lex none cs).map (.text (Char.ofNat value) :: ·) else none
    else
      match hexValue? c with
      | some digit => lex (some (16 * value + digit)) cs
      | none => none

/-- The ranges of a class; a reversed one is refused. -/
def ranges? : List Lexeme → Option (List (Char × Char))
  | [] => some []
  | .text low :: .sign '-' :: .text high :: rest =>
    if low ≤ high then (ranges? rest).map ((low, high) :: ·) else none
  | .text c :: rest => (ranges? rest).map ((c, c) :: ·)
  | _ :: _ => none

/-- A group being read. -/
structure Frame where
  /-- The alternatives that are complete, the last one first. -/
  alternatives : List Regex := []
  /-- The items of the alternative being read, the last one first. -/
  items : List Regex := []

namespace Frame

/-- One more item. -/
def add (frame : Frame) (item : Regex) : Frame := { frame with items := item :: frame.items }

/-- The alternative being read is complete. -/
def next (frame : Frame) : Frame :=
  { alternatives := sequence frame.items.reverse :: frame.alternatives }

/-- What the group stands for once it is complete. -/
def close (frame : Frame) : Regex :=
  frame.alternatives.foldl (fun rest alternative => either alternative rest)
    (sequence frame.items.reverse)

/-- Change the last item, as a sign of repetition behind it does. -/
def modifyLast? (frame : Frame) (f : Regex → Regex) : Option Frame :=
  match frame.items with
  | [] => none
  | item :: items => some { frame with items := f item :: items }

end Frame

/-- What the reader of an expression is inside of. -/
inductive Scope where
  /-- Outside all classes. -/
  | outside
  /-- Inside a class: whether it is negated, and its signs, the last one first. -/
  | inside (negated : Bool) (members : List Lexeme)

/-- **The expression of several signs**, up to the end anchor. The groups around the one being read
are given from the inside out. -/
def parse : List Frame → Frame → Scope → List Lexeme → Option Regex
  | _, _, _, [] => none
  | stack, frame, .inside negated members, l :: ls =>
    if l = .sign ']' then
      if members.isEmpty then none
      else match ranges? members.reverse with
        | some ranges => parse stack (frame.add (.one negated ranges)) .outside ls
        | none => none
    else parse stack frame (.inside negated (l :: members)) ls
  | stack, frame, .outside, .text c :: ls =>
    parse stack (frame.add (.one false [(c, c)])) .outside ls
  | stack, frame, .outside, .openGroup :: ls => parse (frame :: stack) {} .outside ls
  | stack, frame, .outside, .openClass negated :: ls => parse stack frame (.inside negated []) ls
  | stack, frame, .outside, .sign c :: ls =>
    if c = '|' then parse stack frame.next .outside ls
    else if c = ')' then
      match stack with
      | outer :: stack => parse stack (outer.add frame.close) .outside ls
      | [] => none
    else if c = '*' then (frame.modifyLast? .star).bind fun frame => parse stack frame .outside ls
    else if c = '+' then (frame.modifyLast? .plus).bind fun frame => parse stack frame .outside ls
    else if c = '?' then
      (frame.modifyLast? .optional).bind fun frame => parse stack frame .outside ls
    else if c = '$' ∧ stack.isEmpty ∧ ls.isEmpty then some frame.close
    else none

/-- **The expression that a text stands for**, if it is one of the dialect: anchored at both
ends. -/
def read (text : List Char) : Option Regex :=
  match lex none text with
  | some (.sign '^' :: ls) => parse [] {} .outside ls
  | _ => none

end Regex

end SoundControl.Address
