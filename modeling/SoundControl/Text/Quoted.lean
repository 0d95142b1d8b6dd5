import SoundControl.Text.Invisible

/-!
# Quoted text

A text or character between quotes, as it is shown in messages: the quote and the backslash get a
backslash, tab, newline, return and null have short escapes, and every other invisible character
is spelled `\u` with its code point in braces.

* **`quote`** — a text between double quotes.
* **`quoteChar`** — a character between single quotes.
-/

namespace SoundControl.Text

/-- A code point in lower-case hexadecimal, without padding. -/
def hexDigits (n : Nat) : List Char := Nat.toDigits 16 n

/-- One character inside quotes of the given kind. -/
def escape (mark c : Char) : List Char :=
  if c = '\x00' then ['\\', '0']
  else if c = '\t' then ['\\', 't']
  else if c = '\n' then ['\\', 'n']
  else if c = '\r' then ['\\', 'r']
  else if c = '\\' || c = mark then ['\\', c]
  else if isInvisible c then ['\\', 'u', '{'] ++ hexDigits c.toNat ++ ['}']
  else [c]

/-- **A text between double quotes.** -/
def quote (s : String) : String :=
  String.ofList (['"'] ++ s.toList.flatMap (escape '"') ++ ['"'])

/-- **A character between single quotes.** -/
def quoteChar (c : Char) : String :=
  String.ofList (['\''] ++ escape '\'' c ++ ['\''])

end SoundControl.Text
