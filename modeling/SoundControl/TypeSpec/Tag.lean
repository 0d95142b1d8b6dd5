/-!
# Type tags

The wire types an argument can have, each named by one character.

* **`Tag`** — the fourteen types.
* **`Tag.code`**, **`Tag.ofCode?`** — the character of a type and back.
-/

namespace SoundControl

/-- **A wire type.** -/
inductive Tag where
  /-- 32-bit integer. -/
  | int32
  /-- Single-precision number. -/
  | float32
  /-- Text. -/
  | string
  /-- Bytes. -/
  | blob
  /-- 64-bit integer. -/
  | int64
  /-- Time tag. -/
  | timeTag
  /-- Double-precision number. -/
  | float64
  /-- Text that names something. -/
  | symbol
  /-- Character. -/
  | char
  /-- MIDI message. -/
  | midi
  /-- True. -/
  | true
  /-- False. -/
  | false
  /-- Nothing. -/
  | nil
  /-- Infinity. -/
  | infinitum
  deriving DecidableEq, Repr

namespace Tag

/-- Every wire type, the standard ones first. -/
def all : List Tag :=
  [int32, float32, string, blob, int64, timeTag, float64, symbol, char, midi, .true, .false, nil,
    infinitum]

/-- **The character that stands for a type.** -/
def code : Tag → Char
  | int32 => 'i'
  | float32 => 'f'
  | string => 's'
  | blob => 'b'
  | int64 => 'h'
  | timeTag => 't'
  | float64 => 'd'
  | symbol => 'S'
  | char => 'c'
  | midi => 'm'
  | .true => 'T'
  | .false => 'F'
  | nil => 'N'
  | infinitum => 'I'

/-- The type a character stands for. -/
def ofCode? (c : Char) : Option Tag := all.find? (·.code == c)

@[simp] theorem ofCode?_code (t : Tag) : ofCode? t.code = some t := by cases t <;> rfl

/-- The type's name, used in messages. -/
def name : Tag → String
  | int32 => "int32"
  | float32 => "float32"
  | string => "string"
  | blob => "blob"
  | int64 => "int64"
  | timeTag => "timetag"
  | float64 => "float64"
  | symbol => "symbol"
  | char => "char"
  | midi => "midi"
  | .true => "true"
  | .false => "false"
  | nil => "nil"
  | infinitum => "infinitum"

/-- The type's character as text. -/
def text (t : Tag) : String := String.singleton t.code

/-- Types in order of their characters. -/
instance : Ord Tag := ⟨fun s t => compare s.code t.code⟩

end Tag

end SoundControl
