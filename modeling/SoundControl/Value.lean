import SoundControl.Midi
import SoundControl.Text.Quoted
import SoundControl.Text.Utf8
import SoundControl.Time.TimeTag

/-!
# Values

What applications send and receive, before a signature says how it travels.

* **`Value`** — scalars of every kind, arrays, and maps with text keys.
* **`Value.isTruthy`** — which values count as true.
* **`Value.scalarText?`** — the text of a scalar; none for nil and containers.
* **`Value.shown`** — any value as shown to people.
* **`Value.nestedText`** — a value as shown inside a map.
-/

namespace SoundControl

open Number Text Time

/-- **An application value.** -/
inductive Value where
  /-- Nothing. -/
  | nil
  /-- A truth value. -/
  | bool (b : Bool)
  /-- An integer. -/
  | int (i : Int)
  /-- A double-precision number. -/
  | float (x : Binary64)
  /-- A text. -/
  | text (s : String)
  /-- A single character. -/
  | char (c : Char)
  /-- Bytes. -/
  | bytes (content : List UInt8)
  /-- A time tag. -/
  | timeTag (t : TimeTag)
  /-- A moment of universal time. -/
  | instant (i : Instant)
  /-- A MIDI message. -/
  | midi (m : Midi)
  /-- Values in order. -/
  | array (items : List Value)
  /-- Values under keys, in key order. -/
  | map (entries : List (String × Value))

namespace Value

/-- The name of the value's category, used in messages. -/
def typeName : Value → String
  | .nil => "nil"
  | .bool _ => "bool"
  | .int _ => "int"
  | .float _ => "float"
  | .text _ => "str"
  | .char _ => "char"
  | .bytes _ => "bytes"
  | .timeTag _ => "timetag"
  | .instant _ => "datetime"
  | .midi _ => "midi"
  | .array _ => "array"
  | .map _ => "map"

/-- **Whether a value counts as true:** not nil, false, zero, or empty. -/
def isTruthy : Value → Bool
  | .nil => false
  | .bool b => b
  | .int i => i != 0
  | .float x => !x.isZero
  | .text s => !s.isEmpty
  | .bytes content => !content.isEmpty
  | .array items => !items.isEmpty
  | .map entries => !entries.isEmpty
  | .char _ | .timeTag _ | .instant _ | .midi _ => true

/-- Nothing. -/
def isNil : Value → Bool
  | .nil => true
  | _ => false

/-- The integer, if it fits 64 signed bits. -/
def toInt64? : Value → Option Int
  | .int i => if Int64.minValue.toInt ≤ i && i ≤ Int64.maxValue.toInt then some i else none
  | _ => none

/-- The number, integers rounded. -/
def toFloat? : Value → Option Binary64
  | .int i => some (Binary.ofInt _ i)
  | .float x => some x
  | _ => none

/-- The truth value. -/
def toBool? : Value → Option Bool
  | .bool b => some b
  | _ => none

/-- The text. -/
def toText? : Value → Option String
  | .text s => some s
  | _ => none

/-- The bytes. -/
def toBytes? : Value → Option (List UInt8)
  | .bytes content => some content
  | _ => none

/-- Bytes as a list of numbers. -/
def bytesText (content : List UInt8) : String :=
  "[" ++ String.intercalate ", " (content.map fun b => toString b.toNat) ++ "]"

/-- **The text of a scalar;** none for nil, containers, and bytes that are no text. -/
def scalarText? : Value → Option String
  | .text s => some s
  | .bool b => some (toString b)
  | .int i => some (toString i)
  | .float x => some x.literalText
  | .char c => some (String.singleton c)
  | .bytes content => (decodeUtf8 content).toOption
  | .timeTag t => some t.text
  | .instant i => some i.text
  | .midi m => some m.text
  | .nil | .array _ | .map _ => none

mutual

/-- **A value as shown inside a map:** under the name of its category. -/
def nestedText : Value → String
  | .nil => "Nil"
  | .bool b => "Bool(" ++ toString b ++ ")"
  | .int i => "Int(" ++ toString i ++ ")"
  | .float x => "Float(" ++ x.literalText ++ ")"
  | .text s => "Str(" ++ quote s ++ ")"
  | .char c => "Char(" ++ quoteChar c ++ ")"
  | .bytes content => "Bytes(" ++ bytesText content ++ ")"
  | .timeTag t =>
    "TimeTag(TimeTag \x7b sec: " ++ toString t.seconds.toNat ++ ", frac: " ++
      toString t.fraction.toNat ++ " \x7d)"
  | .instant i => "DateTime(" ++ i.zuluText ++ ")"
  | .midi m =>
    "Midi(Midi \x7b port: " ++ toString m.port.toNat ++ ", status: " ++ toString m.status.toNat ++
      ", data1: " ++ toString m.data1.toNat ++ ", data2: " ++ toString m.data2.toNat ++ " \x7d)"
  | .array items => "Array([" ++ String.intercalate ", " (nestedTexts items) ++ "])"
  | .map entries => "Map(\x7b" ++ String.intercalate ", " (entryTexts entries) ++ "\x7d)"

/-- Several values as shown inside a map. -/
def nestedTexts : List Value → List String
  | [] => []
  | v :: vs => nestedText v :: nestedTexts vs

/-- The entries of a map. -/
def entryTexts : List (String × Value) → List String
  | [] => []
  | (key, v) :: entries => (quote key ++ ": " ++ nestedText v) :: entryTexts entries

end

mutual

/-- **A value as shown to people.** -/
def shown : Value → String
  | .nil => "nil"
  | .bytes content => bytesText content
  | .array items => "[" ++ String.intercalate ", " (shownEach items) ++ "]"
  | .map entries => "\x7b" ++ String.intercalate ", " (entryTexts entries) ++ "\x7d"
  | .bool b => toString b
  | .int i => toString i
  | .float x => x.literalText
  | .text s => s
  | .char c => String.singleton c
  | .timeTag t => t.text
  | .instant i => i.text
  | .midi m => m.text

/-- Several values as shown to people. -/
def shownEach : List Value → List String
  | [] => []
  | v :: vs => shown v :: shownEach vs

end

end Value

end SoundControl
