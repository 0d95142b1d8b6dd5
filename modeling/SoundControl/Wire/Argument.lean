import SoundControl.Value

/-!
# Wire arguments and packets

What travels: arguments with fixed-width payloads, messages, and bundles of packets.

* **`Argument`** — one argument of a message.
* **`Packet`** — a message, or a bundle with a time tag.
* **`Argument.sameValue`** — equality of arguments, numbers compared by value.
* **`Argument.shown`** — an argument as shown in messages.
-/

namespace SoundControl.Wire

open Number Text Time

/-- A color with transparency. -/
structure Color where
  /-- Red. -/
  red : UInt8
  /-- Green. -/
  green : UInt8
  /-- Blue. -/
  blue : UInt8
  /-- Opacity. -/
  alpha : UInt8
  deriving DecidableEq, Repr

/-- **An argument of a message.** -/
inductive Argument where
  /-- A 32-bit integer. -/
  | int (i : Int32)
  /-- A 64-bit integer. -/
  | long (i : Int64)
  /-- A single-precision number. -/
  | float (x : Binary32)
  /-- A double-precision number. -/
  | double (x : Binary64)
  /-- A text. -/
  | string (s : String)
  /-- Bytes. -/
  | blob (content : List UInt8)
  /-- A time tag. -/
  | time (t : TimeTag)
  /-- A character. -/
  | char (c : Char)
  /-- A color. -/
  | color (c : Color)
  /-- A MIDI message. -/
  | midi (m : Midi)
  /-- A truth value, which is all tag and no data. -/
  | bool (b : Bool)
  /-- Nothing. -/
  | nil
  /-- Infinity. -/
  | infinitum
  /-- Arguments in brackets. -/
  | array (items : List Argument)

/-- A message: an address and its arguments. -/
structure MessagePacket where
  /-- The address, which may be a pattern. -/
  address : String
  /-- The arguments. -/
  arguments : List Argument

/-- **What is sent as a whole.** -/
inductive Packet where
  /-- A single message. -/
  | message (message : MessagePacket)
  /-- Packets under one time tag. -/
  | bundle (timeTag : TimeTag) (items : List Packet)

namespace Argument

mutual

/-- **Equality of arguments,** numbers compared by value: NaN differs from itself and the two zeros
are equal. -/
def sameValue : Argument → Argument → Bool
  | .int i, .int j => i == j
  | .long i, .long j => i == j
  | .float x, .float y => x.sameValue y
  | .double x, .double y => x.sameValue y
  | .string s, .string t => s == t
  | .blob a, .blob b => a == b
  | .time s, .time t => s == t
  | .char c, .char d => c == d
  | .color c, .color d => c == d
  | .midi m, .midi n => m == n
  | .bool b, .bool c => b == c
  | .nil, .nil => true
  | .infinitum, .infinitum => true
  | .array items, .array others => sameValues items others
  | _, _ => false

/-- Equality of argument lists, one by one. -/
def sameValues : List Argument → List Argument → Bool
  | [], [] => true
  | a :: as, b :: bs => sameValue a b && sameValues as bs
  | _, _ => false

end

mutual

/-- **An argument as shown in messages.** -/
def shown : Argument → String
  | .int i => "Int(" ++ toString i.toInt ++ ")"
  | .long i => "Long(" ++ toString i.toInt ++ ")"
  | .float x => "Float(" ++ x.literalText ++ ")"
  | .double x => "Double(" ++ x.literalText ++ ")"
  | .string s => "String(" ++ quote s ++ ")"
  | .blob content => "Blob(" ++ Value.bytesText content ++ ")"
  | .time t =>
    "Time(OscTime \x7b seconds: " ++ toString t.seconds.toNat ++ ", fractional: " ++
      toString t.fraction.toNat ++ " \x7d)"
  | .char c => "Char(" ++ quoteChar c ++ ")"
  | .color c =>
    "Color(OscColor \x7b red: " ++ toString c.red.toNat ++ ", green: " ++ toString c.green.toNat ++
      ", blue: " ++ toString c.blue.toNat ++ ", alpha: " ++ toString c.alpha.toNat ++ " \x7d)"
  | .midi m =>
    "Midi(OscMidiMessage \x7b port: " ++ toString m.port.toNat ++ ", status: " ++
      toString m.status.toNat ++ ", data1: " ++ toString m.data1.toNat ++ ", data2: " ++
      toString m.data2.toNat ++ " \x7d)"
  | .bool b => "Bool(" ++ toString b ++ ")"
  | .nil => "Nil"
  | .infinitum => "Inf"
  | .array items =>
    "Array(OscArray \x7b content: [" ++ String.intercalate ", " (shownEach items) ++ "] \x7d)"

/-- Several arguments as shown in messages. -/
def shownEach : List Argument → List String
  | [] => []
  | a :: as => shown a :: shownEach as

end

end Argument

end SoundControl.Wire
