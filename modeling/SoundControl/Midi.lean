/-!
# MIDI messages

* **`Midi`** — a port, a status byte and two data bytes.
* **`Midi.ofBytes?`** — from exactly four bytes.
-/

namespace SoundControl

/-- A short MIDI message and the port it is for. -/
structure Midi where
  /-- Port. -/
  port : UInt8
  /-- Status byte. -/
  status : UInt8
  /-- First data byte. -/
  data1 : UInt8
  /-- Second data byte. -/
  data2 : UInt8
  deriving DecidableEq, Repr

namespace Midi

/-- The four bytes in order. -/
def toBytes (m : Midi) : List UInt8 := [m.port, m.status, m.data1, m.data2]

/-- The message of exactly four bytes. -/
def ofBytes? : List UInt8 → Option Midi
  | [port, status, data1, data2] => some ⟨port, status, data1, data2⟩
  | _ => none

@[simp] theorem ofBytes?_toBytes (m : Midi) : ofBytes? m.toBytes = some m := rfl

/-- The message as shown to people. -/
def text (m : Midi) : String :=
  "Midi(" ++ String.intercalate ", " (m.toBytes.map fun b => toString b.toNat) ++ ")"

end Midi

end SoundControl
