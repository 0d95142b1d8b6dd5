import SoundControl.Wire.Argument
import SoundControl.Wire.Bytes

/-!
# Encoding packets

A message is its address, the type characters of its arguments behind a comma, and their data; a
bundle is its name, its time tag, and its packets, each behind its length.

* **`Argument.tagChars`**, **`Argument.data`** — the type characters and the bytes of an argument.
* **`encodeText`**, **`encodeBlob`** — texts end in one to four zero bytes, blobs have their length
  in front and are filled up to a multiple of four.
* **`Packet.encode`** — the bytes of a packet.
-/

namespace SoundControl.Wire

open Number Text Time

/-- A text with the one to four zero bytes behind it. -/
def encodeText (s : String) : List UInt8 :=
  let bytes := encodeUtf8 s
  bytes ++ List.replicate (gap bytes.length) 0

/-- A blob behind its length, filled up. -/
def encodeBlob (content : List UInt8) : List UInt8 :=
  bigEndian 4 content.length ++ content ++ padding content.length

/-- A time tag: seconds, then fraction. -/
def encodeTimeTag (t : TimeTag) : List UInt8 :=
  bigEndian 4 t.seconds.toNat ++ bigEndian 4 t.fraction.toNat

namespace Argument

mutual

/-- **The type characters of an argument.** -/
def tagChars : Argument → List Char
  | .int _ => ['i']
  | .long _ => ['h']
  | .float _ => ['f']
  | .double _ => ['d']
  | .string _ => ['s']
  | .blob _ => ['b']
  | .time _ => ['t']
  | .char _ => ['c']
  | .color _ => ['r']
  | .midi _ => ['m']
  | .bool b => [if b then 'T' else 'F']
  | .nil => ['N']
  | .infinitum => ['I']
  | .array items => ['['] ++ tagCharsEach items ++ [']']

/-- The type characters of arguments in order. -/
def tagCharsEach : List Argument → List Char
  | [] => []
  | a :: as => tagChars a ++ tagCharsEach as

end

mutual

/-- **The data of an argument.** -/
def data : Argument → List UInt8
  | .int i => bigEndian 4 i.toUInt32.toNat
  | .long i => bigEndian 8 i.toUInt64.toNat
  | .float x => bigEndian 4 x.toBits
  | .double x => bigEndian 8 x.toBits
  | .string s => encodeText s
  | .blob content => encodeBlob content
  | .time t => encodeTimeTag t
  | .char c => bigEndian 4 c.toNat
  | .color c => [c.red, c.green, c.blue, c.alpha]
  | .midi m => m.toBytes
  | .bool _ => []
  | .nil => []
  | .infinitum => []
  | .array items => dataEach items

/-- The data of arguments in order. -/
def dataEach : List Argument → List UInt8
  | [] => []
  | a :: as => data a ++ dataEach as

end

end Argument

/-- The bytes of a message. -/
def MessagePacket.encode (m : MessagePacket) : List UInt8 :=
  encodeText m.address ++ encodeText (String.ofList (',' :: Argument.tagCharsEach m.arguments)) ++
    Argument.dataEach m.arguments

/-- What a bundle starts with. -/
def bundleName : String := "#bundle"

mutual

/-- **The bytes of a packet.** -/
def Packet.encode : Packet → List UInt8
  | .message m => m.encode
  | .bundle t items => encodeText bundleName ++ encodeTimeTag t ++ encodeItems items

/-- The bytes of a bundle's packets, each behind its length. -/
def encodeItems : List Packet → List UInt8
  | [] => []
  | p :: ps => bigEndian 4 p.encode.length ++ p.encode ++ encodeItems ps

end

end SoundControl.Wire
