import SoundControl.Wire.Encode

/-!
# Decoding packets

Bytes as a packet, read from the front; what follows the packet is ignored.  Gaps behind texts and
blobs are measured from the start of the whole datagram, also inside a bundle.

* **`DecodeFault`** — why bytes are no packet.
* **`Cursor`** — the bytes still to be read, and where they start in the datagram.
* **`Cursor.text`**, **`Cursor.blob`** — a text or blob and the gap of one to four bytes behind it.
* **`readArguments`** — arguments by their type characters; inside brackets a new list begins, and
  what stands before a bracket that never closes is lost.
* **`readPacket`**, **`decode`** — a packet; a bundle's list of packets ends silently at the first
  that cannot be read.
-/

namespace SoundControl.Wire

open Number Text Time

/-- **Why bytes are no packet.** -/
inductive DecodeFault where
  /-- Fewer bytes than needed. -/
  | endOfData
  /-- Bytes of a text that are no UTF-8. -/
  | invalidText (bytes : List UInt8) (fault : Utf8Fault)
  /-- No bytes at all. -/
  | emptyPacket
  /-- Neither an address nor the name of a bundle. -/
  | invalidAddress
  /-- A closing bracket without its opening one. -/
  | strayBracket
  /-- A character's code that is none. -/
  | invalidCharacter
  /-- A type character without a meaning. -/
  | unknownTag (tag : Char)
  deriving DecidableEq, Repr

/-- A fault in UTF-8 as shown in messages. -/
def utf8FaultText (fault : Utf8Fault) : String :=
  let length := match fault.faultLength with
    | some n => "Some(" ++ toString n ++ ")"
    | none => "None"
  "Utf8Error \x7b valid_up_to: " ++ toString fault.validUpTo ++ ", error_len: " ++ length ++ " \x7d"

/-- The wording of a decoding fault. -/
def DecodeFault.message : DecodeFault → String
  | .endOfData => "ReadError(Eof)"
  | .invalidText bytes fault =>
    "StringError(FromUtf8Error \x7b bytes: " ++ Value.bytesText bytes ++ ", error: " ++
      utf8FaultText fault ++ " \x7d)"
  | .emptyPacket => "BadPacket(\"Empty packet.\")"
  | .invalidAddress => "BadPacket(\"Invalid message address or bundle tag\")"
  | .strayBracket => "BadMessage(\"Encountered ] outside array\")"
  | .invalidCharacter => "BadArg(\"Argument is not a char!\")"
  | .unknownTag tag =>
    "BadArg(" ++ quote ("Type tag \"" ++ String.singleton tag ++ "\" is not implemented!") ++ ")"

/-- **The bytes still to be read,** and their offset in the datagram. -/
structure Cursor where
  /-- Offset of the first byte from the start of the datagram. -/
  offset : Nat
  /-- The bytes up to the end of the enclosing packet. -/
  bytes : List UInt8
  deriving DecidableEq, Repr

namespace Cursor

/-- Take a number of bytes. -/
def take (c : Cursor) (count : Nat) : Except DecodeFault (List UInt8 × Cursor) :=
  if count ≤ c.bytes.length then
    .ok (c.bytes.take count, ⟨c.offset + count, c.bytes.drop count⟩)
  else .error .endOfData

/-- Take a number of the given width in bytes. -/
def number (c : Cursor) (width : Nat) : Except DecodeFault (Nat × Cursor) := do
  let (bytes, c) ← c.take width
  return (ofBigEndian bytes, c)

/-- Skip the gap behind a text or blob that ends here. -/
def skipGap (c : Cursor) : Except DecodeFault Cursor := do
  let (_, c) ← c.take (gap c.offset)
  return c

/-- **Take a text:** the bytes up to the first zero byte, and the gap behind them. -/
def text (c : Cursor) : Except DecodeFault (String × Cursor) := do
  let content := c.bytes.takeWhile (· != 0)
  let (_, c) ← c.take content.length
  let c ← c.skipGap
  match decodeUtf8 content with
  | .ok s => return (s, c)
  | .error fault => throw (.invalidText content fault)

/-- **Take a blob:** its length, its bytes, and the gap behind them. -/
def blob (c : Cursor) : Except DecodeFault (List UInt8 × Cursor) := do
  let (length, c) ← c.number 4
  let (content, c) ← c.take length
  let c ← c.skipGap
  return (content, c)

/-- Take a time tag. -/
def timeTag (c : Cursor) : Except DecodeFault (TimeTag × Cursor) := do
  let (seconds, c) ← c.number 4
  let (fraction, c) ← c.number 4
  return (⟨UInt32.ofNat seconds, UInt32.ofNat fraction⟩, c)

/-- Take four bytes. -/
def quad (c : Cursor) : Except DecodeFault ((UInt8 × UInt8 × UInt8 × UInt8) × Cursor) := do
  match ← c.take 4 with
  | ([w, x, y, z], c) => return ((w, x, y, z), c)
  | _ => throw .endOfData

/-- **Take the argument of a type character.** -/
def argument (c : Cursor) (tag : Char) : Except DecodeFault (Argument × Cursor) := do
  match tag with
  | 'i' =>
    let (n, c) ← c.number 4
    return (.int (UInt32.ofNat n).toInt32, c)
  | 'h' =>
    let (n, c) ← c.number 8
    return (.long (UInt64.ofNat n).toInt64, c)
  | 'f' =>
    let (n, c) ← c.number 4
    return (.float (Binary.ofBits _ n), c)
  | 'd' =>
    let (n, c) ← c.number 8
    return (.double (Binary.ofBits _ n), c)
  | 's' =>
    let (s, c) ← c.text
    return (.string s, c)
  | 'b' =>
    let (content, c) ← c.blob
    return (.blob content, c)
  | 't' =>
    let (t, c) ← c.timeTag
    return (.time t, c)
  | 'c' =>
    let (n, c) ← c.number 4
    match scalar? n with
    | some ch => return (.char ch, c)
    | none => throw .invalidCharacter
  | 'r' =>
    let ((red, green, blue, alpha), c) ← c.quad
    return (.color ⟨red, green, blue, alpha⟩, c)
  | 'm' =>
    let ((port, status, data1, data2), c) ← c.quad
    return (.midi ⟨port, status, data1, data2⟩, c)
  | 'T' => return (.bool true, c)
  | 'F' => return (.bool false, c)
  | 'N' => return (.nil, c)
  | 'I' => return (.infinitum, c)
  | other => throw (.unknownTag other)

end Cursor

/-- **Arguments by their type characters.** `found` are those of the list being read, reversed, and
`outer` those of the lists around it. -/
def readArguments (c : Cursor) (found : List Argument) (outer : List (List Argument)) :
    List Char → Except DecodeFault (List Argument)
  | [] => .ok found.reverse
  | '[' :: tags => readArguments c [] (found :: outer) tags
  | ']' :: tags =>
    match outer with
    | [] => .error .strayBracket
    | enclosing :: outer => readArguments c (.array found.reverse :: enclosing) outer tags
  | tag :: tags => do
    let (argument, c) ← c.argument tag
    readArguments c (argument :: found) outer tags

/-- A message whose address has been read.  The first type character is the comma and is not looked
at. -/
def readMessage (address : String) (c : Cursor) : Except DecodeFault Packet := do
  let (tags, c) ← c.text
  let arguments ← readArguments c [] [] tags.toList.tail
  return .message ⟨address, arguments⟩

/-- The bytes of a bundle's next packet, and what follows. -/
def Cursor.item (c : Cursor) : Except DecodeFault (Cursor × Cursor) := do
  let (length, c) ← c.number 4
  let (content, rest) ← c.take length
  return (⟨c.offset, content⟩, rest)

mutual

/-- A packet of at most `fuel` bytes. -/
def readPacket : Nat → Cursor → Except DecodeFault Packet
  | 0, _ => .error .emptyPacket
  | fuel + 1, c =>
    if c.bytes.isEmpty then .error .emptyPacket
    else do
      let (address, c) ← c.text
      if address.toList.head? = some '/' then readMessage address c
      else if address = bundleName then
        let (t, c) ← c.timeTag
        return .bundle t (readItems fuel c)
      else throw .invalidAddress

/-- A bundle's packets, at most `fuel` bytes of them, up to the first that cannot be read. -/
def readItems : Nat → Cursor → List Packet
  | 0, _ => []
  | fuel + 1, c =>
    match c.item with
    | .error _ => []
    | .ok (content, rest) =>
      match readPacket fuel content with
      | .error _ => []
      | .ok p => p :: readItems fuel rest

end

/-- **The packet at the start of a datagram.** -/
def decode (bytes : List UInt8) : Except DecodeFault Packet :=
  readPacket bytes.length ⟨0, bytes⟩

end SoundControl.Wire
