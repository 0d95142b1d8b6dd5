import SoundControl.Error
import SoundControl.Text.IntegerText

/-!
# Conversion of single arguments

Each type has one rule for turning a value into an argument.  Category is checked first, then
range, then what the type itself demands.

* **`Tag.ofArgument`** — the type of an argument; arrays and colors have none.
* **`Tag.accepts`** — whether an argument has a type; symbols travel as texts.
* **`Tag.pack`** — a value as an argument of a type.
* **`Tag.unpack`** — an argument of a type as a value.
* **`Tag.convert`** — a value as it comes back after travelling.
* **`Tag.guess`** — the type that a value suggests.
-/

namespace SoundControl

open Number Text Time Wire

namespace Tag

/-! ## Types of arguments -/

/-- **The type of an argument.** -/
def ofArgument : Argument → Except Error Tag
  | .int _ => .ok int32
  | .long _ => .ok int64
  | .float _ => .ok float32
  | .double _ => .ok float64
  | .string _ => .ok string
  | .char _ => .ok char
  | .blob _ => .ok blob
  | .time _ => .ok timeTag
  | .midi _ => .ok midi
  | .bool b => .ok (if b then .true else .false)
  | .nil => .ok nil
  | .infinitum => .ok infinitum
  | argument => .error (.unsupportedArgument argument)

/-- **Whether an argument has the type.** -/
def accepts (tag : Tag) (argument : Argument) : Bool :=
  match ofArgument argument with
  | .ok found => found = tag || (tag = symbol && found = string)
  | .error _ => Bool.false

/-! ## From values -/

/-- The integer a value stands for. -/
def integerOf (tag : Tag) (value : Value) : Except Error Int :=
  match value with
  | .int i => .ok i
  | .bool b => .ok (if b then 1 else 0)
  | .text s =>
    match readInteger s with
    | .ok i => .ok i
    | .error .outOfRange => .error (.outOfRange value tag)
    | .error .malformed => .error (.notInteger s)
  | _ => .error (.wrongCategory value tag)

/-- The finite number, or NaN, that a value stands for. -/
def numberOf (tag : Tag) (value : Value) : Except Error Binary64 := do
  let x ← match value with
    | .int i => .ok (Binary.ofInt _ i)
    | .float x => .ok x
    | .bool b => .ok (Binary.ofInt _ (if b then 1 else 0))
    | _ => .error (.wrongCategory value tag)
  if x.isInfinite then .error (.infiniteNumber tag x) else .ok x

/-- The character a value stands for. -/
def characterOf (tag : Tag) (value : Value) : Except Error Char :=
  match value with
  | .char c => .ok c
  | .text s =>
    match s.toList with
    | [c] => .ok c
    | cs => .error (.notOneCharacter cs.length)
  | .bytes [b] => .ok (Char.ofNat b.toNat)
  | .bytes content => .error (.notOneCharacter content.length)
  | .int i =>
    if 0 ≤ i && i < 256 then .ok (Char.ofNat i.toNat) else .error (.outOfRange value tag)
  | .bool b => .ok (Char.ofNat (if b then 1 else 0))
  | _ => .error (.wrongCategory value tag)

/-- The time tag a value stands for. -/
def timeTagOf (tag : Tag) (value : Value) : Except Error TimeTag :=
  match value with
  | .timeTag t => .ok t
  | .instant i => (TimeTag.ofInstant? i).mapError .outsideEra
  | .int i =>
    if 0 ≤ i && i < ticksPerSecond then .ok ⟨UInt32.ofNat i.toNat, 0⟩
    else .error (.outOfRange value tag)
  | .float x => (TimeTag.ofTimestamp x).mapError .outsideEra
  | _ => .error (.wrongCategory value tag)

/-- One byte of a MIDI message given as an array. -/
def midiByteOf (tag : Tag) (item : Value) : Except Error UInt8 :=
  match item with
  | .int i => if 0 ≤ i && i < 256 then .ok (UInt8.ofNat i.toNat) else .error (.outOfRange item tag)
  | _ => .error (.wrongCategory item tag)

/-- The MIDI message a value stands for. -/
def midiOf (tag : Tag) (value : Value) : Except Error Midi :=
  match value with
  | .midi m => .ok m
  | .bytes content =>
    match Midi.ofBytes? content with
    | some m => .ok m
    | none => .error (.midiBytes content.length)
  | .array [a, b, c, d] => do
    let port ← midiByteOf tag a
    let status ← midiByteOf tag b
    let data1 ← midiByteOf tag c
    let data2 ← midiByteOf tag d
    return ⟨port, status, data1, data2⟩
  | .array items => .error (.midiItems items.length)
  | _ => .error (.wrongCategory value tag)

/-- The categories whose truth a truth type asks for. -/
def hasTruth : Value → Bool
  | .bool _ | .int _ | .float _ | .text _ | .bytes _ | .char _ => Bool.true
  | _ => Bool.false

/-- A value as the truth `expected`, which is what the type stands for. -/
def packTruth (tag : Tag) (expected : Bool) (value : Value) : Except Error Argument :=
  if hasTruth value then
    if value.isTruthy = expected then .ok (.bool expected) else .error (.wrongTruth value tag)
  else .error (.wrongCategory value tag)

/-- **A value as an argument of the type.** -/
def pack (tag : Tag) (value : Value) : Except Error Argument :=
  match tag with
  | int32 => do
    let i ← integerOf tag value
    if Int32.minValue.toInt ≤ i && i ≤ Int32.maxValue.toInt then return .int (Int32.ofInt i)
    else throw (.outOfRange value tag)
  | int64 => do
    let i ← integerOf tag value
    if Int64.minValue.toInt ≤ i && i ≤ Int64.maxValue.toInt then return .long (Int64.ofInt i)
    else throw (.outOfRange value tag)
  | float32 => do
    let x ← numberOf tag value
    let narrowed : Binary32 := x.convert _
    if narrowed.isInfinite || (narrowed.isZero && !x.isZero) then throw (.outOfRange value tag)
    else return .float narrowed
  | float64 => (numberOf tag value).map .double
  | string | symbol =>
    match value.scalarText? with
    | some s => .ok (.string s)
    | none => .error (.wrongCategory value tag)
  | char => (characterOf tag value).map .char
  | blob =>
    match value with
    | .bytes content => if content.isEmpty then .error .emptyBlob else .ok (.blob content)
    | _ => .error (.wrongCategory value tag)
  | timeTag => (timeTagOf tag value).map .time
  | midi => (midiOf tag value).map .midi
  | .true => packTruth tag Bool.true value
  | .false => packTruth tag Bool.false value
  | nil =>
    match value with
    | .nil => .ok .nil
    | _ => .error (.wrongCategory value tag)
  | infinitum =>
    match value with
    | .float x => if x.isInfinity then .ok .infinitum else .error (.notInfinity value)
    | .int _ => .error (.notInfinity value)
    | _ => .error (.wrongCategory value tag)

/-! ## To values -/

/-- The value an argument stands for; nil for those that have no type. -/
def valueOf : Argument → Value
  | .int i => .int i.toInt
  | .long i => .int i.toInt
  | .float x => .float (x.convert _)
  | .double x => .float x
  | .string s => .text s
  | .char c => .char c
  | .blob content => .bytes content
  | .time t => .timeTag t
  | .midi m => .midi m
  | .bool b => .bool b
  | .infinitum => .float Binary.infinity
  | _ => .nil

/-- **An argument of the type as a value.** -/
def unpack (tag : Tag) (argument : Argument) : Except Error Value :=
  if tag.accepts argument then .ok (valueOf argument)
  else .error (.unexpectedArgument tag argument)

/-- **A value as it comes back after travelling.** -/
def convert (tag : Tag) (value : Value) : Except Error Value := do
  tag.unpack (← tag.pack value)

/-! ## Types suggested by values -/

/-- An integer that fits a byte. -/
def isByte : Value → Bool
  | .int i => 0 ≤ i && i ≤ 255
  | _ => Bool.false

/-- **The type that a value suggests.** Four byte-sized integers in an array suggest a MIDI
message. -/
def guess (value : Value) : Except Error Tag :=
  match value with
  | .bool b => .ok (if b then .true else .false)
  | .int _ => .ok int64
  | .float x => .ok (if x.isInfinity then infinitum else float64)
  | .text _ => .ok string
  | .char _ => .ok char
  | .bytes _ => .ok blob
  | .nil => .ok nil
  | .midi _ => .ok midi
  | .array items =>
    if items.length = 4 && items.all isByte then .ok midi else .error (.unguessable value)
  | .timeTag _ | .instant _ => .ok timeTag
  | .map _ => .error (.unguessable value)

end Tag

end SoundControl
