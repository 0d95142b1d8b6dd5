import SoundControl.TypeSpec.Signature

/-!
# Descriptors

The ways in which a signature can be described: by type characters, code points, types, markers,
truth values, infinity, signatures, and lists of all these.

* **`Marker`** — general kinds of values, each standing for one wire type.
* **`Descriptor`** — the descriptions.
* **`Descriptor.tags`** — the types that a description lists, leaf by leaf.
* **`TypeSpec.ofDescriptor`** — the signature described.
-/

namespace SoundControl

open Number Text

/-- A general kind of value. -/
inductive Marker where
  /-- Integers. -/
  | int
  /-- Floating-point numbers. -/
  | float
  /-- Texts. -/
  | text
  /-- Bytes. -/
  | bytes
  /-- Time tags. -/
  | timeTag
  /-- MIDI messages. -/
  | midi
  /-- Nothing. -/
  | nothing
  deriving DecidableEq, Repr

/-- The wire type of a kind of value. -/
def Marker.tag : Marker → Tag
  | int => .int64
  | float => .float64
  | text => .string
  | bytes => .blob
  | timeTag => .timeTag
  | midi => .midi
  | nothing => .nil

/-- **A description of a signature.** -/
inductive Descriptor where
  /-- Any arguments; inside a list, the type of nothing. -/
  | none
  /-- Type characters. -/
  | codes (codes : String)
  /-- The code point of a type character. -/
  | ordinal (ordinal : UInt32)
  /-- A type. -/
  | tag (tag : Tag)
  /-- A general kind of value. -/
  | marker (marker : Marker)
  /-- The type of a truth value. -/
  | bool (b : Bool)
  /-- Infinity, for its type. -/
  | float (x : Binary64)
  /-- Several descriptions. -/
  | list (items : List Descriptor)
  /-- A signature. -/
  | spec (spec : TypeSpec)

namespace Descriptor

/-- The types listed by a signature inside a description. -/
def specTags : TypeSpec → Except Error (List Tag)
  | .typed first rest => .ok (first :: rest)
  | sentinel => .error (.nestedSentinel sentinel)

mutual

/-- **The types that a description lists.** -/
def tags : Descriptor → Except Error (List Tag)
  | none => .ok [.nil]
  | codes s => s.toList.mapM Tag.ofCode
  | ordinal n =>
    match (scalar? n.toNat).bind Tag.ofCode? with
    | some t => .ok [t]
    | .none => .error (.unknownOrdinal n.toNat)
  | tag t => .ok [t]
  | marker m => .ok [m.tag]
  | bool b => .ok [if b then .true else .false]
  | float x => if x.isInfinity then .ok [.infinitum] else .error (.namelessNumber x)
  | list items => tagsEach items
  | spec s => specTags s

/-- The types that descriptions list, one after the other. -/
def tagsEach : List Descriptor → Except Error (List Tag)
  | [] => .ok []
  | item :: items => do
    let first ← tags item
    let others ← tagsEach items
    return first ++ others

end

end Descriptor

/-- **The signature described.** -/
def TypeSpec.ofDescriptor : Descriptor → Except Error TypeSpec
  | .none => .ok anyArgs
  | .spec spec => .ok spec
  | descriptor => descriptor.tags.map ofTags

end SoundControl
