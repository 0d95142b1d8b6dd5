import SoundControl.Address.Syntax
import SoundControl.TypeSpec.Basic
import SoundControl.Wire.Argument

/-!
# Errors

Why an address, a value, an argument or a description is refused.

* **`Error`** — the causes.
* **`Error.kind`** — the coarse division: address, type, overflow and value errors.
* **`Error.message`** — the wording.
-/

namespace SoundControl

open Number Text Time Wire

/-- **Why something is refused.** -/
inductive Error where
  /-- A text is no address. -/
  | malformedAddress (source : String) (fault : Address.Fault)
  /-- A value of the wrong category for a type. -/
  | wrongCategory (value : Value) (tag : Tag)
  /-- A value whose category suggests no type. -/
  | unguessable (value : Value)
  /-- An argument that has none of the types. -/
  | unsupportedArgument (argument : Argument)
  /-- An argument of another type. -/
  | unexpectedArgument (tag : Tag) (argument : Argument)
  /-- Arguments that do not have a signature. -/
  | unacceptedArguments (spec : TypeSpec)
  /-- Bytes that are not four. -/
  | midiBytes (count : Nat)
  /-- An array whose items are not four. -/
  | midiItems (count : Nat)
  /-- A value of the right category that does not fit the type. -/
  | outOfRange (value : Value) (tag : Tag)
  /-- A text or bytes that are not one character. -/
  | notOneCharacter (count : Nat)
  /-- A time without a time tag. -/
  | outsideEra (fault : EraFault)
  /-- A text that is no integer. -/
  | notInteger (source : String)
  /-- Bytes that are none. -/
  | emptyBlob
  /-- An infinite number for a type of finite ones. -/
  | infiniteNumber (tag : Tag) (x : Binary64)
  /-- A value whose truth is not the one the type stands for. -/
  | wrongTruth (value : Value) (tag : Tag)
  /-- A number that is not positive infinity. -/
  | notInfinity (value : Value)
  /-- More or fewer arguments than a signature has types. -/
  | wrongArity (expected found : Nat)
  /-- Signatures one of which lists types and the other not, or of which just one is none. -/
  | notConcatenable (left right : TypeSpec)
  /-- Routes of different signatures where one signature is needed. -/
  | differentSpecs (left right : TypeSpec)
  /-- A character that stands for no type. -/
  | unknownCode (code : Char)
  /-- A number that is the code point of no type's character. -/
  | unknownOrdinal (ordinal : Nat)
  /-- A number other than infinity where a type is described. -/
  | namelessNumber (x : Binary64)
  /-- A signature without types where types are listed. -/
  | nestedSentinel (spec : TypeSpec)

namespace Error

/-- What an error message starts with. -/
inductive Heading where
  /-- A malformed address. -/
  | address
  /-- The wrong category. -/
  | type
  /-- The right category, and out of range. -/
  | overflow
  /-- In range, and refused for what it means. -/
  | value
  /-- A description that names no type. -/
  | typeSpec
  deriving DecidableEq, Repr

/-- The coarse division of errors. -/
inductive Kind where
  /-- A malformed address. -/
  | address
  /-- The wrong category. -/
  | type
  /-- Out of range. -/
  | overflow
  /-- Refused for what it means. -/
  | value
  deriving DecidableEq, Repr

/-- The heading an error belongs under. -/
def heading : Error → Heading
  | malformedAddress _ _ => .address
  | wrongCategory _ _ | unguessable _ | unsupportedArgument _ | unexpectedArgument _ _
  | unacceptedArguments _ | midiBytes _ | midiItems _ => .type
  | outOfRange _ _ | notOneCharacter _ | outsideEra _ => .overflow
  | notInteger _ | emptyBlob | infiniteNumber _ _ | wrongTruth _ _ | notInfinity _
  | wrongArity _ _ | notConcatenable _ _ | differentSpecs _ _ => .value
  | unknownCode _ | unknownOrdinal _ | namelessNumber _ | nestedSentinel _ => .typeSpec

/-- The kind of errors under a heading; descriptions that name no type are type errors. -/
def Heading.kind : Heading → Kind
  | .address => .address
  | .type | .typeSpec => .type
  | .overflow => .overflow
  | .value => .value

/-- **The kind of an error.** -/
def kind (e : Error) : Kind := e.heading.kind

/-- The words of a heading. -/
def Heading.text : Heading → String
  | .address => "invalid address pattern"
  | .type => "type error: "
  | .overflow => "overflow error: "
  | .value => "value error: "
  | .typeSpec => "invalid typespec: "

/-- What is said of the case at hand. -/
def detail : Error → String
  | malformedAddress source fault =>
    " at position " ++ toString fault.position ++ " of " ++ quote source ++ ": " ++
      fault.reason.message
  | wrongCategory value tag => value.typeName ++ " value cannot be packed as " ++ tag.name
  | unguessable value => "cannot guess a wire type for " ++ value.typeName ++ " value"
  | unsupportedArgument argument => "unsupported wire argument " ++ argument.shown
  | unexpectedArgument tag argument =>
    "expected a " ++ tag.name ++ " argument, got " ++ argument.shown
  | unacceptedArguments spec => "arguments do not match typespec " ++ spec.text
  | midiBytes count => "midi requires exactly 4 bytes, got " ++ toString count
  | midiItems count => "midi requires exactly 4 elements, got " ++ toString count
  | outOfRange value tag => value.shown ++ " is out of range for " ++ tag.name
  | notOneCharacter count => "char requires exactly one character, got " ++ toString count
  | outsideEra fault => fault.message
  | notInteger source => "invalid integer literal " ++ quote source
  | emptyBlob => "blob must not be empty"
  | infiniteNumber tag x =>
    tag.name ++ " cannot carry " ++ x.plainText ++ ", use the infinitum type"
  | wrongTruth value tag => value.shown ++ " is not a valid " ++ tag.name ++ " value"
  | notInfinity value => value.shown ++ " is not positive infinity"
  | wrongArity expected found =>
    "argument length does not match typespec: expected " ++ toString expected ++ ", got " ++
      toString found
  | notConcatenable left right => "cannot concatenate " ++ left.text ++ " with " ++ right.text
  | differentSpecs left right =>
    "cannot union routes with different typespecs: " ++ left.text ++ " and " ++ right.text
  | unknownCode code => "unknown type code " ++ quoteChar code
  | unknownOrdinal ordinal => "unknown type ordinal " ++ toString ordinal
  | namelessNumber x => "float " ++ x.plainText ++ " does not name a type"
  | nestedSentinel spec => spec.text ++ " cannot be combined with other types"

/-- **The wording of an error.** -/
def message (e : Error) : String := e.heading.text ++ e.detail

end Error

end SoundControl
