import SoundControl.TypeSpec.Conversion

/-!
# Signatures at work

Reading a signature, and holding argument lists against it position by position.

* **`TypeSpec.parse`**, **`TypeSpec.guess`**, **`TypeSpec.ofArguments`** — signatures from type
  characters, from values, and from arguments.
* **`TypeSpec.concat`** — signatures one after the other.
* **`TypeSpec.accepts`** — whether an argument list has the signature.
* **`TypeSpec.pack`**, **`TypeSpec.unpack`**, **`TypeSpec.convert`** — values to arguments, back,
  and both; any arguments go by the types that values suggest.
-/

namespace SoundControl

open Wire

/-- The type a character stands for. -/
def Tag.ofCode (code : Char) : Except Error Tag :=
  match Tag.ofCode? code with
  | some tag => .ok tag
  | none => .error (.unknownCode code)

namespace TypeSpec

/-- **The signature written as type characters.** -/
def parse (codes : String) : Except Error TypeSpec :=
  (codes.toList.mapM Tag.ofCode).map ofTags

/-- **The signature that values suggest.** -/
def guess (values : List Value) : Except Error TypeSpec := (values.mapM Tag.guess).map ofTags

/-- **The signature of arguments.** -/
def ofArguments (arguments : List Argument) : Except Error TypeSpec :=
  (arguments.mapM Tag.ofArgument).map ofTags

/-- **One signature behind another.** Any arguments and no arguments go only with themselves. -/
def concat (left right : TypeSpec) : Except Error TypeSpec :=
  match left, right with
  | anyArgs, anyArgs => .ok anyArgs
  | noArgs, noArgs => .ok noArgs
  | typed s ss, typed t ts => .ok (typed s (ss ++ t :: ts))
  | _, _ => .error (.notConcatenable left right)

/-- **Whether an argument list has the signature.** -/
def accepts (spec : TypeSpec) (arguments : List Argument) : Bool :=
  match spec with
  | anyArgs => true
  | noArgs => arguments.isEmpty
  | spec@(typed _ _) =>
    spec.length == arguments.length && (spec.tags.zip arguments).all fun (t, a) => t.accepts a

/-- Convert position by position; the lists have to be equally long. -/
def convertEach {α β : Type} (rule : Tag → α → Except Error β) (tags : List Tag) (items : List α) :
    Except Error (List β) :=
  if items.length = tags.length then (tags.zip items).mapM fun (t, a) => rule t a
  else .error (.wrongArity tags.length items.length)

/-- **Values as arguments.** -/
def pack (spec : TypeSpec) (values : List Value) : Except Error (List Argument) :=
  match spec with
  | anyArgs => values.mapM fun v => do (← Tag.guess v).pack v
  | spec => convertEach Tag.pack spec.tags values

/-- **Arguments as values.** -/
def unpack (spec : TypeSpec) (arguments : List Argument) : Except Error (List Value) :=
  match spec with
  | anyArgs => arguments.mapM fun a => do (← Tag.ofArgument a).unpack a
  | spec => convertEach Tag.unpack spec.tags arguments

/-- **Values as they come back after travelling.** -/
def convert (spec : TypeSpec) (values : List Value) : Except Error (List Value) := do
  spec.unpack (← spec.pack values)

end TypeSpec

end SoundControl
