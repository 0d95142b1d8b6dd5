import SoundControl.TypeSpec.Tag

/-!
# Typespecs

The argument signature of a route: any arguments, none, or one wire type per argument.

* **`TypeSpec`** — the signatures, any first, then none, then lists of types.
* **`TypeSpec.ofTags`** — the signature of a list of types; the empty list means no arguments.
* **`TypeSpec.contains`** — any arguments contain every signature, others only themselves.
-/

namespace SoundControl

/-- **An argument signature.** -/
inductive TypeSpec where
  /-- Any arguments. -/
  | anyArgs
  /-- No arguments. -/
  | noArgs
  /-- One type per argument, at least one. -/
  | typed (first : Tag) (rest : List Tag)
  deriving DecidableEq, Repr

namespace TypeSpec

/-- The signature of a list of types. -/
def ofTags : List Tag → TypeSpec
  | [] => noArgs
  | first :: rest => typed first rest

/-- Any arguments. -/
def isAnyArgs (spec : TypeSpec) : Bool := spec = anyArgs

/-- No arguments. -/
def isNoArgs (spec : TypeSpec) : Bool := spec = noArgs

/-- The types listed; none if any or no arguments are meant. -/
def tags : TypeSpec → List Tag
  | typed first rest => first :: rest
  | _ => []

/-- How many types are listed. -/
def length (spec : TypeSpec) : Nat := spec.tags.length

/-- The characters of the listed types. -/
def codeText (spec : TypeSpec) : String := String.ofList (spec.tags.map Tag.code)

/-- The characters of the listed types, unless any arguments are meant. -/
def codes? (spec : TypeSpec) : Option String :=
  if spec.isAnyArgs then none else some spec.codeText

/-- The signature as shown to people. -/
def text : TypeSpec → String
  | anyArgs => "ANY_ARGS"
  | noArgs => "NO_ARGS"
  | spec@(typed _ _) => spec.codeText

/-- **Whether every argument list of `other` is one of `spec`.** -/
def contains (spec other : TypeSpec) : Bool := spec.isAnyArgs || spec = other

/-- Any arguments, then none, then lists of types, compared type by type. -/
instance : Ord TypeSpec where
  compare
    | anyArgs, anyArgs => .eq
    | anyArgs, _ => .lt
    | _, anyArgs => .gt
    | noArgs, noArgs => .eq
    | noArgs, typed _ _ => .lt
    | typed _ _, noArgs => .gt
    | typed s ss, typed t ts => compare (s :: ss) (t :: ts)

end TypeSpec

end SoundControl
