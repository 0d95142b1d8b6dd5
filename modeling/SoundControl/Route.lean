import SoundControl.Address.Path
import SoundControl.TypeSpec.Signature

/-!
# Routes

A route is a path with the signature of the arguments it carries.

* **`Route`** — path and signature, compared in this order.
* **`Route.accepts`** — whether a message at an address belongs here.
* **`Route.contains`**, **`Route.intersects`**, **`Route.union`** — how routes cover one another.
-/

namespace SoundControl

open Address Text Wire

/-- **Where messages go and what they carry.** -/
structure Route where
  /-- The addresses meant. -/
  path : Path
  /-- The signature of the arguments. -/
  spec : TypeSpec
  deriving DecidableEq

namespace Route

/-- Every address, any arguments. -/
def everything : Route := ⟨.any, .anyArgs⟩

/-- Every address and any arguments are meant. -/
def isEverything (r : Route) : Bool := r.path.isAny && r.spec.isAnyArgs

/-- **Whether a message at an address belongs here.** -/
def accepts (r : Route) (address : String) (arguments : List Argument) : Bool :=
  r.path.covers address && r.spec.accepts arguments

/-- **Whether every message of `q` belongs to `r`,** decided part by part. -/
def contains (r q : Route) : Bool := r.path.contains q.path && r.spec.contains q.spec

/-- **Whether some address is served by both routes.** Signatures have to be equal unless one
route takes any arguments; paths overlap if one contains the other or covers a text that the other
was read from. -/
def intersects (r q : Route) : Bool :=
  (r.spec = q.spec || r.spec.isAnyArgs || q.spec.isAnyArgs) &&
    (r.path.contains q.path || q.path.contains r.path ||
      r.path.addresses.any (fun s => q.path.covers s) ||
      q.path.addresses.any (fun s => r.path.covers s))

/-- **The route of both paths;** signatures must be equal. -/
def union (r q : Route) : Except Error Route :=
  if r.spec = q.spec then .ok ⟨r.path.union q.path, r.spec⟩
  else .error (.differentSpecs r.spec q.spec)

/-- The texts that a message to the route is addressed to. -/
def addresses (r : Route) : List String := r.path.addresses

/-- Paths first, then signatures. -/
instance : Ord Route := ⟨fun r q => (compare r.path q.path).then (compare r.spec q.spec)⟩

/-- The route as shown to people. -/
def text (r : Route) : String := "Route(" ++ r.path.text ++ ", " ++ r.spec.text ++ ")"

/-- The route with its parts in quotes. -/
def quotedText (r : Route) : String :=
  "Route(" ++ quote r.path.text ++ ", " ++ quote r.spec.text ++ ")"

end Route

end SoundControl
