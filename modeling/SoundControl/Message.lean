import SoundControl.Failure

/-!
# Messages and bundles

A message is a route with arguments that have its signature; a bundle is messages and bundles under
one time tag.  A message to several addresses becomes one packet for each.

* **`Message`**, **`Message.ofValues`**, **`Message.ofArguments`** — messages whose arguments fit.
* **`Message.packets`** — one packet per address.
* **`Item`**, **`Bundle`** — what a bundle holds, and the whole.
* **`Bundle.packet`** — the bundle as one packet.
-/

namespace SoundControl

open Time Wire

/-- **A route with arguments for it.** -/
structure Message where
  /-- Where it goes. -/
  route : Route
  /-- What it carries. -/
  arguments : List Argument

namespace Message

/-- A message of values, packed by the route's signature. -/
def ofValues (route : Route) (values : List Value) : Except Error Message :=
  (route.spec.pack values).map (⟨route, ·⟩)

/-- A message of arguments that have the route's signature. -/
def ofArguments (route : Route) (arguments : List Argument) : Except Error Message :=
  if route.spec.accepts arguments then .ok ⟨route, arguments⟩
  else .error (.unacceptedArguments route.spec)

/-- The arguments as values. -/
def unpack (m : Message) : Except Error (List Value) := m.route.spec.unpack m.arguments

/-- The texts that the message is addressed to. -/
def addresses (m : Message) : List String := m.route.addresses

/-- **One packet per address.** -/
def packets (m : Message) : Except Failure (List Packet) :=
  if m.addresses.isEmpty then .error (.unaddressed m.route)
  else .ok (m.addresses.map fun address => .message ⟨address, m.arguments⟩)

/-- Equality of messages, numbers compared by value. -/
def sameValue (m n : Message) : Bool :=
  m.route = n.route && Argument.sameValues m.arguments n.arguments

end Message

/-- **What a bundle holds.** -/
inductive Item where
  /-- A message. -/
  | message (message : Message)
  /-- A bundle of its own. -/
  | bundle (timeTag : TimeTag) (items : List Item)

namespace Item

mutual

/-- Equality of items, numbers compared by value. -/
def sameValue : Item → Item → Bool
  | .message m, .message n => m.sameValue n
  | .bundle s items, .bundle t others => s = t && sameValues items others
  | _, _ => false

/-- Equality of lists of items, one by one. -/
def sameValues : List Item → List Item → Bool
  | [], [] => true
  | a :: as, b :: bs => sameValue a b && sameValues as bs
  | _, _ => false

end

mutual

/-- **The packets of an item:** those of a message, or one bundle. -/
def packets : Item → Except Failure (List Packet)
  | .message m => m.packets
  | .bundle t items => (packetsEach items).map fun content => [.bundle t content]

/-- The packets of items in order. -/
def packetsEach : List Item → Except Failure (List Packet)
  | [] => .ok []
  | item :: items => do
    let first ← packets item
    let others ← packetsEach items
    return first ++ others

end

end Item

/-- **Messages and bundles under one time tag.** -/
structure Bundle where
  /-- When they take effect. -/
  timeTag : TimeTag := .immediate
  /-- What it holds. -/
  items : List Item := []

namespace Bundle

/-- The bundle as part of another. -/
def toItem (b : Bundle) : Item := .bundle b.timeTag b.items

/-- How many items. -/
def length (b : Bundle) : Nat := b.items.length

/-- More items behind those there are. -/
def extend (b : Bundle) (items : List Item) : Bundle := { b with items := b.items ++ items }

/-- Equality of bundles, numbers compared by value. -/
def sameValue (a b : Bundle) : Bool := a.toItem.sameValue b.toItem

/-- Bundles in order of their time tags alone. -/
def compareTimeTags (a b : Bundle) : Ordering := compare a.timeTag b.timeTag

/-- **The bundle as one packet.** -/
def packet (b : Bundle) : Except Failure Packet :=
  (Item.packetsEach b.items).map (.bundle b.timeTag)

end Bundle

end SoundControl
