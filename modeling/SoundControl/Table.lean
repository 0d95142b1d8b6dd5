import SoundControl.Hub.Group
import SoundControl.Message

/-!
# Route tables

The routes that are served: those with a literal address under that address, those for every
address on a list of their own, each list in order of registration.  Equal routes are served by one
handle, the one that was registered first.

* **`Table`** — the served handles.
* **`Table.serve`**, **`Table.withdraw`**, **`Table.clear`** — taking up and giving up routes.
* **`Table.get?`**, **`Table.routes`** — what is served.
* **`Table.dispatch`** — a message to every served route that it belongs to.
* **`Table.dispatchPacket`** — the messages of a packet, bundles included.
-/

namespace SoundControl

open Address Wire

/-- **The handles of the routes that are served.** -/
structure Table where
  /-- Handles by literal address, none of them without handles. -/
  byAddress : List (String × List HandleId) := []
  /-- Handles for every address. -/
  anyPath : List HandleId := []

namespace Table

/-- The handles at a literal address, in order of registration. -/
def atAddress (t : Table) (address : String) : List HandleId :=
  match t.byAddress.find? (·.1 == address) with
  | some (_, handles) => handles
  | none => []

/-- The list that a route of the given path is on. -/
def slot (t : Table) (path : Path) : List HandleId :=
  match path.asLiteral? with
  | some address => t.atAddress address
  | none => t.anyPath

/-- Replace the list of an address; an empty list is removed. -/
def setAddress (address : String) (handles : List HandleId) :
    List (String × List HandleId) → List (String × List HandleId)
  | [] => if handles.isEmpty then [] else [(address, handles)]
  | (key, old) :: rest =>
    if key = address then if handles.isEmpty then rest else (address, handles) :: rest
    else (key, old) :: setAddress address handles rest

/-- Replace the list that a route of the given path is on. -/
def setSlot (t : Table) (path : Path) (handles : List HandleId) : Table :=
  match path.asLiteral? with
  | some address => { t with byAddress := setAddress address handles t.byAddress }
  | none => { t with anyPath := handles }

/-- Every served handle. -/
def handles (t : Table) : List HandleId := t.byAddress.flatMap (·.2) ++ t.anyPath

/-- How many routes are served. -/
def length (t : Table) : Nat := t.handles.length

/-- **The handle that serves a route.** -/
def get? (t : Table) (hub : Hub) (route : Route) : Option HandleId :=
  (t.slot route.path).find? fun h => hub.route? h = some route

/-- Put a route into its place in an ascending list. -/
def insertSorted (r : Route) : List Route → List Route
  | [] => [r]
  | q :: qs => if (compare r q).isLE then r :: q :: qs else q :: insertSorted r qs

/-- **Every served route,** in order. -/
def routes (t : Table) (hub : Hub) : List Route :=
  (t.handles.filterMap hub.route?).foldr insertSorted []

/-- **Take up a handle's route;** the handle that serves it, which is another one if an equal route
is served already. -/
def serve (t : Table) (hub : Hub) (h : HandleId) (route : Route) : Except Failure (HandleId × Table) :=
  if route.path.isPattern then .error (.unservable route)
  else match t.get? hub route with
    | some served => .ok (served, t)
    | none => .ok (h, t.setSlot route.path (t.slot route.path ++ [h]))

/-- **Give up a route** and end every subscription of the handle that served it; false if none
did. -/
def withdraw (t : Table) (hub : Hub) (route : Route) : Bool × Table × Hub :=
  match t.get? hub route with
  | none => (false, t, hub)
  | some h =>
    let (_, hub) := hub.unsubscribeAll h
    (true, t.setSlot route.path ((t.slot route.path).erase h), hub)

/-- **Give up every route.** -/
def clear (t : Table) (hub : Hub) : Table × Hub :=
  (t.routes hub).foldl (fun (t, hub) route => (t.withdraw hub route).2) (t, hub)

/-! ## Dispatch -/

/-- The handles that a message at an address may belong to. -/
def candidates (t : Table) (address : Path) : List HandleId :=
  match address.asLiteral? with
  | some literal => t.atAddress literal ++ t.anyPath
  | none => (t.byAddress.filter fun entry => address.covers entry.1).flatMap (·.2) ++ t.anyPath

/-- Publish the values of arguments to a handle, if they have its signature. -/
def deliver (hub : Hub) (h : HandleId) (arguments : List Argument) : Bool × Hub :=
  match hub.route? h with
  | none => (false, hub)
  | some route =>
    if route.spec.accepts arguments then
      match route.spec.unpack arguments with
      | .ok values => (true, (hub.publish h values).2)
      | .error _ => (false, hub)
    else (false, hub)

/-- Publish the values of arguments to each of several handles; how many took them. -/
def deliverEach (hub : Hub) (handles : List HandleId) (arguments : List Argument) : Nat × Hub :=
  handles.foldl (fun (count, hub) h =>
    let (delivered, hub) := deliver hub h arguments
    (if delivered then count + 1 else count, hub)) (0, hub)

/-- **A message to every served route that it belongs to;** how many there are, at least one. The
address may be a pattern. -/
def dispatch (t : Table) (hub : Hub) (address : String) (arguments : List Argument) :
    Except Failure Nat × Hub :=
  match Path.parse address with
  | .error fault => (.error (.refused (.malformedAddress address fault)), hub)
  | .ok path =>
    let (count, hub) := deliverEach hub (t.candidates path) arguments
    (if count = 0 then .error (.unrouted address) else .ok count, hub)

mutual

/-- **The messages of a packet to the routes they belong to;** to how many. Messages that belong
nowhere are dropped, and time tags are not waited for. -/
def dispatchPacket (t : Table) (hub : Hub) : Packet → Nat × Hub
  | .message m =>
    match t.dispatch hub m.address m.arguments with
    | (.ok count, hub) => (count, hub)
    | (.error _, hub) => (0, hub)
  | .bundle _ items => dispatchEach t hub items

/-- The messages of several packets in order. -/
def dispatchEach (t : Table) (hub : Hub) : List Packet → Nat × Hub
  | [] => (0, hub)
  | packet :: packets =>
    let (first, hub) := dispatchPacket t hub packet
    let (others, hub) := dispatchEach t hub packets
    (first + others, hub)

end

end Table

end SoundControl
