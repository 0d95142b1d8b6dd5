import SoundControl.Session.Subscribing

/-!
# Serving in a session

What can be done with the table, the links, and the server itself.

* **`Session.serve`**, **`Session.unserve`**, **`Session.dispatch`** — the routes that are served.
* **`Session.Target`**, **`Session.send`**, **`Session.sendBundle`** — sending over a link.
* **`Session.start`**, **`Session.pump`**, **`Session.shutDown`** — the server step by step.
* **`Session.settle`**, **`Session.collectSome`**, **`Session.stop`** — a server that goes on while
  it is waited for.
-/

namespace SoundControl

open Wire

namespace Session

/-! ## The table -/

/-- Change the table. -/
def setTable (table : Table) : Action Unit :=
  onServer fun server hub => ({ server with table }, hub)

/-- Serve a handle's route, and name the handle that serves it. -/
def serveHandle (name : String) (h : HandleId) : Action (Except Failure StoredRoute) := do
  match (← server).table.serve (← hub) h (← routeOf h) with
  | .error failure => return .error failure
  | .ok (served, table) =>
    setTable table
    return .ok (← storeRoute name served)

/-- Serve the route of a name. -/
def serve (name route : String) : Action (Except Failure StoredRoute) := do
  serveHandle name (← routeNamed route)

/-- Serve a new route. -/
def serveNew (name : String) (route : Route) : Action (Except Failure StoredRoute) := do
  serveHandle name (← onHub (·.addHandle route))

/-- Stop serving a route. -/
def unserve (route : String) : Action Bool := do
  let r ← routeOf (← routeNamed route)
  onStation fun station =>
    let (done, table, hub) := station.server.table.withdraw station.hub r
    (done, { hub, server := { station.server with table } })

/-- Stop serving every route; how many are left. -/
def clearTable : Action Nat := do
  onServer fun server hub =>
    let (table, hub) := server.table.clear hub
    ({ server with table }, hub)
  return (← server).table.length

/-- Name the handle that serves a route, if one does. -/
def getServed (name route : String) : Action (Option StoredRoute) := do
  match (← server).table.get? (← hub) (← routeOf (← routeNamed route)) with
  | some h => return some (← storeRoute name h)
  | none => return none

/-- What there is to say about the table. -/
structure TableReport where
  /-- How many routes are served. -/
  length : Nat
  /-- The routes, in order. -/
  routes : List Route
  /-- Names of handles whose route is served. -/
  holding : List String

/-- What there is to say about the table. -/
def reportTable : Action TableReport := do
  let s ← get
  let hub := s.station.hub
  let table := s.station.server.table
  return {
    length := table.length
    routes := table.routes hub
    holding := namesWhere (fun h => (hub.route? h).any fun r => (table.get? hub r).isSome) s.routes }

/-- The routes served at a literal address, in order of registration. -/
def routesAt (address : String) : Action (List Route) := do
  ((← server).table.atAddress address).mapM routeOf

/-- A message to every served route that it belongs to. -/
def dispatch (address : String) (arguments : List Argument) : Action (Except Failure Nat) := do
  let table := (← server).table
  onHub fun hub => table.dispatch hub address arguments

/-- The messages of a packet to the routes they belong to. -/
def dispatchPacket (packet : Packet) : Action Nat := do
  let table := (← server).table
  onHub fun hub => table.dispatchPacket hub packet

/-! ## Links -/

/-- **Where a link goes.** -/
inductive Target where
  /-- To the server. -/
  | server
  /-- To the tap. -/
  | tap
  deriving DecidableEq, Repr

/-- Send something over a link. -/
def carryTo {α : Type} (target : Target)
    (send : Link → Channel → Except Failure α × Channel) : Action (Except Failure α) := do
  let s ← get
  match target with
  | .tap =>
    let (result, tap) := send s.tapLink s.tap
    set { s with tap }
    return result
  | .server =>
    let (result, inbound) := send s.serverLink s.station.server.inbound
    onServer fun server hub => ({ server with inbound }, hub)
    return result

/-- Send values to a route. -/
def send (target : Target) (route : String) (values : List Value) : Action (Except Failure Nat) := do
  let r ← routeOf (← routeNamed route)
  carryTo target fun link channel => link.send channel r values

/-- Send values to a route as a message made before. -/
def sendMessage (target : Target) (route : String) (values : List Value) :
    Action (Except Error (Except Failure Nat)) := do
  match Message.ofValues (← routeOf (← routeNamed route)) values with
  | .error e => return .error e
  | .ok m => return .ok (← carryTo target fun link channel => link.sendMessage channel m)

/-- Send a bundle. -/
def sendBundle (target : Target) (b : Bundle) : Action (Except Failure Unit) :=
  carryTo target fun link channel => link.sendBundle channel b

/-- Let go of a link. -/
def closeLink : Target → Action Unit
  | .tap => modify fun s => { s with tapLink := s.tapLink.close }
  | .server => modify fun s => { s with serverLink := s.serverLink.close }

/-- Whether nothing sent over a link arrives. -/
def isClosed (target : Target) : Action Bool := do
  let s ← get
  match target with
  | .tap => return s.tapLink.isClosed s.tap
  | .server => return s.serverLink.isClosed s.station.server.inbound

/-- The next packet sent to the tap. -/
def receive : Action (Option Packet) := do
  let s ← get
  let (packet, tap) := s.tap.receive
  set { s with tap }
  return packet

/-- Take no more packets at the tap. -/
def closeTap : Action Unit := modify fun s => { s with tap := s.tap.close }

/-- Hand a packet to the server, without a link. -/
def hand (packet : Packet) : Action (Except TransportFault Unit) := do
  match (← server).inbound.send packet with
  | .error fault => return .error fault
  | .ok inbound =>
    onServer fun server hub => ({ server with inbound }, hub)
    return .ok ()

/-! ## The server step by step -/

/-- Start the server. -/
def start : Action (Except Failure Phase) := do
  match (← server).start (← hub) with
  | .error failure => return .error failure
  | .ok (server, hub) =>
    modify fun s => { s with station := { server, hub } }
    return .ok server.phase

/-- Let a running server go on; its phase then, if it was running and waited to be pumped. -/
def pump : Action (Option Phase) := do
  if (← server).phase = .running && !(← get).selfPaced then
    onServer Server.advance
    return some (← server).phase
  else return none

/-- Let the server go on, ask it to stop, and let it. One that goes on by itself stops later. -/
def shutDown : Action (Option Phase) := do
  let _ ← pump
  onServer fun server hub => (server.requestStop, hub)
  pump

/-! ## A server that goes on by itself -/

/-- Let the server do what it can; whether it runs. -/
def settle : Action Bool := do
  onServer Server.advance
  return (← server).isRunning

/-- Stop the server; whether it runs. -/
def stop : Action Bool := do
  onStation fun station => ((), station.stop)
  return (← server).isRunning

/-- Give up the server without stopping it. -/
def abandon : Action Unit := onServer fun server hub => (server.abandon, hub)

/-- Value lists of a subscription, waiting for more. -/
def collectSome (sub : String) (n : Nat) : Action (List (List Value)) := do
  let s ← subNamed sub
  onStation (·.collectSome s n)

/-- All value lists of a subscription, waiting for its end. -/
def collectToEnd (sub : String) : Action (Option (List (List Value))) := do
  let s ← subNamed sub
  onStation (·.collectToEnd s)

/-- Value lists of a merged stream, waiting for more. -/
def collectMerged (merge : String) (n : Nat) : Action (List (Route × List Value)) := do
  let m ← mergeNamed merge
  return inRouteOrder (← onStation (·.collectMerged m n))

/-- Whether the server comes to run, or not to. -/
def waitRunning (expected patient : Bool) : Action Bool :=
  onStation (·.waitRunning expected patient)

end Session

end SoundControl
