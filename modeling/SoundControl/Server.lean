import SoundControl.Table
import SoundControl.Transport

/-!
# Servers

A server dispatches the packets of its channel to the routes of its table, once it runs and until
it is asked to stop.  It runs once: when it ends, the channel is closed and every route given up.

* **`Phase`** — how far a server is in its life.
* **`Server`** — table, channel and phase.
* **`Server.dispatchNext`**, **`Server.finish`** — the two things a running server does.
* **`Server.advance`** — all that can be done now.
* **`Server.start`**, **`Server.requestStop`**, **`Server.abandon`** — what is asked of it.
-/

namespace SoundControl

/-- How far a server is in its life. -/
inductive Phase where
  /-- It has not been started. -/
  | idle
  /-- It dispatches packets. -/
  | running
  /-- It was told to stop and did. -/
  | stopped
  /-- Whoever ran it has given up, which it has not noticed. -/
  | abandoned
  /-- It was given up while it ran: its channel is closed and its routes stay. -/
  | lost
  deriving DecidableEq, Repr

/-- **A server.** -/
structure Server where
  /-- Its name. -/
  name : String
  /-- The routes it serves. -/
  table : Table := {}
  /-- The packets on their way to it. -/
  inbound : Channel := {}
  /-- How far it is. -/
  phase : Phase := .idle
  /-- Whether it was asked to stop. -/
  stopRequested : Bool := false

namespace Server

/-- Whether the server was started and did not stop; one that was given up counts. -/
def isRunning (server : Server) : Bool :=
  match server.phase with
  | .running | .abandoned | .lost => true
  | .idle | .stopped => false

/-- **Dispatch the next packet,** if there is one. -/
def dispatchNext (server : Server) (hub : Hub) : Server × Hub :=
  match server.inbound.receive with
  | (none, _) => (server, hub)
  | (some packet, inbound) =>
    ({ server with inbound }, (server.table.dispatchPacket hub packet).2)

/-- Dispatch several packets. -/
def dispatchMany (server : Server) (hub : Hub) : Nat → Server × Hub
  | 0 => (server, hub)
  | count + 1 =>
    let (server, hub) := server.dispatchNext hub
    dispatchMany server hub count

/-- **Stop:** close the channel and give up every route. -/
def finish (server : Server) (hub : Hub) : Server × Hub :=
  let (table, hub) := server.table.clear hub
  ({ server with
      table, inbound := { packets := [], closed := true }, phase := .stopped,
      stopRequested := false }, hub)

/-- **Do all that can be done now:** stop if asked to, else dispatch the packets that are there. A
server that was given up notices it. -/
def advance (server : Server) (hub : Hub) : Server × Hub :=
  match server.phase with
  | .running =>
    if server.stopRequested then server.finish hub
    else server.dispatchMany hub server.inbound.packets.length
  | .abandoned =>
    ({ server with inbound := { packets := [], closed := true }, phase := .lost }, hub)
  | .idle | .stopped | .lost => (server, hub)

/-- **Start, and do what can be done now.** A server starts once. -/
def start (server : Server) (hub : Hub) : Except Failure (Server × Hub) :=
  if server.phase = .idle then .ok ({ server with phase := .running }.advance hub)
  else .error .alreadyRunning

/-- **Ask the server to stop.** -/
def requestStop (server : Server) : Server := { server with stopRequested := true }

/-- **Give up a running server** without stopping it. -/
def abandon (server : Server) : Server :=
  if server.phase = .running then { server with phase := .abandoned } else server

end Server

end SoundControl
