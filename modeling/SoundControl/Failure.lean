import SoundControl.Route
import SoundControl.Wire.Decode

/-!
# Failures of routing

Why a route is not served, a message not sent, or a server not started.

* **`TransportFault`** — what goes wrong on the way.
* **`Failure`** — all causes, with those of the parts they are made of.
* **`Failure.message`** — the wording.
-/

namespace SoundControl

open Text Wire

/-- **What goes wrong on the way.** -/
inductive TransportFault where
  /-- Nothing can be bound to the address. -/
  | unbindable (address : String) (reason : String)
  /-- What was sent cannot be read back. -/
  | undecodable (fault : DecodeFault)
  /-- Nobody takes packets any more. -/
  | closed
  deriving DecidableEq, Repr

/-- The wording of a transport fault. -/
def TransportFault.message : TransportFault → String
  | .unbindable address reason => "bind failed: " ++ address ++ ": " ++ reason
  | .undecodable fault => "decode failed: " ++ fault.message
  | .closed => "transport closed"

/-- **Why routing fails.** -/
inductive Failure where
  /-- A pattern or union cannot be served. -/
  | unservable (route : Route)
  /-- No route takes a message. -/
  | unrouted (address : String)
  /-- A message to every address goes nowhere. -/
  | unaddressed (route : Route)
  /-- Nothing can be sent to every address. -/
  | unsendable (route : Route)
  /-- A server runs once. -/
  | alreadyRunning
  /-- A configured field is no socket address. -/
  | invalidSocketAddress (field text : String)
  /-- Packets may not be empty. -/
  | noPacketSize
  /-- A value or address is refused. -/
  | refused (error : Error)
  /-- Sending fails on the way. -/
  | transport (fault : TransportFault)

/-- **The wording of a failure.** -/
def Failure.message : Failure → String
  | .unservable route => "routing error: cannot serve pattern route " ++ route.text
  | .unrouted address => "routing error: no route for " ++ address
  | .unaddressed route => "send error: " ++ route.text ++ " has no address to send to"
  | .unsendable route => "send error: cannot send to " ++ route.text
  | .alreadyRunning => "configuration error: server is already running"
  | .invalidSocketAddress field text =>
    "configuration error: invalid " ++ field ++ " " ++ quote text ++
      ": invalid socket address syntax"
  | .noPacketSize => "configuration error: max_packet_size must be greater than zero"
  | .refused error => "core error: " ++ error.message
  | .transport fault => "transport error: " ++ fault.message

end SoundControl
