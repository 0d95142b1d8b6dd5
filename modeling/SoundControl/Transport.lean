import SoundControl.Message

/-!
# Transports

Packets reach their receiver through a channel, which keeps them in order until it is closed.  A
link carries a packet as bytes: what the receiver gets is what the bytes read back as.

* **`Channel`**, **`Channel.send`**, **`Channel.receive`** — packets in order.
* **`Link`**, **`Link.carry`** — one packet over a link into a channel.
* **`Link.carryAll`** — packets one after the other, up to the first fault.
* **`Link.send`**, **`Link.sendMessage`**, **`Link.sendBundle`** — values, messages and bundles.
-/

namespace SoundControl

open Wire

/-- **Packets on their way to one receiver.** -/
structure Channel where
  /-- Those not received yet. -/
  packets : List Packet := []
  /-- Whether no more are taken. -/
  closed : Bool := false

namespace Channel

/-- Put a packet in, unless the channel is closed. -/
def send (channel : Channel) (packet : Packet) : Except TransportFault Channel :=
  if channel.closed then .error .closed
  else .ok { channel with packets := channel.packets ++ [packet] }

/-- Take no more packets; those that are there can still be received. -/
def close (channel : Channel) : Channel := { channel with closed := true }

/-- The next packet, if there is one. -/
def receive (channel : Channel) : Option Packet × Channel :=
  match channel.packets with
  | [] => (none, channel)
  | packet :: rest => (some packet, { channel with packets := rest })

end Channel

/-- **A sender's end of a channel.** -/
structure Link where
  /-- Whether the sender still holds its end. -/
  connected : Bool := true
  deriving DecidableEq, Repr

namespace Link

/-- Let go of the channel. -/
def close (_ : Link) : Link := ⟨false⟩

/-- Nothing sent over the link arrives. -/
def isClosed (link : Link) (channel : Channel) : Bool := !link.connected || channel.closed

/-- **One packet over a link:** as bytes, and read back at the other end. -/
def carry (link : Link) (channel : Channel) (packet : Packet) : Except TransportFault Channel :=
  match decode packet.encode with
  | .error fault => .error (.undecodable fault)
  | .ok received => if link.connected then channel.send received else .error .closed

/-- **Packets one after the other,** up to the first fault; what was carried before it has
arrived. -/
def carryAll (link : Link) (channel : Channel) :
    List Packet → Except TransportFault Unit × Channel
  | [] => (.ok (), channel)
  | packet :: packets =>
    match link.carry channel packet with
    | .error fault => (.error fault, channel)
    | .ok channel => carryAll link channel packets

/-- Carry the packets there are, if any; how many. -/
def carryPackets (link : Link) (channel : Channel) (packets : Except Failure (List Packet)) :
    Except Failure Nat × Channel :=
  match packets with
  | .error failure => (.error failure, channel)
  | .ok packets =>
    let (result, channel) := link.carryAll channel packets
    (result.mapError .transport |>.map fun _ => packets.length, channel)

/-- **Send a message to each of its addresses;** how many. -/
def sendMessage (link : Link) (channel : Channel) (m : Message) : Except Failure Nat × Channel :=
  link.carryPackets channel m.packets

/-- **Send values to a route,** whose signature they must have; to how many addresses. -/
def send (link : Link) (channel : Channel) (route : Route) (values : List Value) :
    Except Failure Nat × Channel :=
  if route.path.isAny then (.error (.unsendable route), channel)
  else match Message.ofValues route values with
    | .error error => (.error (.refused error), channel)
    | .ok m => link.sendMessage channel m

/-- **Send a bundle** as one packet. -/
def sendBundle (link : Link) (channel : Channel) (b : Bundle) : Except Failure Unit × Channel :=
  let (result, channel) := link.carryPackets channel (b.packet.map fun packet => [packet])
  (result.map fun _ => (), channel)

end Link

end SoundControl
