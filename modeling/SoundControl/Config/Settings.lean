import SoundControl.Config.SocketAddress
import SoundControl.Failure

/-!
# Settings

The settings of servers, clients and datagram sockets.  Each is read from a table of entries:
missing entries have defaults, others are ignored, and an entry of the wrong kind is refused.

* **`Entry`** — a text, a size, or something else.
* **`ServerSettings`**, **`ClientSettings`**, **`DatagramSettings`** — the settings.
* **`ServerSettings.validate`**, **`ClientSettings.target`** — what is checked before use.
* **`DatagramSettings.bindFault?`** — why a socket cannot be bound to an address.
-/

namespace SoundControl.Config

/-- **What a setting can be given as.** -/
inductive Entry where
  /-- A text. -/
  | text (s : String)
  /-- A whole number that is not negative. -/
  | size (n : Nat)
  /-- Anything else. -/
  | other
  deriving DecidableEq, Repr

/-- A table of settings; none if it was given as something other than a table. -/
abbrev Entries := Option (List (String × Entry))

/-- A text setting; none if it is given as something else. -/
def textSetting (entries : List (String × Entry)) (key default : String) : Option String :=
  match entries.lookup key with
  | none => some default
  | some (.text s) => some s
  | some _ => none

/-- A size setting below 2 to the 64th; none if it is given as something else. -/
def sizeSetting (entries : List (String × Entry)) (key : String) (default : Nat) : Option Nat :=
  match entries.lookup key with
  | none => some default
  | some (.size n) => if n < UInt64.size then some n else none
  | some _ => none

/-- The most bytes a datagram can carry. -/
def maxDatagram : Nat := 65507

/-! ## Datagram sockets -/

/-- **Settings of a datagram socket.** -/
structure DatagramSettings where
  /-- Bytes the system may keep before they are read. -/
  receiveBufferSize : Nat := 65536
  /-- Largest datagram sent or taken. -/
  maxPacketSize : Nat := maxDatagram
  /-- Milliseconds between two looks at a blocking socket. -/
  readTimeoutMs : Nat := 100
  deriving DecidableEq, Repr

namespace DatagramSettings

/-- The settings of a table. -/
def ofEntries? (entries : Entries) : Option DatagramSettings := do
  let entries ← entries
  let defaults : DatagramSettings := {}
  let receiveBufferSize ← sizeSetting entries "recv_buffer_size" defaults.receiveBufferSize
  let maxPacketSize ← sizeSetting entries "max_packet_size" defaults.maxPacketSize
  let readTimeoutMs ← sizeSetting entries "read_timeout_ms" defaults.readTimeoutMs
  return { receiveBufferSize, maxPacketSize, readTimeoutMs }

/-- **Why a socket cannot be bound to an address,** as far as its spelling tells. -/
def bindFault? (address : String) : Option TransportFault :=
  (resolutionFault? address).map (.unbindable address)

end DatagramSettings

/-! ## Servers -/

/-- **Settings of a server.** -/
structure ServerSettings where
  /-- The address to bind. -/
  bindAddress : String := "127.0.0.1:9000"
  /-- Largest datagram taken. -/
  maxPacketSize : Nat := maxDatagram
  /-- Name used in logs. -/
  name : String := "oscroute"
  deriving DecidableEq, Repr

namespace ServerSettings

/-- The settings of a table. -/
def ofEntries? (entries : Entries) : Option ServerSettings := do
  let entries ← entries
  let defaults : ServerSettings := {}
  let bindAddress ← textSetting entries "bind_addr" defaults.bindAddress
  let maxPacketSize ← sizeSetting entries "max_packet_size" defaults.maxPacketSize
  let name ← textSetting entries "name" defaults.name
  return { bindAddress, maxPacketSize, name }

/-- **Whether a server can be made:** the address is one, and packets may have some size. -/
def validate (settings : ServerSettings) : Except Failure Unit :=
  if (SocketAddress.parse? settings.bindAddress).isNone then
    .error (.invalidSocketAddress "bind_addr" settings.bindAddress)
  else if settings.maxPacketSize = 0 then .error .noPacketSize
  else .ok ()

/-- The settings of the server's socket. -/
def datagram (settings : ServerSettings) : DatagramSettings :=
  { maxPacketSize := settings.maxPacketSize }

end ServerSettings

/-! ## Clients -/

/-- **Settings of a client.** -/
structure ClientSettings where
  /-- The address to send to. -/
  targetAddress : String := "127.0.0.1:9000"
  deriving DecidableEq, Repr

namespace ClientSettings

/-- The settings of a table. -/
def ofEntries? (entries : Entries) : Option ClientSettings := do
  let entries ← entries
  let defaults : ClientSettings := {}
  let targetAddress ← textSetting entries "target_addr" defaults.targetAddress
  return { targetAddress }

/-- **The address to send to.** -/
def target (settings : ClientSettings) : Except Failure SocketAddress :=
  match SocketAddress.parse? settings.targetAddress with
  | some address => .ok address
  | none => .error (.invalidSocketAddress "target_addr" settings.targetAddress)

end ClientSettings

end SoundControl.Config
