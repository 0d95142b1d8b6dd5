import Mathlib
import SoundControl.Proofs.Address.Containment
import SoundControl.Proofs.Address.Printable
import SoundControl.Proofs.Server.Feeding
import SoundControl.Proofs.TypeSpec.Packing
import SoundControl.Proofs.Wire.RoundTrip

/-!
# Values that are sent arrive

Values sent to a literal route that a running server serves arrive in the inbox of every subscription
of the route, as what the signature converts them to: provided that they are read back as they were
written, which texts with a zero character and blobs of a multiple of four bytes are not.

* **`Link.send_of_literal`** — what is sent is put into the channel as one packet.
* **`Table.Reachable.dispatch_packed`** — that packet adds the values to every inbox of the route.
* **`Server.dispatchMany_followedBy`** — packets behind others do not change what is done before.
* **`Arrived`**, **`Server.Reached.send_arrives`** — what becomes of the values.
* **`Server.illegible_values_lost`** — values that do not arrive, although they are packed.
-/

namespace SoundControl

open Address Wire

/-! ## Into the channel -/

/-- An argument that has a type has no brackets. -/
theorem Wire.Argument.leaves_of_ofArgument {argument : Argument} {tag : Tag}
    (typed : Tag.ofArgument argument = .ok tag) : argument.leaves = [argument] := by
  cases argument <;> first | rfl | contradiction

theorem Wire.Argument.leavesEach_of_ofArgument {arguments : List Argument}
    (typed : ∀ argument ∈ arguments, ∃ tag, Tag.ofArgument argument = .ok tag) :
    Argument.leavesEach arguments = arguments := by
  induction arguments with
  | nil => rfl
  | cons argument arguments ih =>
    obtain ⟨⟨tag, own⟩, others⟩ := List.forall_mem_cons.1 typed
    rw [leavesEach, leaves_of_ofArgument own, ih others]
    rfl

section Sending

variable {route : Route} {address : String} {values : List Value} {arguments : List Argument}

/-- A packet that is read back as it was written is put into the channel. -/
theorem Link.carry_of_decode {link : Link} {channel : Channel} {packet : Packet}
    (connected : link.connected = true) (opened : channel.closed = false)
    (read : decode packet.encode = .ok packet) : link.carry channel packet =
      .ok { channel with packets := channel.packets ++ [packet] } := by
  rw [carry, read]
  simp [connected, Channel.send, opened]

/-- **What is sent to a literal route is put into the channel** as one packet, if it can be read back
as it was written. -/
theorem Link.send_of_literal {link : Link} {channel : Channel} (connected : link.connected = true)
    (opened : channel.closed = false) (built : route.path.Built)
    (literal : route.path.asLiteral? = some address)
    (packed : route.spec.pack values = .ok arguments)
    (legible : ∀ argument ∈ arguments, argument.Legible) :
    link.send channel route values = (.ok 1,
      { channel with packets := channel.packets ++ [.message ⟨address, arguments⟩] }) := by
  obtain ⟨path, -, slash, whole⟩ := built.literal literal
  have read : decode (Packet.message ⟨address, arguments⟩).encode =
      .ok (.message ⟨address, arguments⟩) := by
    refine decode_encode_message slash whole ?_
    rwa [Argument.leavesEach_of_ofArgument (TypeSpec.exists_type_of_pack packed)]
  have sendable : route.path.isAny = false := by rw [path]; rfl
  have message : Message.ofValues route values = .ok ⟨route, arguments⟩ := by
    rw [Message.ofValues, packed]
    rfl
  have packets : Message.packets ⟨route, arguments⟩ = .ok [.message ⟨address, arguments⟩] := by
    rw [Message.packets, Message.addresses, Route.addresses, path]
    rfl
  rw [send, sendable, message]
  show link.sendMessage channel ⟨route, arguments⟩ = _
  rw [sendMessage, packets, carryPackets, carryAll, carry_of_decode connected opened read]
  rfl

/-- **A packet of packed values** adds them, as what they were converted to, to every inbox of the
route. -/
theorem Table.Reachable.dispatch_packed {t : Table} {hub : Hub} {h : HandleId}
    (reachable : t.Reachable hub) (built : route.path.Built)
    (literal : route.path.asLiteral? = some address) (served : t.get? hub route = some h)
    (packed : route.spec.pack values = .ok arguments) {s : SubId} {sub : Subscription}
    (found : hub.subscriptions[s]? = some sub) (own : sub.handle = h) (active : sub.active = true)
    (held : sub.held = true) :
    (t.dispatchPacket hub (.message ⟨address, arguments⟩)).2.subscriptions[s]? =
      some { sub with inbox := sub.inbox ++ [.values (arguments.map Tag.valueOf)] } := by
  obtain ⟨-, parsed, -, -⟩ := built.literal literal
  obtain ⟨sound, filed⟩ := reachable.filed
  have outcome := filed.dispatched sound parsed arguments
  have belongs : Belongs (t.get? hub) route.path arguments route (arguments.map Tag.valueOf) :=
    { served := by rw [served, Option.isSome_some]
      meant := .inr route.path.contains_refl
      accepted := TypeSpec.accepts_of_pack packed
      unpacked := TypeSpec.unpack_of_pack packed }
  rw [dispatchPacket_message]
  exact outcome.taken s sub route _ found active held (own ▸ served) belongs

end Sending

/-! ## Through the channel -/

namespace Server

variable {server : Server} {hub : Hub}

/-- The server with more packets in its channel, behind those that are there. -/
def followedBy (server : Server) (more : List Packet) : Server :=
  { server with
    inbound := { server.inbound with packets := server.inbound.packets ++ more } }

/-- Dispatching packets takes them out, in order. -/
theorem packets_dispatchMany (count : Nat) : (server.dispatchMany hub count).1.inbound.packets =
    server.inbound.packets.drop count := by
  induction count generalizing server hub with
  | zero => rfl
  | succ count ih =>
    rw [dispatchMany, ih]
    cases packets : server.inbound.packets with
    | nil => rw [dispatchNext_nil packets, packets, List.drop_nil, List.drop_nil]
    | cons packet rest => rw [dispatchNext_cons packets, List.drop_succ_cons]

/-- Dispatching leaves the table as it is. -/
theorem table_dispatchMany (count : Nat) :
    (server.dispatchMany hub count).1.table = server.table := by
  induction count generalizing server hub with
  | zero => rfl
  | succ count ih =>
    rw [dispatchMany, ih]
    cases packets : server.inbound.packets with
    | nil => rw [dispatchNext_nil packets]
    | cons packet rest => rw [dispatchNext_cons packets]

/-- The last of several packets is dispatched after the others. -/
theorem dispatchMany_succ (count : Nat) : server.dispatchMany hub (count + 1) =
    (server.dispatchMany hub count).1.dispatchNext (server.dispatchMany hub count).2 := by
  induction count generalizing server hub with
  | zero => rfl
  | succ count ih =>
    show (server.dispatchNext hub).1.dispatchMany (server.dispatchNext hub).2 (count + 1) = _
    rw [ih]
    rfl

/-- **Packets behind others** do not change what is done before. -/
theorem dispatchMany_followedBy (more : List Packet) {count : Nat}
    (before : count ≤ server.inbound.packets.length) :
    (server.followedBy more).dispatchMany hub count =
      ((server.dispatchMany hub count).1.followedBy more, (server.dispatchMany hub count).2) := by
  induction count generalizing server hub with
  | zero => rfl
  | succ count ih =>
    cases packets : server.inbound.packets with
    | nil => simp [packets] at before
    | cons packet rest =>
      have queued : (server.followedBy more).inbound.packets = packet :: (rest ++ more) := by
        simp [followedBy, packets]
      have following : ({ server.followedBy more with inbound :=
          { (server.followedBy more).inbound with packets := rest ++ more } } : Server) =
          ({ server with inbound := { server.inbound with packets := rest } } : Server).followedBy
            more := rfl
      rw [dispatchMany, dispatchMany, dispatchNext_cons queued, dispatchNext_cons packets, following]
      exact ih (by simpa [packets] using before)

/-- A running server that goes on dispatches what is there. -/
theorem advance_of_running (server : Server) (hub : Hub) (running : server.phase = .running)
    (unstopped : server.stopRequested = false) :
    server.advance hub = server.dispatchMany hub server.inbound.packets.length := by
  rw [advance, running]
  simp [unstopped]

/-- **A packet behind those that are there** is dispatched after them, and then nothing is left. -/
theorem advance_followedBy (server : Server) (hub : Hub) (running : server.phase = .running)
    (unstopped : server.stopRequested = false) (packet : Packet) :
    ((server.followedBy [packet]).advance hub).1.inbound.packets = [] ∧
      ((server.followedBy [packet]).advance hub).2 =
        (server.table.dispatchPacket (server.advance hub).2 packet).2 := by
  have count : (server.followedBy [packet]).inbound.packets.length =
      server.inbound.packets.length + 1 := by
    simp [followedBy]
  have last : ((server.dispatchMany hub server.inbound.packets.length).1.followedBy
      [packet]).inbound.packets = [packet] := by
    simp [followedBy, packets_dispatchMany]
  have table : ((server.dispatchMany hub server.inbound.packets.length).1.followedBy
      [packet]).table = server.table := table_dispatchMany _
  rw [advance_of_running (server.followedBy [packet]) hub running unstopped, count,
    dispatchMany_succ, dispatchMany_followedBy _ (Nat.le_refl _), dispatchNext_cons last,
    advance_of_running server hub running unstopped, table]
  exact ⟨rfl, rfl⟩

end Server

/-! ## Into the inboxes -/

/-- **What becomes of values that are sent to a served route,** when they travel as `packet` and come
back as `values`. -/
structure Arrived (server : Server) (hub : Hub) (route : Route) (h : HandleId) (packet : Packet)
    (values : List Value) (outcome : Except Failure Nat × Channel) : Prop where
  /-- They were sent to one address. -/
  answer : outcome.1 = .ok 1
  /-- The packet is put behind those in the channel. -/
  queued : { server with inbound := outcome.2 } = server.followedBy [packet]
  /-- Whatever happens until the packet is next: when it is dispatched, it is taken out, and each
  subscription of the route gets the values. -/
  dispatched : ∀ (server' : Server) (hub' : Hub) (rest : List Packet), server'.Reached hub' →
    server'.table.get? hub' route = some h → server'.inbound.packets = packet :: rest →
    (server'.dispatchNext hub').1.inbound.packets = rest ∧
      ∀ (s : SubId) (sub : Subscription), hub'.subscriptions[s]? = some sub → sub.handle = h →
        sub.active = true → sub.held = true → (server'.dispatchNext hub').2.subscriptions[s]? =
          some { sub with inbox := sub.inbox ++ [.values values] }
  /-- When the server goes on, each subscription of the route gets the values behind what it would
  have got without them, and nothing else; and the channel is empty. -/
  advanced : ((server.followedBy [packet]).advance hub).1.inbound.packets = [] ∧
    ∀ (s : SubId) (sub : Subscription), hub.subscriptions[s]? = some sub → sub.handle = h →
      sub.active = true → sub.held = true → ∃ earlier : List Delivery,
        (server.advance hub).2.subscriptions[s]? =
          some { sub with inbox := sub.inbox ++ earlier } ∧
        ((server.followedBy [packet]).advance hub).2.subscriptions[s]? =
          some { sub with inbox := sub.inbox ++ earlier ++ [.values values] }

/-- **Values sent to a literal route that a running server serves arrive** as what its signature
converts them to, if it packs them into texts without zero characters and blobs whose length is no
multiple of four. -/
theorem Server.Reached.send_arrives {server : Server} {hub : Hub} (reached : server.Reached hub)
    (running : server.phase = .running) (unstopped : server.stopRequested = false) {route : Route}
    (built : route.path.Built) {address : String} (literal : route.path.asLiteral? = some address)
    {h : HandleId} (served : server.table.get? hub route = some h) {values : List Value}
    {arguments : List Argument} (packed : route.spec.pack values = .ok arguments)
    (legible : ∀ argument ∈ arguments, argument.Legible) :
    ∃ converted, route.spec.convert values = .ok converted ∧
      Arrived server hub route h (.message ⟨address, arguments⟩) converted
        (({} : Link).send server.inbound route values) := by
  obtain ⟨table, opened⟩ := reached.sound
  have sent := @Link.send_of_literal _ _ _ _ {} server.inbound rfl (opened (.inr (.inl running)))
    built literal packed legible
  refine ⟨_, TypeSpec.convert_of_pack packed, ?_⟩
  rw [sent]
  constructor
  case answer => rfl
  case queued => rfl
  case dispatched =>
    intro server' hub' rest reached' served' packets
    rw [dispatchNext_cons packets]
    exact ⟨rfl, fun s sub found own active held =>
      reached'.sound.table.dispatch_packed built literal served' packed found own active held⟩
  case advanced =>
    obtain ⟨emptied, after⟩ := server.advance_followedBy hub running unstopped
      (.message ⟨address, arguments⟩)
    refine ⟨emptied, fun s sub found own active held => ?_⟩
    obtain ⟨sound, fed⟩ := reached.sound.dispatchMany server.inbound.packets.length
    obtain ⟨earlier, found'⟩ := fed.grown s sub found
    have table' := sound.table
    rw [table_dispatchMany] at table'
    rw [after, server.advance_of_running hub running unstopped]
    exact ⟨earlier, found', table'.dispatch_packed built literal ((congrFun (fed.get? _) _).trans served)
      packed found' own active held⟩

/-- A text with a letter of two bytes and a blob of three bytes arrive. -/
theorem Server.text_and_blob_arrive :
    let route : Route := ⟨.single (.literal "/a"), .typed .string [.blob]⟩
    let hub := (replay {} [.create route, .subscribe 0]).2
    let server : Server := { name := "server", table := ⟨[("/a", [0])], []⟩, phase := .running }
    let values : List Value := [.text "hé", .bytes [1, 2, 3]]
    let arguments : List Argument := [.string "hé", .blob [1, 2, 3]]
    (server.Reached hub ∧ server.table.get? hub route = some 0 ∧
      route.spec.pack values = .ok arguments ∧ ∀ argument ∈ arguments, argument.Legible) ∧
    ∃ converted, route.spec.convert values = .ok converted ∧
      Arrived server hub route 0 (.message ⟨"/a", arguments⟩) converted
        (({} : Link).send server.inbound route values) := by
  intro route hub server values arguments
  have new : Server.Reached { name := "server" } hub :=
    (Reached.fresh "server").run (run_replay _ _ (by decide))
  have serving : Server.Reached { name := "server", table := ⟨[("/a", [0])], []⟩ } hub :=
    new.step (@Step.serve _ _ 0 0 route _ rfl rfl)
  have reached : server.Reached hub := serving.step (.start rfl)
  have built : route.path.Built := @Path.Built.parsed "/a" _ (by rfl)
  have served : server.table.get? hub route = some 0 := rfl
  have packed : route.spec.pack values = .ok arguments := rfl
  have legible : ∀ argument ∈ arguments, argument.Legible := by decide
  exact ⟨⟨reached, served, packed, legible⟩,
    reached.send_arrives rfl rfl built rfl served packed legible⟩

/-- **Values that were packed but do not arrive:** a blob of four bytes is not sent at all, and a text
arrives without what is behind its zero character. -/
theorem Server.illegible_values_lost :
    let blob : Route := ⟨.single (.literal "/a"), .typed .blob []⟩
    let text : Route := ⟨.single (.literal "/b"), .typed .string []⟩
    let hub := (replay {} [.create blob, .create text, .subscribe 0, .subscribe 1]).2
    let server : Server :=
      { name := "server", table := ⟨[("/a", [0]), ("/b", [1])], []⟩, phase := .running }
    let sent := ({} : Link).send server.inbound text [.text "x\x00y"]
    server.Reached hub ∧ (blob.path.Built ∧ text.path.Built) ∧
    (server.table.get? hub blob = some 0 ∧ server.table.get? hub text = some 1) ∧
    (blob.spec.pack [.bytes [1, 2, 3, 4]] = .ok [.blob [1, 2, 3, 4]] ∧
      ({} : Link).send server.inbound blob [.bytes [1, 2, 3, 4]] =
        (.error (.transport (.undecodable .endOfData)), server.inbound)) ∧
    (text.spec.convert [.text "x\x00y"] = .ok [.text "x\x00y"] ∧ sent.1 = .ok 1 ∧
      (({ server with inbound := sent.2 }.advance hub).2.next 1).1 = .item [.text "x"]) := by
  intro blob text hub server sent
  have new : Server.Reached { name := "server" } hub :=
    (Reached.fresh "server").run (run_replay _ _ (by decide))
  have serving : Server.Reached { name := "server", table := ⟨[("/a", [0])], []⟩ } hub :=
    new.step (@Step.serve _ _ 0 0 blob _ rfl rfl)
  have serving' : Server.Reached
      { name := "server", table := ⟨[("/a", [0]), ("/b", [1])], []⟩ } hub :=
    serving.step (@Step.serve _ _ 1 1 text _ rfl rfl)
  refine ⟨serving'.step (.start rfl), ⟨@Path.Built.parsed "/a" _ (by rfl),
    @Path.Built.parsed "/b" _ (by rfl)⟩, ⟨rfl, rfl⟩, ⟨rfl, by cbv⟩, by cbv, by cbv, by cbv⟩

end SoundControl
