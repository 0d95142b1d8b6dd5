import SoundControl.Proofs.Table.Dispatch
import SoundControl.Server

/-!
# What a server does to the subscriptions it feeds

Whatever packets a server dispatches, subscriptions only get further values behind those they have.

* **`Hub.Fed`** — subscriptions got further values, and nothing else happened to them.
* **`Table.Reachable.dispatchPacket`** — the messages of a packet do nothing else.
* **`Server.Step`**, **`Server.Reached`** — servers reached by anything that can happen to them.
* **`Server.Reached.sound`** — their tables are reached, and their channels are open until they end.
-/

namespace SoundControl

open Address Wire

/-- **Subscriptions got further values,** and handles keep their routes. -/
structure Hub.Fed (hub hub' : Hub) : Prop where
  /-- What is new in an inbox is behind what was there. -/
  grown : ∀ (s : SubId) (sub : Subscription), hub.subscriptions[s]? = some sub →
    ∃ more : List Delivery, hub'.subscriptions[s]? = some { sub with inbox := sub.inbox ++ more }
  /-- Handles keep their routes. -/
  routes : hub'.route? = hub.route?

namespace Hub.Fed

variable {hub hub' hub'' : Hub}

theorem refl (hub : Hub) : Fed hub hub where
  grown s sub found := ⟨[], by rw [found, List.append_nil]⟩
  routes := rfl

theorem trans (head : Fed hub hub') (last : Fed hub' hub'') : Fed hub hub'' where
  grown s sub found := by
    obtain ⟨more, found'⟩ := head.grown s sub found
    obtain ⟨further, found''⟩ := last.grown s _ found'
    exact ⟨more ++ further, by rw [found'', List.append_assoc]⟩
  routes := last.routes.trans head.routes

/-- The same routes are looked up. -/
theorem get? (fed : Fed hub hub') (t : Table) : t.get? hub' = t.get? hub := by
  funext route
  rw [Table.get?, Table.get?, fed.routes]

end Hub.Fed

namespace Table

variable {t : Table} {hub : Hub}

/-- A message only adds to inboxes. -/
theorem Reachable.fed_dispatch (reachable : t.Reachable hub) (address : String)
    (arguments : List Argument) : hub.Fed (t.dispatch hub address arguments).2 := by
  obtain ⟨sound, filed⟩ := reachable.filed
  cases parsed : Path.parse address with
  | error fault =>
    rw [dispatch, parsed]
    exact .refl hub
  | ok path =>
    have outcome := filed.dispatched sound parsed arguments
    constructor
    case grown =>
      intro s sub found
      by_cases belongs : sub.active = true ∧ sub.held = true ∧ ∃ route values,
          t.get? hub route = some sub.handle ∧ Belongs (t.get? hub) path arguments route values
      · obtain ⟨active, held, route, values, looked, belongs⟩ := belongs
        exact ⟨_, outcome.taken s sub route values found active held looked belongs⟩
      · refine ⟨[], ?_⟩
        rw [List.append_nil]
        refine outcome.kept s sub found fun active held route values looked here => ?_
        exact belongs ⟨active, held, route, values, looked, here⟩
    case routes =>
      funext h
      rw [Hub.route?_eq, Hub.route?_eq]
      exact congrArg (·[h]?) (Hub.routing_of_standing outcome.standing)

mutual

/-- **The messages of a packet** only add to inboxes, and a reached table stays one. -/
theorem Reachable.dispatchPacket {t : Table} {hub : Hub} (reachable : t.Reachable hub) :
    (packet : Packet) → t.Reachable (t.dispatchPacket hub packet).2 ∧
      hub.Fed (t.dispatchPacket hub packet).2
  | .message m => by
    rw [dispatchPacket_message]
    exact ⟨reachable.dispatched t _ _, reachable.fed_dispatch _ _⟩
  | .bundle _ items => by
    rw [Table.dispatchPacket]
    exact reachable.dispatchEach items

theorem Reachable.dispatchEach {t : Table} {hub : Hub} (reachable : t.Reachable hub) :
    (packets : List Packet) → t.Reachable (t.dispatchEach hub packets).2 ∧
      hub.Fed (t.dispatchEach hub packets).2
  | [] => ⟨reachable, .refl hub⟩
  | packet :: packets => by
    obtain ⟨reached, fed⟩ := reachable.dispatchPacket packet
    obtain ⟨reached', fed'⟩ := reached.dispatchEach packets
    exact ⟨reached', fed.trans fed'⟩

end

end Table

namespace Server

variable {server server' : Server} {hub hub' : Hub}

/-! ## Servers that can be reached -/

/-- **What can happen to a server** and the subscriptions it feeds. -/
inductive Step : Server → Hub → Server → Hub → Prop
  /-- Something happens to the subscriptions. -/
  | feed {server : Server} {hub hub' : Hub} : hub.Step hub' → Step server hub server hub'
  /-- A route is taken up. -/
  | serve {server : Server} {hub : Hub} {h served : HandleId} {route : Route} {table : Table} :
      hub.route? h = some route → server.table.serve hub h route = .ok (served, table) →
      Step server hub { server with table } hub
  /-- A route is given up. -/
  | withdraw {server : Server} {hub : Hub} (route : Route) :
      Step server hub { server with table := (server.table.withdraw hub route).2.1 }
        (server.table.withdraw hub route).2.2
  /-- Every route is given up. -/
  | clear {server : Server} {hub : Hub} :
      Step server hub { server with table := (server.table.clear hub).1 } (server.table.clear hub).2
  /-- The addresses are gone through in another order. -/
  | reorder {server : Server} {hub : Hub} {order : List (String × List HandleId)} :
      order.Perm server.table.byAddress →
      Step server hub { server with table := { server.table with byAddress := order } } hub
  /-- A packet is put into the channel. -/
  | send {server : Server} {hub : Hub} {packet : Packet} {inbound : Channel} :
      server.inbound.send packet = .ok inbound → Step server hub { server with inbound } hub
  /-- The server is started. -/
  | start {server server' : Server} {hub hub' : Hub} :
      server.start hub = .ok (server', hub') → Step server hub server' hub'
  /-- It dispatches the next packet. -/
  | dispatch {server : Server} {hub : Hub} : server.phase = .running →
      Step server hub (server.dispatchNext hub).1 (server.dispatchNext hub).2
  /-- It does all that it can. -/
  | advance {server : Server} {hub : Hub} :
      Step server hub (server.advance hub).1 (server.advance hub).2
  /-- It is asked to stop. -/
  | requestStop {server : Server} {hub : Hub} : Step server hub server.requestStop hub
  /-- It is given up. -/
  | abandon {server : Server} {hub : Hub} : Step server hub server.abandon hub

/-- **Servers reached by anything that can happen,** from one that serves nothing yet. -/
inductive Reached : Server → Hub → Prop
  /-- A new server. -/
  | fresh (name : String) : Reached { name } {}
  /-- Something happens. -/
  | step {server server' : Server} {hub hub' : Hub} :
      Reached server hub → Step server hub server' hub' → Reached server' hub'

/-- **The table is reached, and the channel is open until the server ends.** -/
structure Sound (server : Server) (hub : Hub) : Prop where
  /-- The table is reached. -/
  table : server.table.Reachable hub
  /-- A server that runs, or has not started, has an open channel. -/
  opened : server.phase = .idle ∨ server.phase = .running ∨ server.phase = .abandoned →
    server.inbound.closed = false

/-! ## One packet after the other -/

theorem dispatchNext_nil (empty : server.inbound.packets = []) :
    server.dispatchNext hub = (server, hub) := by
  rw [dispatchNext, Channel.receive, empty]

/-- The packet in front is dispatched and taken out. -/
theorem dispatchNext_cons {packet : Packet} {rest : List Packet}
    (packets : server.inbound.packets = packet :: rest) : server.dispatchNext hub =
      ({ server with inbound := { server.inbound with packets := rest } },
        (server.table.dispatchPacket hub packet).2) := by
  rw [dispatchNext, Channel.receive, packets]

/-- Dispatching only adds to inboxes. -/
theorem Sound.dispatchNext (sound : server.Sound hub) :
    (server.dispatchNext hub).1.Sound (server.dispatchNext hub).2 ∧
      hub.Fed (server.dispatchNext hub).2 := by
  cases packets : server.inbound.packets with
  | nil =>
    rw [dispatchNext_nil packets]
    exact ⟨sound, .refl hub⟩
  | cons packet rest =>
    obtain ⟨reached, fed⟩ := sound.table.dispatchPacket packet
    rw [dispatchNext_cons packets]
    exact ⟨⟨reached, sound.opened⟩, fed⟩

theorem Sound.dispatchMany (sound : server.Sound hub) (count : Nat) :
    (server.dispatchMany hub count).1.Sound (server.dispatchMany hub count).2 ∧
      hub.Fed (server.dispatchMany hub count).2 := by
  induction count generalizing server hub with
  | zero => exact ⟨sound, .refl hub⟩
  | succ count ih =>
    obtain ⟨sound', fed⟩ := sound.dispatchNext
    obtain ⟨sound'', fed'⟩ := ih sound'
    exact ⟨sound'', fed.trans fed'⟩

/-- Doing all that can be done keeps the table reached and the channel open while it runs. -/
theorem Sound.advance (sound : server.Sound hub) :
    (server.advance hub).1.Sound (server.advance hub).2 := by
  unfold Server.advance
  split
  next running =>
    split
    next => exact ⟨sound.table.clear, fun ended => by simp [finish] at ended⟩
    next => exact (sound.dispatchMany _).1
  next abandoned => exact ⟨sound.table, fun ended => by simp at ended⟩
  next => exact sound
  next => exact sound
  next => exact sound

/-- **Whatever happens to a server** keeps its table reached, and its channel open until it ends. -/
theorem Step.sound (step : Step server hub server' hub') (sound : server.Sound hub) :
    server'.Sound hub' := by
  cases step with
  | feed fed => exact ⟨sound.table.step fed, sound.opened⟩
  | serve found taken => exact ⟨sound.table.serve found taken, sound.opened⟩
  | withdraw route => exact ⟨sound.table.withdraw route, sound.opened⟩
  | clear => exact ⟨sound.table.clear, sound.opened⟩
  | reorder same => exact ⟨sound.table.reorder same, sound.opened⟩
  | send sent =>
    unfold Channel.send at sent
    split at sent <;> cases sent
    exact ⟨sound.table, sound.opened⟩
  | start started =>
    unfold Server.start at started
    split at started
    next idle =>
      have begun : ({ server with phase := .running } : Server).Sound hub :=
        ⟨sound.table, fun _ => sound.opened (.inl idle)⟩
      have after := begun.advance
      rw [Except.ok.inj started] at after
      exact after
    next => simp at started
  | dispatch running => exact sound.dispatchNext.1
  | advance => exact sound.advance
  | requestStop => exact ⟨sound.table, sound.opened⟩
  | abandon =>
    unfold Server.abandon
    split
    next running => exact ⟨sound.table, fun _ => sound.opened (.inr (.inl running))⟩
    next => exact sound

/-- **A reached server has a reached table, and an open channel until it ends.** -/
theorem Reached.sound (reached : server.Reached hub) : server.Sound hub := by
  induction reached with
  | fresh name => exact ⟨.empty, fun _ => rfl⟩
  | step _ taken ih => exact taken.sound ih

/-- A server is reached by any run of operations on what it feeds. -/
theorem Reached.run (reached : server.Reached hub) {events : List Event}
    (run : Run hub events hub') : server.Reached hub' := by
  induction run with
  | stay => exact reached
  | step _ permitted ih => exact ih.step (.feed (.perform _ permitted))

end Server

end SoundControl
