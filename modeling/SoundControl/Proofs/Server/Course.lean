import SoundControl.Proofs.Server.Feeding
import SoundControl.Proofs.Table.Registry

/-!
# The course of a server

The run of a server is made of small parts: it waits, dispatches one packet or takes the request to
stop, and on its way out stops bit by bit.  Others call on the server, its routes and its
subscriptions between any two of them.

* **`Stage`** — how far the run is.
* **`Course`** — a server, what it feeds and the stage of its run.
* **`Occurrence`**, **`Course.Step`** — what happens, one thing at a time.
* **`Course.After`** — the courses reached, each with all that has happened in it.
* **`Server.Reached.course`** — whatever a server does at once is done by such steps.
-/

namespace SoundControl

open Wire

/-- **How far the run of a server is.** -/
inductive Stage where
  /-- It has not begun. -/
  | unstarted
  /-- It waits for a packet or for the request to stop. -/
  | serving
  /-- It has taken the request to stop. -/
  | leaving
  /-- The server does not count as running any more. -/
  | marked
  /-- The channel is closed. -/
  | closed
  /-- The routes are given up, and the run has returned. -/
  | returned
  deriving DecidableEq, Repr

namespace Stage

/-- What the server tells of the stage. -/
def phase : Stage → Phase
  | .unstarted => .idle
  | .serving | .leaving => .running
  | .marked | .closed | .returned => .stopped

/-- Whether the channel is closed. -/
def closes : Stage → Bool
  | .closed | .returned => true
  | .unstarted | .serving | .leaving | .marked => false

/-- How many stages are behind. -/
def rank : Stage → Nat
  | .unstarted => 0
  | .serving => 1
  | .leaving => 2
  | .marked => 3
  | .closed => 4
  | .returned => 5

end Stage

/-- **What happens to a server,** with the answers to those who call. -/
inductive Occurrence where
  /-- Something is done to routes, handles or subscriptions. -/
  | besides
  /-- A packet is put into the channel, if it takes one. -/
  | sent (packet : Packet) (answer : Except TransportFault Unit)
  /-- The server is asked to stop. -/
  | asked
  /-- It is started, if it can be. -/
  | started (answer : Except Failure Unit)
  /-- The run dispatches a packet. -/
  | dispatched (packet : Packet)
  /-- The run takes the request to stop. -/
  | left
  /-- The server ceases to count as running. -/
  | marked
  /-- The channel is closed. -/
  | closed
  /-- Every route is given up, and the run returns. -/
  | returned

namespace Occurrence

/-- The packet that the channel has taken. -/
def accepted? : Occurrence → Option Packet
  | .sent packet (.ok ()) => some packet
  | _ => none

/-- The packet that was dispatched. -/
def dispatched? : Occurrence → Option Packet
  | .dispatched packet => some packet
  | _ => none

/-- The stage that is reached when it happens. -/
def stage : Occurrence → Stage
  | .besides | .sent _ _ | .asked => .unstarted
  | .started _ | .dispatched _ => .serving
  | .left => .leaving
  | .marked => .marked
  | .closed => .closed
  | .returned => .returned

end Occurrence

/-- **A server, what it feeds, and how far its run is.** -/
structure Course where
  /-- The server. -/
  server : Server
  /-- The handles and subscriptions. -/
  hub : Hub := {}
  /-- How far the run is. -/
  stage : Stage := .unstarted

namespace Course

/-! ## One step -/

/-- **Put a packet into the channel;** whether it took it. -/
def send (course : Course) (packet : Packet) : Except TransportFault Unit × Course :=
  match course.server.inbound.send packet with
  | .ok inbound => (.ok (), { course with server := { course.server with inbound } })
  | .error fault => (.error fault, course)

/-- **Start the server,** if it can be; it has done nothing yet. -/
def start (course : Course) : Except Failure Unit × Course :=
  match course.server.start course.hub with
  | .ok _ =>
    (.ok (), { course with server := { course.server with phase := .running }, stage := .serving })
  | .error failure => (.error failure, course)

/-- **One thing that happens.** The first six come from others, at any time.  The rest are the parts of
the run, one after the other: while it waits it may dispatch although it was asked to stop, and it goes
on waiting at an empty channel, which the server itself can always send to.

Whatever is called is called as a whole: a call on the table is one step, whoever makes it, and so is
the dispatch of a packet.  On its way out the run makes three, by which it ceases to count as running,
closes the channel and clears the table; packets may be sent and the table called in between.
Clearing the table gives up many routes, but the run waits for nothing inside it, so it is one step
like the others. -/
inductive Step (course : Course) : Occurrence → Course → Prop
  /-- Something is done to handles and subscriptions. -/
  | feed {hub : Hub} : course.hub.Step hub → Step course .besides { course with hub }
  /-- The table is called. -/
  | call (call : Table.Call) : call.Known course.hub → Step course .besides { course with
      server := { course.server with table := (course.server.table.call course.hub call).2.1 }
      hub := (course.server.table.call course.hub call).2.2 }
  /-- The addresses are gone through in another order. -/
  | reorder {order : List (String × List HandleId)} : order.Perm course.server.table.byAddress →
      Step course .besides { course with server := { course.server with
        table := { course.server.table with byAddress := order } } }
  /-- A packet is sent. -/
  | send (packet : Packet) :
      Step course (.sent packet (course.send packet).1) (course.send packet).2
  /-- The server is asked to stop. -/
  | ask : Step course .asked { course with server := course.server.requestStop }
  /-- The server is started. -/
  | start : Step course (.started course.start.1) course.start.2
  /-- The next packet is dispatched. -/
  | dispatch {packet : Packet} : course.stage = .serving →
      course.server.inbound.receive.1 = some packet →
      Step course (.dispatched packet) { course with
        server := (course.server.dispatchNext course.hub).1
        hub := (course.server.dispatchNext course.hub).2 }
  /-- The request to stop is taken. -/
  | leave : course.stage = .serving → course.server.stopRequested = true →
      Step course .left { course with
        server := { course.server with stopRequested := false }, stage := .leaving }
  /-- The server ceases to count as running. -/
  | mark : course.stage = .leaving →
      Step course .marked { course with
        server := { course.server with phase := .stopped }, stage := .marked }
  /-- The channel is closed. -/
  | close : course.stage = .marked →
      Step course .closed { course with
        server := { course.server with inbound := course.server.inbound.close }, stage := .closed }
  /-- Every route is given up, in one call on the table as by `Table.Call.clear`, and with the run the
  channel goes. -/
  | giveUp : course.stage = .closed →
      Step course .returned
        { server := { course.server with
            table := (course.server.table.clear course.hub).1
            inbound := { packets := [], closed := true } }
          hub := (course.server.table.clear course.hub).2
          stage := .returned }

/-- **The courses of a server,** from a new one on, each with what has happened in it. -/
inductive After : List Occurrence → Course → Prop
  /-- A new server. -/
  | fresh (name : String) : After [] { server := { name } }
  /-- Something happens. -/
  | step {trace : List Occurrence} {course course' : Course} {occurrence : Occurrence} :
      After trace course → course.Step occurrence course' → After (trace ++ [occurrence]) course'

/-- The course is one of a server. -/
def Possible (course : Course) : Prop := ∃ trace, After trace course

theorem Possible.step {course course' : Course} {occurrence : Occurrence} (possible : course.Possible)
    (step : course.Step occurrence course') : course'.Possible := by
  obtain ⟨trace, after⟩ := possible
  exact ⟨_, after.step step⟩

/-! ## Several steps at once -/

variable {server : Server} {hub : Hub}

/-- The next packet is dispatched, if there is one. -/
theorem Possible.dispatchNext (possible : Possible ⟨server, hub, .serving⟩) :
    Possible ⟨(server.dispatchNext hub).1, (server.dispatchNext hub).2, .serving⟩ := by
  cases packets : server.inbound.packets with
  | nil => rwa [Server.dispatchNext_nil packets]
  | cons packet rest =>
    have received : server.inbound.receive.1 = some packet := by rw [Channel.receive, packets]
    exact possible.step (.dispatch rfl received)

theorem Possible.dispatchMany (possible : Possible ⟨server, hub, .serving⟩) (count : Nat) :
    Possible ⟨(server.dispatchMany hub count).1, (server.dispatchMany hub count).2, .serving⟩ := by
  induction count generalizing server hub with
  | zero => exact possible
  | succ count ih => exact ih possible.dispatchNext

/-- **A server that ends at once** takes the request to stop and goes through all stages. -/
theorem Possible.finish (possible : Possible ⟨server, hub, .serving⟩)
    (asked : server.stopRequested = true) :
    Possible ⟨(server.finish hub).1, (server.finish hub).2, .returned⟩ := by
  have leaving := possible.step (.leave rfl asked)
  have marked := leaving.step (.mark rfl)
  have closed := marked.step (.close rfl)
  exact closed.step (.giveUp rfl)

end Course

/-- The stage of a run that is not on its way out, unless it was given up. -/
def Phase.stage? : Phase → Option Stage
  | .idle => some .unstarted
  | .running => some .serving
  | .stopped => some .returned
  | .abandoned | .lost => none

namespace Server

variable {server : Server} {hub : Hub} {stage stage' : Stage}

/-- Dispatching leaves the phase as it is. -/
theorem phase_dispatchNext (server : Server) (hub : Hub) :
    (server.dispatchNext hub).1.phase = server.phase := by
  cases packets : server.inbound.packets with
  | nil => rw [dispatchNext_nil packets]
  | cons packet rest => rw [dispatchNext_cons packets]

theorem phase_dispatchMany (server : Server) (hub : Hub) (count : Nat) :
    (server.dispatchMany hub count).1.phase = server.phase := by
  induction count generalizing server hub with
  | zero => rfl
  | succ count ih => rw [dispatchMany, ih, phase_dispatchNext]

/-- **All that a server does at once** can be done step by step. -/
theorem possible_advance (possible : Course.Possible ⟨server, hub, stage⟩)
    (here : server.phase.stage? = some stage)
    (there : (server.advance hub).1.phase.stage? = some stage') :
    Course.Possible ⟨(server.advance hub).1, (server.advance hub).2, stage'⟩ := by
  unfold advance at there ⊢
  cases phase : server.phase with
  | running =>
    obtain rfl : .serving = stage := by simpa [phase, Phase.stage?] using here
    -- It ends or dispatches what is there, and its phase tells which.
    by_cases asked : server.stopRequested = true
    · simp only [phase, if_pos asked] at there ⊢
      obtain rfl : .returned = stage' := by simpa [finish, Phase.stage?] using there
      exact possible.finish asked
    · simp only [phase, if_neg asked, phase_dispatchMany] at there ⊢
      obtain rfl : .serving = stage' := by simpa [Phase.stage?] using there
      exact possible.dispatchMany _
  | abandoned => simp [phase, Phase.stage?] at there
  | lost => simp [phase, Phase.stage?] at there
  | idle | stopped =>
    simp only [phase] at there ⊢
    rw [phase] at here
    obtain rfl : stage = stage' := by simpa [here] using there
    exact possible

/-- **Whatever a server does** and is done to it, unless it is given up, can happen step by step. -/
theorem Reached.course (reached : server.Reached hub) (here : server.phase.stage? = some stage) :
    Course.Possible ⟨server, hub, stage⟩ := by
  induction reached generalizing stage with
  | fresh name =>
    obtain rfl : .unstarted = stage := by simpa [Phase.stage?] using here
    exact ⟨[], .fresh name⟩
  | @step server server' hub hub' _ step ih =>
    cases step with
    | feed fed => exact (ih here).step (.feed fed)
    | @serve _ h served route table known served_eq =>
      have taken := (ih here).step (.call (.serve h route) known)
      simpa only [Table.call, served_eq] using taken
    | withdraw route => exact (ih here).step (.call (.withdraw route) trivial)
    | clear => exact (ih here).step (.call .clear trivial)
    | reorder same => exact (ih here).step (.reorder same)
    | @send _ packet inbound sent_eq =>
      have sent := (ih here).step (.send packet)
      simpa only [Course.send, sent_eq] using sent
    | start started =>
      unfold Server.start at started
      split at started
      next idle =>
        -- It begins, and then does at once all that it can.
        have unstarted : server.phase.stage? = some .unstarted := by rw [idle]; rfl
        have begun := (ih unstarted).step .start
        simp only [Course.start, Server.start, if_pos idle] at begun
        rw [Except.ok.injEq] at started
        have there : (({ server with phase := .running } : Server).advance hub).1.phase.stage? =
            some stage := by rwa [started]
        have after := possible_advance begun rfl there
        rwa [started] at after
      next => cases started
    | dispatch running =>
      rw [phase_dispatchNext, running] at here
      obtain rfl : .serving = stage := Option.some.inj here
      exact Course.Possible.dispatchNext (ih (by rw [running]; exact here))
    | advance =>
      cases before : server.phase.stage? with
      | some stage => exact possible_advance (ih before) before here
      | none =>
        -- It was given up, and stays so.
        cases phase : server.phase <;> simp [phase, Phase.stage?, Server.advance] at before here
    | requestStop => exact (ih here).step .ask
    | abandon =>
      unfold Server.abandon at here ⊢
      split at here
      next => simp [Phase.stage?] at here
      next lasting =>
        rw [if_neg lasting]
        exact ih here

end Server

end SoundControl
