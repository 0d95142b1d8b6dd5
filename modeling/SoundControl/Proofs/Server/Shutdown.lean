import SoundControl.Proofs.Server.Course
import SoundControl.Proofs.Table.Lasting

/-!
# A server runs once, and then it is over

Whoever sends packets, takes up and gives up routes or asks the server to stop, and whenever: the
server dispatches the packets in the order in which its channel took them, until it takes the request
to stop; when it returns, its routes are given up, their subscriptions have ended, and nothing can be
sent to it or start it again.

* **`Course.accepted`**, **`Course.dispatched`** — the packets that went into the channel, and those
  that came out.
* **`Course.Orderly`**, **`Course.Returned`** — what a server keeps to, and what it leaves behind.
* **`Course.Coherent`** — the invariant.
* **`Course.After.orderly`** — every course is orderly.
-/

namespace SoundControl

open Wire

namespace Course

variable {course course' : Course} {trace : List Occurrence} {occurrence : Occurrence}

/-- The packets that the channel has taken, in order. -/
def accepted (trace : List Occurrence) : List Packet := trace.filterMap Occurrence.accepted?

/-- The packets that were dispatched, in order. -/
def dispatched (trace : List Occurrence) : List Packet := trace.filterMap Occurrence.dispatched?

/-- **What a run leaves behind** when it returns. -/
structure Returned (course course' : Course) : Prop where
  /-- The server does not count as running. -/
  stopped : course'.server.isRunning = false
  /-- No route is left in the table. -/
  emptied : course'.server.table = {}
  /-- A subscription of a handle that was registered has ended: in its inbox are the values that were
  queued, and the end marker behind them, unless that was read before. -/
  ended : ∀ (route : Route) (s : SubId) (sub : Subscription),
    course.server.table.get? course.hub route = some sub.handle →
    course.hub.subscriptions[s]? = some sub → ∃ sub', course'.hub.subscriptions[s]? = some sub' ∧
      sub'.active = false ∧ sub'.inbox =
        sub.queued.map Delivery.values ++ if sub.finished then [] else [.ended]
  /-- The others are as they were. -/
  kept : ∀ (s : SubId) (sub : Subscription),
    (∀ route, course.server.table.get? course.hub route ≠ some sub.handle) →
    course.hub.subscriptions[s]? = some sub → course'.hub.subscriptions[s]? = some sub

/-- **What a server keeps to** at every moment of its course. -/
structure Orderly (trace : List Occurrence) (course : Course) : Prop where
  /-- The packets that were dispatched are the first of those that the channel took, in that order
  and each once; -/
  ordered : dispatched trace <+: accepted trace
  /-- until the run returns, the others are in the channel. -/
  queued : course.stage ≠ .returned →
    accepted trace = dispatched trace ++ course.server.inbound.packets
  /-- While the run waits it may dispatch the packet in front, and it may take the request to stop:
  either, if both are there. -/
  ready : course.stage = .serving →
    (∀ packet rest, course.server.inbound.packets = packet :: rest →
      ∃ course', course.Step (.dispatched packet) course') ∧
    (course.server.stopRequested = true → ∃ course', course.Step .left course')
  /-- Dispatching hands the packet in front to the table. -/
  handed : ∀ packet course', course.Step (.dispatched packet) course' →
    course.server.inbound.packets = packet :: course'.server.inbound.packets ∧
      course'.hub = (course.server.table.dispatchPacket course.hub packet).2
  /-- Once the request to stop is taken, nothing more is dispatched. -/
  final : ∀ before after, trace = before ++ .left :: after → dispatched after = []
  /-- On its way out the run can go on until it returns. -/
  onwards : Stage.serving.rank < course.stage.rank → course.stage ≠ .returned →
    ∃ occurrence course', course.Step occurrence course' ∧ course.stage.rank < course'.stage.rank
  /-- It returns when everything is given up, -/
  returns : ∀ course', course.Step .returned course' → Returned course course'
  /-- and ever after the server is stopped, and what is sent to it is refused. -/
  ended : .returned ∈ trace → course.server.isRunning = false ∧
    ∀ packet, course.send packet = (.error .closed, course)
  /-- A server that was started cannot be started again, and is as it was. -/
  once : ∀ answer, .started answer ∈ trace → course.start = (.error .alreadyRunning, course)

/-! ## The stage and the server -/

/-- The phase and the channel are those of the stage. -/
structure Staged (course : Course) : Prop where
  /-- The phase is told by the stage. -/
  phase : course.server.phase = course.stage.phase
  /-- So is whether the channel is closed. -/
  closed : course.server.inbound.closed = course.stage.closes

/-- A server starts if it has not. -/
theorem Staged.start_eq (staged : course.Staged) : course.start =
    if course.stage = .unstarted then (.ok (), { course with
      server := { course.server with phase := .running }, stage := .serving })
    else (.error .alreadyRunning, course) := by
  have idle : course.server.phase = .idle ↔ course.stage = .unstarted := by
    rw [staged.phase]
    cases course.stage <;> simp [Stage.phase]
  unfold start Server.start
  simp only [idle]
  by_cases unstarted : course.stage = .unstarted
  · rw [if_pos unstarted, if_pos unstarted]
  · rw [if_neg unstarted, if_neg unstarted]

/-- A packet is taken while the channel is open. -/
theorem Staged.send_eq (staged : course.Staged) (packet : Packet) : course.send packet =
    if course.stage.closes then (.error .closed, course)
    else (.ok (), { course with server := { course.server with inbound :=
      { course.server.inbound with packets := course.server.inbound.packets ++ [packet] } } }) := by
  have closed := staged.closed
  cases closes : course.stage.closes <;> simp [send, Channel.send, closed, closes]

theorem receive_eq_some {packet : Packet} (received : course.server.inbound.receive.1 = some packet) :
    ∃ rest, course.server.inbound.packets = packet :: rest := by
  unfold Channel.receive at received
  split at received
  next => cases received
  next first rest packets =>
    obtain rfl : first = packet := Option.some.inj received
    exact ⟨rest, packets⟩

/-- **A step keeps the server in line with the stage.** -/
theorem Step.staged (step : course.Step occurrence course') (staged : course.Staged) :
    course'.Staged := by
  cases step with
  | feed step => exact ⟨staged.phase, staged.closed⟩
  | call call known => exact ⟨staged.phase, staged.closed⟩
  | reorder same => exact ⟨staged.phase, staged.closed⟩
  | send packet =>
    rw [staged.send_eq]
    split
    · exact staged
    · exact ⟨staged.phase, staged.closed⟩
  | ask => exact ⟨staged.phase, staged.closed⟩
  | start =>
    rw [staged.start_eq]
    split
    next unstarted =>
      -- Starting leaves the channel alone, which is open as it was.
      have opened := staged.closed
      rw [unstarted] at opened
      exact ⟨rfl, opened⟩
    next => exact staged
  | dispatch serving received =>
    obtain ⟨rest, packets⟩ := receive_eq_some received
    rw [Server.dispatchNext_cons packets]
    exact ⟨staged.phase, staged.closed⟩
  | leave serving asked =>
    have phase := staged.phase
    have opened := staged.closed
    rw [serving] at phase opened
    exact ⟨phase, opened⟩
  | mark leaving =>
    have opened := staged.closed
    rw [leaving] at opened
    exact ⟨rfl, opened⟩
  | close marked =>
    have phase := staged.phase
    rw [marked] at phase
    exact ⟨phase, rfl⟩
  | giveUp closed =>
    have phase := staged.phase
    rw [closed] at phase
    exact ⟨phase, rfl⟩

/-- **The run only goes on,** and has come to the stage of what happens. -/
theorem Step.rank_le (step : course.Step occurrence course') (staged : course.Staged) :
    course.stage.rank ≤ course'.stage.rank ∧ occurrence.stage.rank ≤ course'.stage.rank := by
  cases step with
  | feed step => exact ⟨Nat.le_refl _, Nat.zero_le _⟩
  | call call known => exact ⟨Nat.le_refl _, Nat.zero_le _⟩
  | reorder same => exact ⟨Nat.le_refl _, Nat.zero_le _⟩
  | send packet =>
    rw [staged.send_eq]
    split <;> exact ⟨Nat.le_refl _, Nat.zero_le _⟩
  | ask => exact ⟨Nat.le_refl _, Nat.zero_le _⟩
  | start =>
    rw [staged.start_eq]
    cases stage : course.stage <;> simp [stage, Stage.rank, Occurrence.stage]
  | dispatch serving received => simp [serving, Stage.rank, Occurrence.stage]
  | leave stage asked => simp [stage, Stage.rank, Occurrence.stage]
  | mark stage => simp [stage, Stage.rank, Occurrence.stage]
  | close stage => simp [stage, Stage.rank, Occurrence.stage]
  | giveUp stage => simp [stage, Stage.rank, Occurrence.stage]

/-! ## The packets -/

/-- Only a run that waits dispatches, and then it waits again. -/
theorem Step.dispatched?_eq_none (step : course.Step occurrence course')
    (busy : course'.stage ≠ .serving) : occurrence.dispatched? = none := by
  cases step with
  | dispatch serving received => exact absurd serving busy
  | _ => rfl

/-- **What is taken goes in behind the packets in the channel, and what is dispatched comes out in
front,** until the run returns. -/
theorem Step.conserved (step : course.Step occurrence course') (staged : course.Staged)
    (going : course'.stage ≠ .returned) :
    course.server.inbound.packets ++ occurrence.accepted?.toList =
      occurrence.dispatched?.toList ++ course'.server.inbound.packets := by
  cases step with
  | send packet =>
    rw [staged.send_eq]
    split <;> simp [Occurrence.accepted?, Occurrence.dispatched?]
  | start =>
    rw [staged.start_eq]
    split <;> simp [Occurrence.accepted?, Occurrence.dispatched?]
  | dispatch serving received =>
    obtain ⟨rest, packets⟩ := receive_eq_some received
    rw [Server.dispatchNext_cons packets, packets]
    simp [Occurrence.accepted?, Occurrence.dispatched?]
  | giveUp closed => exact absurd rfl going
  | _ => exact List.append_nil _

/-! ## The table -/

/-- **A step leaves a reached table.** -/
theorem Step.reachable (step : course.Step occurrence course') (staged : course.Staged)
    (reachable : course.server.table.Reachable course.hub) :
    course'.server.table.Reachable course'.hub := by
  cases step with
  | feed step => exact reachable.step step
  | call call known => exact reachable.call known
  | reorder same => exact reachable.reorder same
  | send packet =>
    rw [staged.send_eq]
    split <;> exact reachable
  | start =>
    rw [staged.start_eq]
    split <;> exact reachable
  | dispatch serving received =>
    obtain ⟨rest, packets⟩ := receive_eq_some received
    rw [Server.dispatchNext_cons packets]
    exact (reachable.dispatchPacket _).1
  | giveUp closed => exact reachable.clear
  | _ => exact reachable

/-- **A run that returns** has given up every route. -/
theorem Step.returned (step : course.Step .returned course') (staged : course.Staged)
    (reachable : course.server.table.Reachable course.hub) : Returned course course' := by
  have stopped := (step.staged staged).phase
  cases step with
  | giveUp closed =>
    obtain ⟨m, calls⟩ := reachable.exists_calls
    obtain ⟨sound, mirrors⟩ := calls.mirrors
    have called := mirrors.called_clear sound
    constructor
    case stopped => rw [Server.isRunning, stopped]; rfl
    case emptied => exact called.emptied rfl
    case ended =>
      intro route s sub registered found
      rw [mirrors.get?_eq] at registered
      -- Where the end marker stands is known of every subscription, also of one that had ended.
      have marked : sub.Marked :=
        reachable.each Subscription.lasting_marked sub (List.mem_of_getElem? found)
      exact ⟨sub.close, called.ended s sub found ⟨route, registered⟩, sub.active_close,
        marked.inbox_close⟩
    case kept =>
      intro s sub others found
      rw [mirrors.get?_eq] at others
      exact called.kept s sub found (fun ⟨route, registered⟩ => others route registered) rfl

/-! ## Whole courses -/

/-- **The invariant of a course.** -/
structure Coherent (trace : List Occurrence) (course : Course) : Prop extends Staged course where
  /-- The table is reached. -/
  reachable : course.server.table.Reachable course.hub
  /-- The run has come to the stage of everything that has happened. -/
  passed : ∀ occurrence ∈ trace, occurrence.stage.rank ≤ course.stage.rank
  /-- The packets dispatched are the first of those taken; -/
  ordered : dispatched trace <+: accepted trace
  /-- the others are in the channel. -/
  queued : course.stage ≠ .returned →
    accepted trace = dispatched trace ++ course.server.inbound.packets
  /-- Nothing is dispatched after the request to stop was taken. -/
  final : ∀ before after, trace = before ++ .left :: after → dispatched after = []

theorem accepted_append (trace : List Occurrence) (occurrence : Occurrence) :
    accepted (trace ++ [occurrence]) = accepted trace ++ occurrence.accepted?.toList := by
  rw [accepted, List.filterMap_append, accepted]
  cases taken : occurrence.accepted? <;> simp [taken]

theorem dispatched_append (trace : List Occurrence) (occurrence : Occurrence) :
    dispatched (trace ++ [occurrence]) = dispatched trace ++ occurrence.dispatched?.toList := by
  rw [dispatched, List.filterMap_append, dispatched]
  cases out : occurrence.dispatched? <;> simp [out]

theorem coherent_fresh (name : String) : Coherent [] { server := { name } } where
  phase := rfl
  closed := rfl
  reachable := .empty
  passed occurrence listed := absurd listed List.not_mem_nil
  ordered := List.prefix_refl []
  queued _ := rfl
  final before after whole := by simp at whole

/-- **A step keeps the invariant.** -/
theorem Coherent.step (coherent : Coherent trace course) (step : course.Step occurrence course') :
    Coherent (trace ++ [occurrence]) course' := by
  have staged := coherent.toStaged
  obtain ⟨onwards, there⟩ := step.rank_le staged
  -- A run that has not returned had not returned before, so the packets were conserved until now.
  have queued (going : course'.stage ≠ .returned) : accepted (trace ++ [occurrence]) =
      dispatched (trace ++ [occurrence]) ++ course'.server.inbound.packets := by
    have before : course.stage ≠ .returned := by
      intro returned
      rw [returned] at onwards
      cases stage : course'.stage <;> simp [stage, Stage.rank] at going onwards
    rw [accepted_append, dispatched_append, coherent.queued before, List.append_assoc,
      List.append_assoc, step.conserved staged going]
  constructor
  case toStaged => exact step.staged staged
  case reachable => exact step.reachable staged coherent.reachable
  case passed =>
    intro earlier listed
    rcases List.mem_append.1 listed with listed | last
    · exact Nat.le_trans (coherent.passed earlier listed) onwards
    · rwa [List.mem_singleton.1 last]
  case ordered =>
    by_cases going : course'.stage = .returned
    · -- A run that dispatched would not have returned.
      have silent := step.dispatched?_eq_none (by simp [going])
      rw [accepted_append, dispatched_append, silent, Option.toList_none, List.append_nil]
      exact coherent.ordered.trans (List.prefix_append _ _)
    · exact ⟨_, (queued going).symm⟩
  case queued => exact queued
  case final =>
    intro before after whole
    -- What happened last is the taking of the request itself, or comes behind it.
    rcases List.eq_nil_or_concat' after with rfl | ⟨after, last, rfl⟩
    · rfl
    rw [← List.cons_append, ← List.append_assoc] at whole
    obtain ⟨rfl, same⟩ := List.append_inj' whole rfl
    obtain rfl : occurrence = last := List.singleton_inj.1 same
    -- The run waits no longer.
    have gone := coherent.passed .left (List.mem_append_right _ List.mem_cons_self)
    have busy : course'.stage ≠ .serving := by
      intro serving
      rw [serving] at onwards
      exact absurd (Nat.le_trans gone onwards) (by decide)
    rw [dispatched_append, coherent.final before after rfl, step.dispatched?_eq_none busy]
    rfl

/-- **Every course is coherent.** -/
theorem After.coherent (after : After trace course) : Coherent trace course := by
  induction after with
  | fresh name => exact coherent_fresh name
  | step _ taken ih => exact ih.step taken

/-- **A server dispatches what its channel takes, in order, until it takes the request to stop, and
then ends for good,** whatever others do in between. -/
theorem After.orderly (after : After trace course) : Orderly trace course := by
  have coherent := after.coherent
  have staged := coherent.toStaged
  constructor
  case ordered => exact coherent.ordered
  case queued => exact coherent.queued
  case ready =>
    refine fun serving => ⟨fun packet rest packets => ⟨_, .dispatch serving ?_⟩, fun asked =>
      ⟨_, .leave serving asked⟩⟩
    rw [Channel.receive, packets]
  case handed =>
    intro packet course' taken
    cases taken with
    | dispatch serving received =>
      obtain ⟨rest, packets⟩ := receive_eq_some received
      rw [Server.dispatchNext_cons packets]
      exact ⟨packets, rfl⟩
  case final => exact coherent.final
  case onwards =>
    intro leaving going
    cases stage : course.stage with
    | unstarted | serving => simp [stage, Stage.rank] at leaving
    | leaving => exact ⟨_, _, .mark stage, Nat.lt_add_one _⟩
    | marked => exact ⟨_, _, .close stage, Nat.lt_add_one _⟩
    | closed => exact ⟨_, _, .giveUp stage, Nat.lt_add_one _⟩
    | returned => exact absurd stage going
  case returns => exact fun course' taken => taken.returned staged coherent.reachable
  case ended =>
    intro returned
    -- No stage is beyond the last.
    have last := coherent.passed _ returned
    have stage : course.stage = .returned := by
      cases stage : course.stage <;> simp [stage, Stage.rank, Occurrence.stage] at last ⊢
    refine ⟨?_, fun packet => ?_⟩
    · rw [Server.isRunning, staged.phase, stage]
      rfl
    · rw [staged.send_eq, stage]
      rfl
  case once =>
    intro answer started
    have begun := coherent.passed _ started
    rw [staged.start_eq, if_neg]
    intro unstarted
    rw [unstarted] at begun
    exact absurd begun (Nat.not_succ_le_zero 0)

/-- Of three packets one is dispatched before the server takes the request to stop, one is still in the
channel, and one is sent while the run is on its way out; a fourth is refused, and so is a second start.
The subscription ends behind the first. -/
theorem orderly_with_late_packets :
    let route : Route := ⟨.single (.literal "/a"), .typed .int32 []⟩
    let packet (n : Int32) : Packet := .message ⟨"/a", [.int n]⟩
    let trace : List Occurrence := [.besides, .besides, .besides, .asked, .started (.ok ()),
      .sent (packet 1) (.ok ()), .sent (packet 2) (.ok ()), .dispatched (packet 1), .left,
      .sent (packet 3) (.ok ()), .marked, .started (.error .alreadyRunning), .closed,
      .sent (packet 4) (.error .closed)]
    ∃ course course' : Course, After trace course ∧ Orderly trace course ∧
      (dispatched trace = [packet 1] ∧ accepted trace = [packet 1, packet 2, packet 3]) ∧
      course.server.table.get? course.hub route = some 0 ∧ course.Step .returned course' ∧
      course'.hub.subscriptions[0]? =
        some { handle := 0, inbox := [.values [.int 1], .ended], active := false } := by
  intro route packet trace
  have routed := ((After.fresh "server").step (.feed (.perform (.create route) trivial))).step
    (.feed (.perform (.subscribe 0) (by decide)))
  have served := (routed.step (.call (.serve 0 route) rfl)).step .ask
  have going := ((served.step .start).step (.send (packet 1))).step (.send (packet 2))
  -- The state is written out where a packet was dispatched, and so not computed again behind it.
  let stopping : Server :=
    { name := "server", table := ⟨[("/a", [0])], []⟩, inbound := ⟨[packet 2], false⟩
      phase := .running, stopRequested := true }
  have handed : After _
      ⟨stopping, (replay {} [.create route, .subscribe 0, .publish 0 [.int 1]]).2, .serving⟩ :=
    going.step (.dispatch rfl rfl)
  have leaving := handed.step (.leave rfl rfl)
  have marked := (leaving.step (.send (packet 3))).step (.mark rfl)
  have closed := (marked.step .start).step (.close rfl)
  have after := closed.step (.send (packet 4))
  exact ⟨_, _, after, After.orderly after, ⟨rfl, rfl⟩, rfl, .giveUp rfl, rfl⟩

end Course

end SoundControl
