import SoundControl.Proofs.Hub.Watching

/-!
# When a merged stream yields, waits and ends

After any run of operations, whatever was taken up and given up before, one read of each member is in
flight: the member is in the queue of the stream, or the stream waits for it.  So a poll finds every
value that a member has, and it is pending only if a member is active, and the end only if none is.

* **`Hub.inFlight`** — the subscriptions of which a read is in flight.
* **`Hub.Answered`** — what a poll answers.
* **`run_watched`** — the members are watched after every run.
* **`run_attended`** — reads in flight and answers after every run.
-/

namespace SoundControl

namespace Hub

/-- **The subscriptions of which a stream has a read in flight:** those that it is to look at, and the
others that it waits for. -/
def inFlight (hub : Hub) (m : MergeId) : List SubId :=
  hub.queue m ++ (List.range hub.subscriptions.length).filter fun s =>
    (hub.readers s).contains m && !(hub.queue m).contains s

variable {hub hub' : Hub} {m : MergeId} {merge : Merge} {s : SubId}

/-- **One read of each member is in flight.** -/
theorem inFlight_perm (stream : hub.merges[m]? = some merge)
    (tended : hub.Tended m merge.queue merge.members)
    (watched : hub.Watched m merge.queue merge.members) :
    (hub.inFlight m).Perm (hub.members m) := by
  rw [inFlight, queue_of_found stream, members_of_found stream]
  refine (List.perm_ext_iff_of_nodup ?_ watched.nodup).2 fun s => ?_
  · refine List.nodup_append.2 ⟨tended.queue_nodup, List.nodup_range.filter _, ?_⟩
    rintro s queued t waited rfl
    simp [queued] at waited
  · simp only [List.mem_append, List.mem_filter, List.mem_range, Bool.and_eq_true,
      List.contains_iff_mem, Bool.not_eq_true', Bool.eq_false_iff, ne_eq]
    constructor
    · rintro (queued | ⟨-, held, -⟩)
      · exact tended.queue_seated s queued
      · -- Whatever the stream holds is a member.
        obtain unread | ⟨-, seated⟩ := tended.waits s
        · simp [unread] at held
        · exact seated
    · -- The converse: a member that is not to be looked at is waited for.
      intro member
      by_cases queued : s ∈ merge.queue
      · exact .inl queued
      · refine .inr ⟨tended.known s member, ?_, queued⟩
        rw [(watched.waits s member queued).holds]
        exact List.mem_singleton_self m

/-! ## What a poll answers -/

/-- **What a poll answers.** What is kept goes first.  Otherwise a member that has values yields its
next ones; if none has any, those that have ended leave, and it is the end if no member is left. -/
structure Answered (hub : Hub) (m : MergeId) (outcome : Poll Yield) (hub' : Hub) : Prop where
  /-- What is kept goes first. -/
  kept : ∀ item rest, hub.ready m = item :: rest → outcome = .item item
  /-- Otherwise what is yielded is what a member has to read. -/
  read : ∀ item, hub.ready m = [] → outcome = .item item →
    item.sub ∈ hub.members m ∧ hub.upcoming item.sub = .item item.values
  /-- Something is yielded if something is kept or a member has values. -/
  yields : (∃ item, outcome = .item item) ↔
    hub.ready m ≠ [] ∨ ∃ s ∈ hub.members m, hub.queued s ≠ []
  /-- If nothing is yielded, those that have ended have left. -/
  leave : (∀ item, outcome ≠ .item item) →
    ∀ s, s ∈ hub'.members m ↔ s ∈ hub.members m ∧ hub.upcoming s ≠ .ended
  /-- It is pending if nothing is there and a member is active. -/
  pending : outcome = .pending ↔
    hub.ready m = [] ∧ (∀ s ∈ hub.members m, hub.queued s = []) ∧
      ∃ s ∈ hub.members m, hub.isActive s = true
  /-- It is the end if nothing is there and no member is active. -/
  ended : outcome = .ended ↔
    hub.ready m = [] ∧ ∀ s ∈ hub.members m, hub.queued s = [] ∧ hub.isActive s = false
  /-- The end is the end of the stream. -/
  terminated : outcome = .ended → hub'.isTerminated m = true

/-- A subscription without values has ended unless it is active. -/
theorem upcoming_ne_ended_iff (unread : hub.queued s = []) :
    hub.upcoming s ≠ .ended ↔ hub.isActive s = true := by
  rw [upcoming, unread]
  cases hub.isActive s <;> simp

/-- If something is kept it is yielded, and nothing else is done. -/
theorem answered_of_kept {item : Yield} {rest : List Yield}
    (kept : hub.ready m = item :: rest) : hub.Answered m (.item item) hub' where
  kept first others same := by
    rw [kept] at same
    exact congrArg Poll.item (List.cons.inj same).1
  read other nothing := by
    rw [kept] at nothing
    contradiction
  yields := iff_of_true ⟨item, rfl⟩ (.inl (by simp [kept]))
  leave other := absurd rfl (other item)
  pending := iff_of_false nofun fun nothing => by simp [kept] at nothing
  ended := iff_of_false nofun fun nothing => by simp [kept] at nothing
  terminated := nofun

/-- **If nothing is kept and a member yields,** it is what the member had to read. -/
theorem Polled.answered_of_item {item : Yield} (nothing : hub.ready m = [])
    (polled : hub.Polled m (hub.members m) (.item item) hub') : hub.Answered m (.item item) hub' := by
  obtain ⟨member, upcoming⟩ := polled.item item rfl
  obtain ⟨rest, queued⟩ := upcoming_eq_item_iff.1 upcoming
  have unread : hub.queued item.sub ≠ [] := by simp [queued]
  constructor
  case kept => simp [nothing]
  case read => exact fun item _ same => polled.item item same
  case yields => exact iff_of_true ⟨item, rfl⟩ (.inr ⟨item.sub, member, unread⟩)
  case leave => exact fun other => absurd rfl (other item)
  case pending => exact iff_of_false nofun fun silent => unread (silent.2.1 _ member)
  case ended => exact iff_of_false nofun fun silent => unread (silent.2 _ member).1
  case terminated => nofun

/-- **If nothing is kept and no member yields,** the members that are left are the active ones. -/
theorem Polled.answered_of_silent {outcome : Poll Yield}
    (nothing : hub.ready m = []) (nothing' : hub'.ready m = [])
    (polled : hub.Polled m (hub.members m) outcome hub') (silent : outcome.items = []) :
    hub.Answered m outcome hub' := by
  have unread := polled.unread silent
  have active := polled.active silent
  have answer := polled.answer silent
  have emptied : hub'.members m = [] ↔ ∀ s ∈ hub.members m, hub.isActive s = false := by
    simp only [List.eq_nil_iff_forall_not_mem, active, not_and, Bool.not_eq_true]
  obtain ⟨ended, pending⟩ : (outcome = .ended ↔ hub'.members m = []) ∧
      (outcome = .pending ↔ hub'.members m ≠ []) := by
    rw [answer, ne_eq, ← List.isEmpty_iff]
    split
    next empty => simp [empty]
    next nonempty => simp [nonempty]
  constructor
  case kept => simp [nothing]
  case read =>
    rintro item - rfl
    simp [Poll.items] at silent
  case yields =>
    refine iff_of_false ?_ ?_
    · rintro ⟨item, rfl⟩
      simp [Poll.items] at silent
    · rintro (kept | ⟨s, member, values⟩)
      · exact kept nothing
      · exact values (unread s member)
  case leave =>
    intro _ s
    rw [active]
    exact and_congr_right fun member => (upcoming_ne_ended_iff (unread s member)).symm
  case pending =>
    rw [pending, ne_eq, emptied, and_iff_right nothing, and_iff_right unread]
    simp
  case ended =>
    rw [ended, emptied, and_iff_right nothing]
    exact forall₂_congr fun s member => (and_iff_right (unread s member)).symm
  case terminated =>
    intro ended'
    rw [isTerminated, ended.1 ended', nothing']
    rfl

/-- **A poll in any order answers.** -/
theorem pollIn_answered (stream : hub.merges[m]? = some merge)
    (tended : hub.Tended m merge.queue merge.members)
    (watched : hub.Watched m merge.queue merge.members) {order : List SubId}
    (all : order.Perm (hub.queue m)) :
    hub.Answered m (hub.pollIn m order).1 (hub.pollIn m order).2 := by
  cases kept : hub.ready m with
  | cons item rest =>
    have outcome : (hub.pollIn m order).1 = .item item := by rw [pollIn, kept]
    rw [outcome]
    exact answered_of_kept kept
  | nil =>
    have polled := (pollIn_watched stream tended watched all).1 kept
    have queued : hub.pollIn m order = hub.pollQueue m order := by rw [pollIn, kept]
    rw [queue_of_found stream] at all
    obtain ⟨merge', stream', ready, -, -⟩ :=
      pollQueue_tended order stream all (tended.reorder all)
    have kept' : (hub.pollIn m order).2.ready m = [] := by
      rw [queued, ready_of_found stream', ready, ← ready_of_found stream, kept]
    rw [← members_of_found stream] at polled
    revert polled kept'
    cases (hub.pollIn m order).1 with
    | item item => exact fun polled _ => polled.answered_of_item kept
    | ended | pending => exact fun polled kept' => polled.answered_of_silent kept kept' rfl

end Hub

/-! ## After a run -/

variable {events : List StreamEvent} {hub : Hub}

/-- **The members of a stream are watched** after every run. -/
theorem run_watched (run : StreamRun { merges := [{}] } events hub) :
    hub.Watched 0 (hub.queue 0) (hub.members 0) := by
  induction run with
  | stay => exact ⟨List.nodup_nil, fun s member => absurd member List.not_mem_nil⟩
  | @step events hub op earlier permitted ih =>
    have gathering := gathering_empty.run earlier
    obtain ⟨merge, stream, tended⟩ := gathering.stream
    rw [Hub.queue_of_found stream, Hub.members_of_found stream] at ih
    cases op with
    | plain op =>
      have idle (s : SubId) := gathering.idle_of_reads permitted.2 (s := s)
      exact Hub.Watched.told stream ih (hub.told_perform 0 idle)
    | attach s => exact Hub.attach_watched stream ih s
    | poll order => exact (Hub.pollIn_watched stream tended ih permitted).2
    | detach s order => exact Hub.detachIn_watched stream tended ih permitted.2

/-- **A merged stream attends to its members.** -/
structure Attended (hub : Hub) : Prop where
  /-- A member is listed once. -/
  nodup : (hub.members 0).Nodup
  /-- One read of each member is in flight, and no other read. -/
  in_flight : (hub.inFlight 0).Perm (hub.members 0)
  /-- What a member has to read stands next in its inbox. -/
  next : ∀ s ∈ hub.members 0, (hub.take s).1 = hub.upcoming s
  /-- A poll answers by what there is to read, in whatever order it looks. -/
  answered : ∀ order, hub.PermitsStream 0 (.poll order) →
    hub.Answered 0 (hub.pollIn 0 order).1 (hub.pollIn 0 order).2

/-- **A merged stream yields what is there, waits while a member is active, and then ends,** whatever
members were taken up and given up before, and whatever was published, ended and polled. -/
theorem run_attended (run : StreamRun { merges := [{}] } events hub) : Attended hub := by
  have watched := run_watched run
  obtain ⟨merge, stream, tended⟩ := (gathering_empty.run run).stream
  have nodup := watched.nodup
  rw [Hub.queue_of_found stream, Hub.members_of_found stream] at watched
  constructor
  case nodup => exact nodup
  case in_flight => exact Hub.inFlight_perm stream tended watched
  case next =>
    intro s member
    rw [Hub.members_of_found stream] at member
    have found := List.getElem?_eq_getElem (tended.known s member)
    rw [Hub.take_of_found found, Hub.upcoming_of_found found (tended.tight s _ found)]
  case answered => exact fun order all => Hub.pollIn_answered stream tended watched all

/-- While the first of two members is given up the second yields, and then it ends: what it yielded
is kept, and a read of it is in flight to find its end. -/
theorem attended_after_detach :
    let ops : List StreamOperation := [.plain (.create .everything), .plain (.subscribe 0),
      .plain (.subscribe 0), .attach 0, .attach 1, .poll [1, 0], .plain (.publish 0 [.int 1]),
      .detach 0 [1, 0], .plain (.unsubscribeAll 0)]
    let hub := (replayStream { merges := [{}] } ops).2
    Attended hub ∧ hub.inFlight 0 = [1] ∧ (hub.pollIn 0 [1]).1 = .item ⟨1, .everything, [.int 1]⟩ ∧
      ((hub.pollIn 0 [1]).2.pollIn 0 [1]).1 = .ended :=
  ⟨run_attended (run_replayStream _ _ (by decide)), rfl, rfl, rfl⟩

end SoundControl
