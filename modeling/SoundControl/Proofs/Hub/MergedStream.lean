import SoundControl.Proofs.Hub.Waking

/-!
# What a merged stream yields

One merged stream, and any operations on the handles and subscriptions: members are taken up and
given up, the stream is polled, and members are read directly while they are not attached.  The
stream may look at its members in any order.  Nothing published to a subscription is lost or seen
twice.

* **`StreamOperation`**, **`StreamRun`** — what can be done, and the hubs reached by it.
* **`yielded`** — what a history says the stream yielded of a subscription.
* **`Merged`** — what holds after a run; **`run_merged`** — it holds after every one.
* **`Gathering`** — the invariant.
-/

namespace SoundControl

/-- **What can be done with a merged stream and with what it reads.** -/
inductive StreamOperation where
  /-- An operation on handles and subscriptions. -/
  | plain (op : Operation)
  /-- Take up a member. -/
  | attach (s : SubId)
  /-- Ask for the next values of any member, looking at the members in the given order;
  `Hub.pollMerge` takes that of the queue. -/
  | poll (order : List SubId)
  /-- Give up a member, looking at the members before it in the given order; `Hub.detach` takes
  that of the queue. -/
  | detach (s : SubId) (order : List SubId)

/-- What it answers. -/
inductive StreamAnswer where
  /-- The answer of an operation on handles and subscriptions. -/
  | plain (answer : Answer)
  /-- Whether something was done. -/
  | done (yes : Bool)
  /-- What there was to take. -/
  | poll (outcome : Poll Yield)

/-- An operation and what it answered. -/
structure StreamEvent where
  /-- What was done. -/
  operation : StreamOperation
  /-- What came of it. -/
  answer : StreamAnswer

/-- The event on handles and subscriptions, if it is one. -/
def StreamEvent.plain? : StreamEvent → Option Event
  | ⟨.plain op, .plain answer⟩ => some ⟨op, answer⟩
  | _ => none

/-- What the stream yielded. -/
def StreamEvent.yielded : StreamEvent → List Yield
  | ⟨_, .poll outcome⟩ => outcome.items
  | _ => []

/-- What was done to handles and subscriptions. -/
def plainEvents (events : List StreamEvent) : List Event := events.filterMap StreamEvent.plain?

/-- **What the stream yielded of a subscription,** in order. -/
def yielded (s : SubId) (events : List StreamEvent) : List (List Value) :=
  valuesOf s (events.flatMap StreamEvent.yielded)

namespace Hub

variable {hub hub' : Hub} {m : MergeId} {merge : Merge}

/-- The members to be looked at while one is given up are those to be looked at anyway, and it. -/
theorem mem_detachQueue {merge : Merge} (found : hub.merges[m]? = some merge) (s t : SubId) :
    t ∈ hub.detachQueue m s ↔ t ∈ merge.queue ∨ t = s := by
  have parted : (hub.leave m s).merges[m]? = some _ := merges_modifyMerge found _
  rw [detachQueue, queue_of_found (merges_modifyMerge parted _), mem_enqueue]

/-- **Do an operation** on the merged stream or on what it reads. -/
def performStream (hub : Hub) (m : MergeId) : StreamOperation → StreamAnswer × Hub
  | .plain op => (hub.perform op).map .plain id
  | .attach s => (hub.attach m s).map .done id
  | .poll order => (hub.pollIn m order).map .poll id
  | .detach s order => (hub.detachIn m s order).map .done id

/-- **What an operation is about exists,** no member is read directly, and the order of the looks
is one of the members to be looked at. -/
def PermitsStream (hub : Hub) (m : MergeId) : StreamOperation → Prop
  | .plain op => hub.Permits op ∧ ∀ s ∈ hub.members m, op.reads s = false
  | .attach s => s < hub.subscriptions.length
  | .poll order => order.Perm (hub.queue m)
  | .detach s order => s < hub.subscriptions.length ∧ order.Perm (hub.detachQueue m s)

instance (hub : Hub) (m : MergeId) (op : StreamOperation) : Decidable (hub.PermitsStream m op) :=
  match op with
  | .plain op => inferInstanceAs (Decidable (hub.Permits op ∧ ∀ s ∈ hub.members m, op.reads s = false))
  | .attach s => inferInstanceAs (Decidable (s < hub.subscriptions.length))
  | .poll order => inferInstanceAs (Decidable (order.Perm (hub.queue m)))
  | .detach s order => inferInstanceAs
    (Decidable (s < hub.subscriptions.length ∧ order.Perm (hub.detachQueue m s)))

end Hub

/-- **The hubs reached by sequences of events,** with one merged stream. -/
inductive StreamRun (start : Hub) : List StreamEvent → Hub → Prop
  /-- Nothing was done. -/
  | stay : StreamRun start [] start
  /-- An operation follows on what was done before. -/
  | step {events : List StreamEvent} {hub : Hub} {op : StreamOperation} :
      StreamRun start events hub → hub.PermitsStream 0 op →
      StreamRun start (events ++ [⟨op, (hub.performStream 0 op).1⟩]) (hub.performStream 0 op).2

/-- One run after another. -/
theorem StreamRun.trans {start middle hub : Hub} {events later : List StreamEvent}
    (head : StreamRun start events middle) (last : StreamRun middle later hub) :
    StreamRun start (events ++ later) hub := by
  induction last with
  | stay => rwa [List.append_nil]
  | step _ permitted ih =>
    rw [← List.append_assoc]
    exact ih.step permitted

/-- Do several operations in order. -/
def replayStream (hub : Hub) : List StreamOperation → List StreamEvent × Hub
  | [] => ([], hub)
  | op :: ops =>
    let (answer, hub) := hub.performStream 0 op
    let (events, hub) := replayStream hub ops
    (⟨op, answer⟩ :: events, hub)

/-- Each of several operations is permitted when it is done. -/
def PermitsStreamEach (hub : Hub) : List StreamOperation → Bool
  | [] => true
  | op :: ops => hub.PermitsStream 0 op && PermitsStreamEach (hub.performStream 0 op).2 ops

theorem run_replayStream (hub : Hub) (ops : List StreamOperation)
    (permitted : PermitsStreamEach hub ops = true) :
    StreamRun hub (replayStream hub ops).1 (replayStream hub ops).2 := by
  induction ops generalizing hub with
  | nil => exact .stay
  | cons op ops ih =>
    simp only [PermitsStreamEach, Bool.and_eq_true, decide_eq_true_eq] at permitted
    exact StreamRun.trans (StreamRun.stay.step permitted.1) (ih _ permitted.2)

/-! ## One operation of the stream -/

namespace Hub

variable {hub : Hub} {m : MergeId} {merge : Merge}

/-- A new member is to be looked at last. -/
theorem Tended.attach (tended : hub.Tended m merge.queue merge.members) {s : SubId}
    (fresh : s ∉ merge.members) (known : s < hub.subscriptions.length) :
    hub.Tended m (merge.queue ++ [s]) (merge.members ++ [s]) where
  queue_nodup := by
    refine List.nodup_append.2 ⟨tended.queue_nodup, by simp, ?_⟩
    rintro t member s' last rfl
    rw [List.mem_singleton] at last
    subst last
    exact fresh (tended.queue_seated t member)
  queue_seated t member := by
    rcases List.mem_append.1 member with listed | last
    · exact List.mem_append_left _ (tended.queue_seated t listed)
    · exact List.mem_append_right _ last
  known t member := by
    rcases List.mem_append.1 member with listed | last
    · exact tended.known t listed
    · rw [List.mem_singleton] at last
      exact last ▸ known
  waits t := (tended.waits t).imp id fun ⟨only, member⟩ => ⟨only, List.mem_append_left _ member⟩
  tight := tended.tight

/-- **Taking up a member** takes nothing out of an inbox. -/
theorem attach_tended (found : hub.merges[m]? = some merge)
    (tended : hub.Tended m merge.queue merge.members) {s : SubId}
    (known : s < hub.subscriptions.length) :
    ∃ merge', (hub.attach m s).2.merges[m]? = some merge' ∧
      (hub.attach m s).2.Tended m merge'.queue merge'.members ∧
      (hub.attach m s).2.ready m = hub.ready m ∧
      ∀ t, hub.waiting m t ++ hub.queued t =
        (hub.attach m s).2.waiting m t ++ (hub.attach m s).2.queued t := by
  rw [Hub.attach, members_of_found found]
  split
  next => exact ⟨merge, found, tended, rfl, fun _ => rfl⟩
  next fresh =>
    rw [List.contains_iff_mem] at fresh
    have found' := merges_modifyMerge found fun merge =>
      { merge with members := merge.members ++ [s], queue := merge.queue ++ [s] }
    refine ⟨_, found', (tended.attach fresh known).congr rfl, ?_, ?_⟩
    · rw [ready_of_found found', ready_of_found found]
    · intro t
      rw [Hub.waiting, Hub.waiting, ready_of_found found, ready_of_found found']
      rfl

/-- **What a poll yields is what was kept longest, or what it takes out of an inbox,** told with the
route of the member. -/
theorem pollIn_tended (found : hub.merges[m]? = some merge)
    (tended : hub.Tended m merge.queue merge.members) {order : List SubId}
    (all : order.Perm (hub.queue m)) :
    ∃ merge', (hub.pollIn m order).2.merges[m]? = some merge' ∧
      (hub.pollIn m order).2.Tended m merge'.queue merge'.members ∧
      (∀ item ∈ (hub.pollIn m order).1.items ++ (hub.pollIn m order).2.ready m,
        item ∈ hub.ready m ∨ hub.Titled merge.members item) ∧
      ∀ t, hub.waiting m t ++ hub.queued t = valuesOf t (hub.pollIn m order).1.items ++
        ((hub.pollIn m order).2.waiting m t ++ (hub.pollIn m order).2.queued t) := by
  have waiting (t : SubId) : hub.waiting m t = valuesOf t merge.ready := by
    rw [Hub.waiting, ready_of_found found]
  rw [queue_of_found found] at all
  unfold pollIn
  rw [ready_of_found found]
  cases kept : merge.ready with
  | cons item rest =>
    -- Nothing is looked at while something is kept.
    have found' := merges_modifyMerge found fun merge => { merge with ready := rest }
    refine ⟨_, found', tended.congr rfl, ?_, ?_⟩
    · rw [ready_of_found found']
      exact fun item => .inl
    · intro t
      have head : valuesOf t (item :: rest) = valuesOf t [item] ++ valuesOf t rest :=
        valuesOf_append t [item] rest
      rw [waiting, kept, head, Hub.waiting, ready_of_found found', List.append_assoc]
      rfl
  | nil =>
    obtain ⟨merge', found', ready, looked, queued, titled⟩ :=
      pollQueue_tended order found all (tended.reorder all)
    refine ⟨merge', found', looked, ?_, ?_⟩
    · intro item member
      rw [ready_of_found found', ready, kept, List.append_nil] at member
      exact .inr (titled item member)
    · intro t
      rw [waiting, kept, Hub.waiting, ready_of_found found', ready, kept]
      exact queued t

/-- **A member that is to be given up** is none any more, but keeps its seat until it is its turn. -/
theorem Tended.leave (found : hub.merges[m]? = some merge)
    (tended : hub.Tended m merge.queue merge.members) {s : SubId} (member : s ∈ merge.members)
    {order : List SubId} (all : order.Perm (hub.detachQueue m s)) :
    let hub' := (hub.leave m s).modifyMerge m (Merge.enqueue s)
    let others : Merge := { merge with members := merge.members.filter (· != s) }
    hub'.merges[m]? = some (others.enqueue s) ∧ (∀ t, t ∈ order ↔ t ∈ merge.queue ∨ t = s) ∧
      s ∉ (others.enqueue s).members ∧ hub'.Tended m order (s :: (others.enqueue s).members) := by
  intro hub' others
  have parted : (hub.leave m s).merges[m]? = some others := merges_modifyMerge found _
  have found' : hub'.merges[m]? = some (others.enqueue s) := merges_modifyMerge parted _
  refine ⟨found', fun t => all.mem_iff.trans (mem_detachQueue found s t), ?_, ?_⟩
  · rw [members_enqueue]
    simp [others]
  · have seats (t : SubId) : t ∈ s :: others.members ↔ t ∈ merge.members := by
      by_cases here : t = s
      · simp [here, member]
      · simp [others, here]
    have seated : hub.Tended m others.queue (s :: others.members) := tended.seats seats
    have queued := seated.enqueue List.mem_cons_self
    rw [detachQueue, queue_of_found found'] at all
    rw [members_enqueue]
    exact (queued.reorder all).congr rfl

/-- **Giving up a member loses nothing,** and it is a member no more; what is kept on the way is told
with the route of the member that it comes from. -/
theorem detachIn_tended (found : hub.merges[m]? = some merge)
    (tended : hub.Tended m merge.queue merge.members) {s : SubId} {order : List SubId}
    (all : order.Perm (hub.detachQueue m s)) :
    ∃ merge', (hub.detachIn m s order).2.merges[m]? = some merge' ∧ s ∉ merge'.members ∧
      (hub.detachIn m s order).2.Tended m merge'.queue merge'.members ∧
      (∀ item ∈ (hub.detachIn m s order).2.ready m,
        item ∈ hub.ready m ∨ hub.Titled merge.members item) ∧
      ∀ t, hub.waiting m t ++ hub.queued t =
        (hub.detachIn m s order).2.waiting m t ++ (hub.detachIn m s order).2.queued t := by
  rw [detachIn, members_of_found found]
  split
  next member =>
    rw [List.contains_iff_mem] at member
    obtain ⟨found₁, listed, gone, tended₁⟩ := Tended.leave found tended member all
    obtain ⟨merge', found', fewer, tended', kept, more, ready, titled⟩ :=
      reap_tended s order [] found₁ ((listed s).2 (.inr rfl)) gone tended₁ (by simp)
    refine ⟨merge', found', fun member => gone (fewer s member), tended', ?_, ?_⟩
    · intro item listed
      rw [ready_of_found found', ready, ready_enqueue, List.mem_append] at listed
      rw [ready_of_found found]
      refine listed.imp id fun later => (titled item later).of_look rfl ?_
      simp +contextual
    · intro t
      rw [← kept t, Hub.waiting, Hub.waiting, ready_of_found found, ready_of_found found₁,
        ready_enqueue]
      rfl
  next absent =>
    rw [List.contains_iff_mem] at absent
    exact ⟨merge, found, absent, tended, fun item => .inl, fun _ => rfl⟩

end Hub

/-! ## The invariant -/

variable {events : List StreamEvent} {hub hub' : Hub}

theorem plainEvents_append (events : List StreamEvent) (e : StreamEvent) :
    plainEvents (events ++ [e]) = plainEvents events ++ e.plain?.toList := by
  rw [plainEvents, List.filterMap_append, plainEvents]
  cases plain : e.plain? <;> simp [plain]

theorem plainEvents_append_plain (events : List StreamEvent) (op : Operation) (answer : Answer) :
    plainEvents (events ++ [⟨.plain op, .plain answer⟩]) = plainEvents events ++ [⟨op, answer⟩] :=
  plainEvents_append events _

theorem yielded_append (s : SubId) (events : List StreamEvent) (e : StreamEvent) :
    yielded s (events ++ [e]) = yielded s events ++ valuesOf s e.yielded := by
  simp [yielded]

/-- **Everything published is in one place.** What the stream has of a subscription is, from the
front of what it yielded to the end of the inbox, in the order in which it was published. -/
structure Gathering (events : List StreamEvent) (hub : Hub) : Prop where
  /-- The hub agrees with what was done to handles and subscriptions. -/
  faithful : Faithful (plainEvents events) hub
  /-- The members are looked after. -/
  stream : ∃ merge, hub.merges[0]? = some merge ∧ hub.Tended 0 merge.queue merge.members
  /-- What was published was yielded, is kept, is in the inbox, or was read directly. -/
  accounted : ∀ s, (published s (plainEvents events)).Perm
    (yielded s events ++ (hub.waiting 0 s ++ hub.queued s) ++ received s (plainEvents events))
  /-- All but what was read directly is in order. -/
  ordered : ∀ s, (yielded s events ++ (hub.waiting 0 s ++ hub.queued s)).Sublist
    (published s (plainEvents events))
  /-- Handles have the routes they were created for. -/
  routed : ∀ (h : HandleId) (route : Route), hub.routing[h]? = some route →
    ⟨.create route, .handle h⟩ ∈ plainEvents events
  /-- What was yielded, and what is kept to be, is told with the route of its subscription. -/
  titled : ∀ item ∈ events.flatMap StreamEvent.yielded ++ hub.ready 0,
    hub.subRoute? item.sub = some item.route

theorem gathering_empty : Gathering [] { merges := [{}] } where
  faithful := faithful_empty [{}]
  stream := by
    refine ⟨{}, rfl, List.nodup_nil, by simp, by simp, ?_, by simp⟩
    exact fun s => .inl rfl
  accounted s := by
    have : Hub.queued { merges := [{}] } s = [] := rfl
    simp [published, received, plainEvents, yielded, Hub.waiting, Hub.ready, this]
  ordered s := by
    have : Hub.queued { merges := [{}] } s = [] := rfl
    simp [published, plainEvents, yielded, Hub.waiting, Hub.ready, this]
  routed h route found := by simp [Hub.routing] at found
  titled := List.forall_mem_nil _

/-- **What the stream does moves values along:** out of the inboxes, to what is kept, to what is
yielded. -/
theorem Gathering.stream_step (gathering : Gathering events hub) {e : StreamEvent}
    (other : e.plain? = none) (same : hub'.standing = hub.standing)
    (stream : ∃ merge, hub'.merges[0]? = some merge ∧ hub'.Tended 0 merge.queue merge.members)
    (titled : ∀ item ∈ e.yielded ++ hub'.ready 0,
      item ∈ hub.ready 0 ∨ hub.subRoute? item.sub = some item.route)
    (flow : ∀ s, hub.waiting 0 s ++ hub.queued s =
      valuesOf s e.yielded ++ (hub'.waiting 0 s ++ hub'.queued s)) :
    Gathering (events ++ [e]) hub' := by
  have plain : plainEvents (events ++ [e]) = plainEvents events := by
    rw [plainEvents_append, other, Option.toList_none, List.append_nil]
  have held (s : SubId) : yielded s (events ++ [e]) ++ (hub'.waiting 0 s ++ hub'.queued s) =
      yielded s events ++ (hub.waiting 0 s ++ hub.queued s) := by
    rw [yielded_append, flow s, List.append_assoc]
  constructor
  case faithful =>
    obtain ⟨merge, -, tended⟩ := stream
    rw [plain]
    exact gathering.faithful.of_standing same tended.tight
  case stream => exact stream
  case accounted =>
    intro s
    rw [held, plain]
    exact gathering.accounted s
  case ordered =>
    intro s
    rw [held, plain]
    exact gathering.ordered s
  case routed =>
    rw [Hub.routing_of_standing same, plain]
    exact gathering.routed
  case titled =>
    intro item member
    rw [Hub.subRoute?_of_standing same]
    rw [List.flatMap_append, List.flatMap_singleton, List.append_assoc, List.mem_append] at member
    rcases member with earlier | now
    · exact gathering.titled item (List.mem_append_left _ earlier)
    rcases titled item now with kept | told
    · exact gathering.titled item (List.mem_append_right _ kept)
    · exact told

/-- What is taken from the middle is read, and what is added was published. -/
theorem perm_of_moved {α : Type} (kept taken rest read added : List α) :
    (kept ++ (taken ++ rest) ++ read ++ added).Perm (kept ++ (rest ++ added) ++ (read ++ taken)) := by
  have ends : (taken ++ (rest ++ (read ++ added))).Perm (rest ++ (added ++ (read ++ taken))) := by
    refine List.perm_append_comm.trans ?_
    rw [List.append_assoc]
    refine List.Perm.append_left rest ?_
    rw [← List.append_assoc added]
    exact List.perm_append_comm.append_right taken
  simpa using ends.append_left kept

/-- What the stream waits for is a member. -/
theorem Gathering.idle (gathering : Gathering events hub) {s : SubId} (out : s ∉ hub.members 0) :
    hub.Idle s := by
  obtain ⟨merge, stream, tended⟩ := gathering.stream
  rw [Hub.members_of_found stream] at out
  intro sub found
  have unread := (tended.waits s).resolve_right fun held => out held.2
  rwa [Hub.readers_of_found found] at unread

/-- Members are not read directly, so the stream does not wait for what is read. -/
theorem Gathering.idle_of_reads (gathering : Gathering events hub) {op : Operation}
    (detached : ∀ s ∈ hub.members 0, op.reads s = false) {s : SubId} (reads : op.reads s = true) :
    hub.Idle s :=
  gathering.idle fun member => by simp [detached s member] at reads

/-- **Operations on handles and subscriptions** put values into inboxes, and read those of
subscriptions that are not attached. -/
theorem Gathering.plain_step (gathering : Gathering events hub) {op : Operation}
    (permitted : hub.Permits op) (detached : ∀ s ∈ hub.members 0, op.reads s = false) :
    Gathering (events ++ [⟨.plain op, .plain (hub.perform op).1⟩]) (hub.perform op).2 := by
  have faithful := gathering.faithful
  obtain ⟨merge, stream, tended⟩ := gathering.stream
  have idle (s : SubId) := gathering.idle_of_reads detached (s := s)
  have plain := plainEvents_append_plain events op (hub.perform op).1
  have silent (s : SubId) :
      yielded s (events ++ [⟨.plain op, .plain (hub.perform op).1⟩]) = yielded s events := by
    rw [yielded_append]
    exact List.append_nil _
  have faithful' := faithful.step permitted idle
  obtain ⟨merge', stream', ready, tended'⟩ := Hub.Tended.woken stream tended
    (hub.woken_perform 0 idle) (Hub.length_le_perform faithful.sound idle) faithful'.tight
  have waiting (s : SubId) : (hub.perform op).2.waiting 0 s = hub.waiting 0 s := by
    rw [Hub.waiting, Hub.waiting, Hub.ready_of_found stream, Hub.ready_of_found stream', ready]
  constructor
  case faithful =>
    rw [plain]
    exact faithful'
  case stream => exact ⟨merge', stream', tended'⟩
  case accounted =>
    intro s
    obtain ⟨taken, rest, added, before, after, received, published⟩ :=
      faithful.moved permitted idle s
    have accounted := gathering.accounted s
    rw [before] at accounted
    rw [plain, silent, waiting, received, published, after]
    refine (accounted.append_right added).trans ?_
    rw [← List.append_assoc (yielded s events), ← List.append_assoc (yielded s events)]
    exact perm_of_moved _ taken rest _ added
  case ordered =>
    intro s
    obtain ⟨taken, rest, added, before, after, received, published⟩ :=
      faithful.moved permitted idle s
    have ordered := gathering.ordered s
    rw [before] at ordered
    have fewer : (yielded s events ++ (hub.waiting 0 s ++ rest)).Sublist
        (yielded s events ++ (hub.waiting 0 s ++ (taken ++ rest))) :=
      ((List.sublist_append_right taken rest).append_left _).append_left _
    rw [plain, silent, waiting, published, after]
    simpa using (fewer.trans ordered).append_right added
  case routed =>
    intro h route found
    rw [plain]
    rcases Hub.routing_perform_new found with earlier | ⟨rfl, answer⟩
    · exact List.mem_append_left _ (gathering.routed h route earlier)
    · rw [answer]
      exact List.mem_append_right _ List.mem_cons_self
  case titled =>
    -- Nothing is yielded, the stream keeps what it kept, and subscriptions keep their routes.
    intro item member
    rw [List.flatMap_append, Hub.ready_of_found stream', ready, ← Hub.ready_of_found stream] at member
    have before : item ∈ events.flatMap StreamEvent.yielded ++ hub.ready 0 := by
      simpa [StreamEvent.yielded] using member
    exact Hub.subRoute?_perform faithful.sound (idle item.sub) (gathering.titled item before)

/-- **A run leaves everything published in one place.** -/
theorem Gathering.run {start : Hub} (run : StreamRun start events hub) (initial : Gathering [] start) :
    Gathering events hub := by
  induction run with
  | stay => exact initial
  | @step events hub op _ permitted ih =>
    obtain ⟨merge, stream, tended⟩ := ih.stream
    -- What comes out of an inbox is told with the route of a member, which is a subscription.
    have known (item : Yield) (titled : hub.Titled merge.members item) :=
      titled.subRoute? ih.faithful.sound tended.known
    cases op with
    | plain op => exact ih.plain_step permitted.1 permitted.2
    | attach s =>
      obtain ⟨merge', stream', tended', ready, flow⟩ := Hub.attach_tended stream tended permitted
      exact ih.stream_step rfl (hub.standing_attach 0 s) ⟨merge', stream', tended'⟩
        (fun item member => .inl (ready ▸ member)) flow
    | poll order =>
      obtain ⟨merge', stream', tended', titled, flow⟩ := Hub.pollIn_tended stream tended permitted
      exact ih.stream_step rfl (hub.standing_pollIn 0 order) ⟨merge', stream', tended'⟩
        (fun item member => (titled item member).imp id (known item)) flow
    | detach s order =>
      obtain ⟨merge', stream', -, tended', titled, flow⟩ :=
        Hub.detachIn_tended stream tended permitted.2
      exact ih.stream_step rfl (hub.standing_detachIn 0 s order) ⟨merge', stream', tended'⟩
        (fun item member => (titled item member).imp id (known item)) flow

/-! ## After a run -/

/-- **What holds of a merged stream** after the events. -/
structure Merged (events : List StreamEvent) (hub : Hub) : Prop where
  /-- A subscription was created in the events, and is active unless one of them ended it. -/
  created : ∀ (s : SubId) (sub : Subscription), hub.subscriptions[s]? = some sub →
    sub.Recorded s (plainEvents events)
  /-- Each of the values published to it was yielded by the stream, is kept by the stream to be
  yielded, is in its inbox, or was read directly; and in one place only. -/
  accounted : ∀ s, (published s (plainEvents events)).Perm
    (yielded s events ++ hub.waiting 0 s ++ hub.queued s ++ received s (plainEvents events))
  /-- The stream yields in the order of publication. -/
  ordered : ∀ s, (yielded s events).Sublist (published s (plainEvents events))
  /-- What it yields comes with the route of the subscription it was read from: that of the handle
  that the subscription was asked of. -/
  routed : ∀ e ∈ events, ∀ item ∈ e.yielded,
    hub.subRoute? item.sub = some item.route ∧
      ∃ h, ⟨.create item.route, .handle h⟩ ∈ plainEvents events ∧
        ⟨.subscribe h, .subscription item.sub⟩ ∈ plainEvents events
  /-- After a subscription was given up the stream does not read it, nor mean to. -/
  released : ∀ s order, hub.PermitsStream 0 (.detach s order) →
    let hub' := (hub.performStream 0 (.detach s order)).2
    s ∉ hub'.members 0 ∧ s ∉ hub'.queue 0 ∧ hub'.readers s = []

/-- **A merged stream loses nothing and yields nothing twice,** in whatever order it looks at its
members and whatever else is done. -/
theorem run_merged (run : StreamRun { merges := [{}] } events hub) : Merged events hub := by
  have gathering := gathering_empty.run run
  have faithful := gathering.faithful
  obtain ⟨merge, stream, tended⟩ := gathering.stream
  constructor
  case created => exact faithful.recorded
  case accounted =>
    intro s
    rw [List.append_assoc (yielded s events)]
    exact gathering.accounted s
  case ordered =>
    intro s
    exact (List.sublist_append_left _ _).trans (gathering.ordered s)
  case routed =>
    intro e member item given
    have told := gathering.titled item
      (List.mem_append_left _ (List.mem_flatMap.2 ⟨e, member, given⟩))
    -- A subscription has the route of its handle, and that the one it was created for.
    obtain ⟨h, own, home⟩ := Option.bind_eq_some_iff.1 told
    obtain ⟨sub, found, rfl⟩ := Option.map_eq_some_iff.1 own
    rw [Hub.route?_eq] at home
    obtain ⟨before, later, history, -, -⟩ := faithful.recorded item.sub sub found
    refine ⟨told, sub.handle, gathering.routed sub.handle item.route home, ?_⟩
    rw [history]
    exact List.mem_append_right _ List.mem_cons_self
  case released =>
    intro s order permitted
    obtain ⟨merge', stream', gone, tended', -, -⟩ :=
      Hub.detachIn_tended stream tended permitted.2
    show s ∉ (hub.detachIn 0 s order).2.members 0 ∧ s ∉ (hub.detachIn 0 s order).2.queue 0 ∧
      (hub.detachIn 0 s order).2.readers s = []
    rw [Hub.members_of_found stream', Hub.queue_of_found stream']
    refine ⟨gone, fun listed => gone (tended'.queue_seated s listed), ?_⟩
    exact (tended'.waits s).resolve_right fun held => gone held.2

/-- While the first of two members is given up the second yields; the first is then read directly,
and by the stream when it is a member again. -/
theorem merged_of_two_members :
    let ops : List StreamOperation := [.plain (.create .everything), .plain (.subscribe 0),
      .plain (.subscribe 0), .attach 0, .attach 1, .poll [1, 0], .plain (.publish 0 [.int 1]),
      .detach 0 [1, 0], .plain (.next 0), .attach 0, .plain (.publish 0 [.int 2]), .poll [1, 0],
      .poll [0, 1], .plain (.unsubscribeAll 0), .poll [1, 0], .poll [0, 1]]
    let run := replayStream { merges := [{}] } ops
    Merged run.1 run.2 ∧ yielded 0 run.1 = [[.int 2]] ∧
      yielded 1 run.1 = [[.int 1], [.int 2]] ∧ received 0 (plainEvents run.1) = [[.int 1]] :=
  ⟨run_merged (run_replayStream _ _ (by decide)), rfl, rfl, rfl⟩

end SoundControl
