import SoundControl.Proofs.Hub.MergedStream

/-!
# After a member was given up

Giving up a member means looking at those before it, and what they yield is kept to be yielded
later, even if they are given up themselves in the meantime.  So a stream yields of a subscription
that it gave up exactly what it had kept of it; everything else is left in the inbox and read there.

* **`Hub.Looked`** — inboxes of some subscriptions were read from the front, and nothing was taken up.
* **`Hub.looked_pollIn`**, **`Hub.looked_detachIn`** — the stream does nothing else to inboxes.
* **`Left`**, **`Left.run`** — what the stream does without a subscription.
* **`Detached`**, **`run_detached`** — what becomes of a subscription that was given up.
* **`kept_values_yielded_after_detach`** — values may be yielded after it was given up.
-/

namespace SoundControl

/-- What a reading leaves of the values in an inbox is an end of them. -/
theorem Subscription.queued_advance_suffix (sub : Subscription) :
    sub.advance.queued <:+ sub.queued := by
  unfold Subscription.advance
  split
  · exact List.suffix_rfl
  · unfold Subscription.queued
    split
    next => exact List.suffix_rfl
    next values rest inbox => rw [inbox]; exact List.suffix_cons values _
    next rest inbox => rw [inbox]; exact List.suffix_rfl

namespace Hub

variable {hub hub' hub'' : Hub} {m : MergeId}

/-! ## Looking does no more than reading -/

/-- **Some inboxes were read from the front,** those of the listed subscriptions at most, and the
stream took up no member. -/
structure Looked (m : MergeId) (ids : List SubId) (hub hub' : Hub) : Prop where
  /-- Inboxes are read from the front. -/
  drained : ∀ t, hub'.queued t <:+ hub.queued t
  /-- Other inboxes are as before. -/
  others : ∀ t, t ∉ ids → hub'.queued t = hub.queued t
  /-- There are no new members. -/
  members : ∀ t ∈ hub'.members m, t ∈ hub.members m

theorem Looked.of_same (queued : ∀ t, hub'.queued t = hub.queued t)
    (members : ∀ t ∈ hub'.members m, t ∈ hub.members m) : Looked m [] hub hub' where
  drained t := queued t ▸ List.suffix_rfl
  others t _ := queued t
  members := members

theorem Looked.refl (m : MergeId) (hub : Hub) : Looked m [] hub hub :=
  .of_same (fun _ => rfl) fun _ => id

theorem Looked.mono {ids ids' : List SubId} (looked : Looked m ids hub hub')
    (more : ∀ t ∈ ids, t ∈ ids') : Looked m ids' hub hub' where
  drained := looked.drained
  others t other := looked.others t fun listed => other (more t listed)
  members := looked.members

theorem Looked.trans {ids later : List SubId} (head : Looked m ids hub hub')
    (last : Looked m later hub' hub'') : Looked m (ids ++ later) hub hub'' where
  drained t := (last.drained t).trans (head.drained t)
  others t other := by
    rw [List.mem_append, not_or] at other
    exact (last.others t other.2).trans (head.others t other.1)
  members t member := head.members t (last.members t member)

/-- Changing a stream without taking up a member. -/
theorem looked_modifyMerge (hub : Hub) (m m' : MergeId) {f : Merge → Merge}
    (fewer : ∀ merge, ∀ t ∈ (f merge).members, t ∈ merge.members) :
    Looked m [] hub (hub.modifyMerge m' f) := by
  refine .of_same (fun _ => rfl) fun t member => ?_
  unfold Hub.members modifyMerge at member
  unfold Hub.members
  rw [List.getElem?_modify] at member
  cases found : hub.merges[m]? with
  | none => simp [found] at member
  | some merge =>
    by_cases here : m' = m
    · simp only [found, here, if_true] at member
      exact fewer merge t member
    · simpa [found, here] using member

/-- Changing a subscription whose inbox is at most read. -/
theorem looked_modifySub (hub : Hub) (m : MergeId) (s : SubId) {f : Subscription → Subscription}
    (drained : ∀ sub, (f sub).queued <:+ sub.queued) : Looked m [s] hub (hub.modifySub s f) where
  drained t := by
    rw [queued_modifySub]
    cases found : hub.subscriptions[t]? with
    | none => exact List.nil_suffix
    | some sub =>
      rw [queued_of_found found]
      by_cases here : s = t
      · simpa [here] using drained sub
      · simp [here]
  others t other := by
    rw [queued_modifySub]
    have : s ≠ t := fun same => other (by simp [same])
    cases found : hub.subscriptions[t]? with
    | none => simp [queued, found]
    | some sub => simp [queued_of_found found, this]
  members _ := id

/-- Changing who waits for a subscription. -/
theorem looked_readers (hub : Hub) (m : MergeId) (s : SubId) {f : Subscription → Subscription}
    (same : ∀ sub, (f sub).queued = sub.queued) : Looked m [] hub (hub.modifySub s f) := by
  refine .of_same (fun t => ?_) fun _ => id
  rw [queued_modifySub]
  cases found : hub.subscriptions[t]? with
  | none => simp [queued, found]
  | some sub => simp [queued_of_found found, same]

theorem looked_wake (hub : Hub) (m : MergeId) (s : SubId) : Looked m [] hub (hub.wake s) := by
  unfold wake
  split
  · refine hub.looked_modifyMerge m _ fun merge t member => ?_
    rwa [members_enqueue] at member
  · exact .refl m hub

theorem looked_take (hub : Hub) (m : MergeId) (s : SubId) : Looked m [s] hub (hub.take s).2 := by
  cases found : hub.subscriptions[s]? with
  | none =>
    have : hub.take s = (.ended, hub) := by simp [take, found]
    rw [this]
    exact (Looked.refl m hub).mono (by simp)
  | some sub =>
    rw [take_of_found found]
    exact hub.looked_modifySub m s Subscription.queued_advance_suffix

theorem looked_joinReaders (hub : Hub) (m m' : MergeId) (s : SubId) :
    Looked m [] hub (hub.joinReaders m' s) :=
  hub.looked_readers m s fun sub => by split <;> rfl

theorem looked_releaseReader (hub : Hub) (m m' : MergeId) (s : SubId) :
    Looked m [] hub (hub.releaseReader m' s) := by
  unfold releaseReader
  split
  next => exact .refl m hub
  next sub _ =>
    have released := hub.looked_readers m s
      (f := fun sub => { sub with readers := sub.readers.filter (· != m') }) fun _ => rfl
    dsimp only
    split
    · exact released.trans (looked_wake _ m s)
    · exact released

theorem looked_readMember (hub : Hub) (m : MergeId) (s : SubId) :
    Looked m [s] hub (hub.readMember m s).2 := by
  unfold readMember
  split
  next => exact (hub.looked_joinReaders m m s).mono (by simp)
  next =>
    have taken := hub.looked_take m s
    split
    next hub' took => rw [took] at taken; exact taken.trans (looked_joinReaders _ m m s)
    next values hub' took => rw [took] at taken; exact taken.trans (looked_releaseReader _ m m s)
    next hub' took => rw [took] at taken; exact taken.trans (looked_releaseReader _ m m s)

theorem looked_moveLast (hub : Hub) (m : MergeId) (s : SubId) :
    Looked m [] hub (hub.modifyMerge m (Merge.moveLast s)) :=
  hub.looked_modifyMerge m m fun merge t => (mem_moveLast merge s t).1

theorem looked_leave (hub : Hub) (m : MergeId) (s : SubId) : Looked m [] hub (hub.leave m s) :=
  hub.looked_modifyMerge m m fun _ _ member => (List.mem_filter.1 member).1

theorem looked_requeueEach (hub : Hub) (m : MergeId) (ids : List SubId) :
    Looked m [] hub (ids.foldl (fun hub t => hub.requeue m t) hub) := by
  induction ids generalizing hub with
  | nil => exact .refl m hub
  | cons s ids ih =>
    have requeued : Looked m [] hub (hub.requeue m s) := by
      refine hub.looked_modifyMerge m m fun merge t member => ?_
      rwa [members_enqueue, mem_moveLast] at member
    exact requeued.trans (ih _)

theorem looked_lookNext (hub : Hub) (m : MergeId) (s : SubId) (rest : List SubId) :
    Looked m [s] hub (hub.lookNext m s rest).2 := by
  have advanced := hub.looked_modifyMerge m m (f := fun merge => { merge with queue := rest })
    fun _ _ => id
  have read := advanced.trans (looked_readMember _ m s)
  unfold lookNext
  split
  next hub' looked => rw [looked] at read; exact read.trans (looked_moveLast _ m s)
  next hub' looked => rw [looked] at read; exact read.trans (looked_leave _ m s)
  next values hub' looked => rw [looked] at read; exact read

theorem looked_pollQueue (hub : Hub) (m : MergeId) (order : List SubId) :
    Looked m order hub (hub.pollQueue m order).2 := by
  induction order generalizing hub with
  | nil => exact .refl m hub
  | cons s rest ih =>
    have one := hub.looked_lookNext m s rest
    rw [pollQueue_cons]
    split
    next values hub' looked =>
      rw [looked] at one
      exact (one.trans (looked_requeueEach _ m [s])).mono (by simp)
    next hub' _ looked =>
      rw [looked] at one
      exact one.trans (ih _)

/-- The member that is given up is not read. -/
theorem looked_reap (hub : Hub) (m : MergeId) (s : SubId) (yielded order : List SubId) :
    Looked m (order.filter (· != s)) hub (hub.reap m s yielded order) := by
  induction order generalizing hub yielded with
  | nil => exact hub.looked_requeueEach m yielded
  | cons t rest ih =>
    by_cases target : t = s
    · subst target
      have advanced := hub.looked_modifyMerge m m (f := fun merge => { merge with queue := rest })
        fun _ _ => id
      rw [reap_cons_self]
      exact ((advanced.trans (looked_releaseReader _ m m t)).trans
        (looked_requeueEach _ m yielded)).mono (by simp)
    · have one := hub.looked_lookNext m t rest
      rw [reap_cons_of_ne hub m target, List.filter_cons_of_pos (by simpa using target)]
      split
      next values hub' looked =>
        rw [looked] at one
        have kept := hub'.looked_modifyMerge m m
          (f := fun merge => { merge with ready := merge.ready ++ [⟨t, hub'.subRoute t, values⟩] })
          fun _ _ => id
        exact one.trans (kept.trans (ih _ _))
      next hub' _ looked =>
        rw [looked] at one
        exact one.trans (ih _ _)

/-- **A poll reads only members that it looks at.** -/
theorem looked_pollIn (hub : Hub) (m : MergeId) (order : List SubId) :
    Looked m order hub (hub.pollIn m order).2 := by
  unfold pollIn
  split
  next item rest _ =>
    have shorter := hub.looked_modifyMerge m m (f := fun merge => { merge with ready := rest })
      fun _ _ => id
    exact shorter.mono (by simp)
  next => exact hub.looked_pollQueue m order

/-- **Giving up a member reads only others.** -/
theorem looked_detachIn (hub : Hub) (m : MergeId) (s : SubId) (order : List SubId) :
    Looked m (order.filter (· != s)) hub (hub.detachIn m s order).2 := by
  unfold detachIn
  split
  · have parted := hub.looked_leave m s
    have queued := (hub.leave m s).looked_modifyMerge m m (f := Merge.enqueue s)
      fun merge t member => by rwa [members_enqueue] at member
    exact parted.trans (queued.trans (looked_reap _ m s [] order))
  · exact (Looked.refl m hub).mono (by simp)

/-! ## A subscription that is no member -/

/-- Taking up a member leaves inboxes and what is kept as they are. -/
theorem attach_same (hub : Hub) (m : MergeId) (s t : SubId) :
    (hub.attach m s).2.queued t = hub.queued t ∧ (hub.attach m s).2.ready m = hub.ready m := by
  unfold attach
  split
  · exact ⟨rfl, rfl⟩
  · refine ⟨rfl, ?_⟩
    cases found : hub.merges[m]? with
    | none => simp [ready, modifyMerge, found]
    | some merge => rw [ready_of_found (merges_modifyMerge found _), ready_of_found found]

/-- Only the one that is taken up becomes a member. -/
theorem mem_members_attach {hub : Hub} {m : MergeId} {s t : SubId}
    (member : t ∈ (hub.attach m s).2.members m) : t ∈ hub.members m ∨ t = s := by
  unfold attach at member
  split at member
  · exact .inl member
  · cases found : hub.merges[m]? with
    | none => simp [members, modifyMerge, found] at member
    | some merge =>
      rw [members_of_found (merges_modifyMerge found _)] at member
      rw [members_of_found found]
      simpa using member

end Hub

/-! ## Inboxes along a run -/

variable {before later : List StreamEvent} {start hub hub' : Hub} {s : SubId}

/-- **An inbox holds the end of what was published.** -/
theorem queued_suffix_published (run : StreamRun { merges := [{}] } before hub) (s : SubId) :
    hub.queued s <:+ published s (plainEvents before) := by
  induction run with
  | stay => exact List.nil_suffix
  | @step events hub op run permitted ih =>
    have gathering := gathering_empty.run run
    -- What the stream does publishes nothing and reads inboxes from the front.
    have drained {e : StreamEvent} {hub' : Hub} (other : e.plain? = none)
        (suffix : hub'.queued s <:+ hub.queued s) :
        hub'.queued s <:+ published s (plainEvents (events ++ [e])) := by
      rw [plainEvents_append, other, Option.toList_none, List.append_nil]
      exact suffix.trans ih
    cases op with
    | plain op =>
      have idle (t : SubId) := gathering.idle_of_reads permitted.2 (s := t)
      obtain ⟨taken, rest, added, before, after, -, published⟩ :=
        gathering.faithful.moved permitted.1 idle s
      rw [before] at ih
      obtain ⟨front, all⟩ := (List.suffix_append taken rest).trans ih
      refine ⟨front, ?_⟩
      show front ++ (hub.perform op).2.queued s =
        SoundControl.published s (plainEvents (events ++ [⟨.plain op, .plain (hub.perform op).1⟩]))
      rw [plainEvents_append_plain, published, after, ← all, List.append_assoc]
    | attach t => exact drained rfl ((hub.attach_same 0 t s).1 ▸ List.suffix_rfl)
    | poll order => exact drained rfl ((hub.looked_pollIn 0 order).drained s)
    | detach t order => exact drained rfl ((hub.looked_detachIn 0 t order).drained s)

/-! ## A subscription that is not taken up -/

/-- Whether an operation takes up a subscription. -/
def StreamOperation.takesUp (s : SubId) : StreamOperation → Bool
  | .attach t => t == s
  | _ => false

/-- **What happened since to a subscription that is no member:** the stream yielded of what it had
kept, and nothing but direct reading took anything out of the inbox. -/
structure Left (s : SubId) (before later : List StreamEvent) (start hub : Hub) : Prop where
  /-- It is no member. -/
  out : s ∉ hub.members 0
  /-- What the stream yielded and what it still keeps is what it had kept. -/
  yields : yielded s later ++ hub.waiting 0 s = start.waiting 0 s
  /-- What was read and what is still in the inbox is what was there and what was published. -/
  reads : ∃ added, published s (plainEvents (before ++ later)) =
      published s (plainEvents before) ++ added ∧
    received s (plainEvents later) ++ hub.queued s = start.queued s ++ added

theorem left_stay (out : s ∉ start.members 0) : Left s before [] start start where
  out := out
  yields := rfl
  reads := ⟨[], by simp, by simp [plainEvents, received]⟩

/-- The stream leaves the inbox alone and yields of what it keeps. -/
theorem Left.stream_step (since : Left s before later start hub) {e : StreamEvent}
    (other : e.plain? = none) (out : s ∉ hub'.members 0) (queued : hub'.queued s = hub.queued s)
    (flow : hub.waiting 0 s = valuesOf s e.yielded ++ hub'.waiting 0 s) :
    Left s before (later ++ [e]) start hub' where
  out := out
  yields := by rw [yielded_append, List.append_assoc, ← flow, since.yields]
  reads := by
    rw [← List.append_assoc, plainEvents_append, plainEvents_append, other, Option.toList_none,
      List.append_nil, List.append_nil, queued]
    exact since.reads

/-- Publishing adds to the inbox, and reading takes its first values. -/
theorem Left.plain_step (since : Left s before later start hub)
    (gathering : Gathering (before ++ later) hub) {op : Operation}
    (permitted : hub.Permits op) (detached : ∀ s ∈ hub.members 0, op.reads s = false) :
    Left s before (later ++ [⟨.plain op, .plain (hub.perform op).1⟩]) start (hub.perform op).2 := by
  have idle (t : SubId) := gathering.idle_of_reads detached (s := t)
  obtain ⟨members, ready⟩ := (hub.woken_perform 0 idle).members_ready
  have waiting : (hub.perform op).2.waiting 0 s = hub.waiting 0 s := by
    rw [Hub.waiting, Hub.waiting, ready]
  constructor
  case out => rw [members]; exact since.out
  case yields =>
    rw [yielded_append, waiting]
    show yielded s later ++ [] ++ hub.waiting 0 s = _
    rw [List.append_nil, since.yields]
  case reads =>
    obtain ⟨added, publishes, reads⟩ := since.reads
    obtain ⟨taken, rest, more, inbox, after, received_all, published_all⟩ :=
      gathering.faithful.moved permitted idle s
    -- The same values are taken, whichever history they are added to.
    have received_later : received s (plainEvents later ++ [⟨op, (hub.perform op).1⟩]) =
        received s (plainEvents later) ++ taken := by
      rw [received_append] at received_all ⊢
      rw [List.append_cancel_left received_all]
    rw [← List.append_assoc before, plainEvents_append_plain, plainEvents_append_plain]
    refine ⟨added ++ more, ?_, ?_⟩
    · rw [published_all, publishes, List.append_assoc]
    · rw [received_later, after, ← List.append_assoc (start.queued s), ← reads, inbox]
      simp only [List.append_assoc]

/-- **A run that does not take up a subscription** takes nothing out of its inbox except by direct
reading. -/
theorem Left.run (reached : StreamRun { merges := [{}] } before start) (out : s ∉ start.members 0)
    (run : StreamRun start later hub) (never : ∀ e ∈ later, e.operation.takesUp s = false) :
    Left s before later start hub := by
  induction run with
  | stay => exact left_stay out
  | @step later hub op run permitted ih =>
    have gathering := gathering_empty.run (reached.trans run)
    obtain ⟨merge, stream, tended⟩ := gathering.stream
    have since := ih fun e member => never e (List.mem_append_left _ member)
    have unqueued : s ∉ merge.queue := by
      intro listed
      apply since.out
      rw [Hub.members_of_found stream]
      exact tended.queue_seated s listed
    cases op with
    | plain op => exact since.plain_step gathering permitted.1 permitted.2
    | attach t =>
      have other : t ≠ s := by
        simpa [StreamOperation.takesUp] using never _ (List.mem_append_right _ List.mem_cons_self)
      obtain ⟨queued, ready⟩ := hub.attach_same 0 t s
      refine since.stream_step rfl ?_ queued ?_
      · intro member
        exact (Hub.mem_members_attach member).elim since.out (Ne.symm other)
      · show hub.waiting 0 s = [] ++ (hub.attach 0 t).2.waiting 0 s
        rw [List.nil_append, Hub.waiting, Hub.waiting, ready]
    | poll order =>
      have looked := hub.looked_pollIn 0 order
      obtain ⟨-, -, -, -, flow⟩ := Hub.pollIn_tended stream tended permitted
      have all : order.Perm (hub.queue 0) := permitted
      have queued := looked.others s fun listed => unqueued
        (by rw [← Hub.queue_of_found stream]; exact all.subset listed)
      refine since.stream_step rfl (fun member => since.out (looked.members s member)) queued ?_
      have balance := flow s
      rw [queued, ← List.append_assoc] at balance
      exact List.append_cancel_right balance
    | detach t order =>
      have looked := hub.looked_detachIn 0 t order
      obtain ⟨-, -, -, -, -, flow⟩ := Hub.detachIn_tended stream tended permitted.2
      have queued := looked.others s fun listed => by
        obtain ⟨listed, other⟩ := List.mem_filter.1 listed
        have queued := (Hub.mem_detachQueue stream t s).1 (permitted.2.subset listed)
        exact queued.elim unqueued (by simpa using other)
      refine since.stream_step rfl (fun member => since.out (looked.members s member)) queued ?_
      have balance := flow s
      rw [queued] at balance
      exact List.append_cancel_right balance

/-! ## After it was given up -/

/-- **What becomes of a subscription that was given up:** what was done before, the giving up itself
included, and what was done since, when the stream had `kept` some of its values. -/
structure Detached (s : SubId) (before later : List StreamEvent) (kept : List (List Value))
    (hub : Hub) : Prop where
  /-- The stream yields what it had kept, in order, and nothing else of the subscription. -/
  yields : yielded s later ++ hub.waiting 0 s = kept
  /-- Whatever else was published to the subscription, and was not yielded or read before, is read
  directly or still in the inbox, in the order of publication and without a gap. -/
  rest : ∃ taken, published s (plainEvents (before ++ later)) =
      taken ++ (received s (plainEvents later) ++ hub.queued s) ∧
    taken.Perm (yielded s before ++ kept ++ received s (plainEvents before))
  /-- Reading gives the first of the values in the inbox; without any it waits for more, or gives
  the end. -/
  read : ∀ (sub : Subscription), hub.subscriptions[s]? = some sub →
    (hub.next s).1 = match sub.queued with
      | values :: _ => .item values
      | [] => if sub.active then .pending else .ended

/-- **A member that is given up is out of the stream until it is taken up again,** but for the values
that the stream had read while it gave up other members. -/
theorem run_detached (run : StreamRun { merges := [{}] } before start) {order : List SubId}
    (permitted : start.PermitsStream 0 (.detach s order)) (member : s ∈ start.members 0) :
    (start.performStream 0 (.detach s order)).1 = .done true ∧
      ∀ later hub, StreamRun (start.performStream 0 (.detach s order)).2 later hub →
        (∀ e ∈ later, e.operation.takesUp s = false) →
        Detached s (before ++ [⟨.detach s order, .done true⟩]) later (start.waiting 0 s) hub := by
  have answer : (start.performStream 0 (.detach s order)).1 = .done true := by
    show StreamAnswer.done (start.detachIn 0 s order).1 = _
    rw [Hub.detachIn, if_pos (List.contains_iff_mem.2 member)]
  have reached := run.step permitted
  rw [answer] at reached
  refine ⟨answer, fun later hub more never => ?_⟩
  obtain ⟨merge, stream, tended⟩ := (gathering_empty.run run).stream
  obtain ⟨merge', stream', gone, -, -, flow⟩ := Hub.detachIn_tended stream tended permitted.2
  -- The subscription itself is not read while it is given up.
  have inbox : (start.detachIn 0 s order).2.queued s = start.queued s :=
    (start.looked_detachIn 0 s order).others s (by simp)
  have kept : (start.detachIn 0 s order).2.waiting 0 s = start.waiting 0 s := by
    have balance := flow s
    rw [inbox] at balance
    exact (List.append_cancel_right balance).symm
  have since := Left.run reached (by rwa [← Hub.members_of_found stream'] at gone) more never
  have gathering := gathering_empty.run (reached.trans more)
  constructor
  case yields => exact since.yields.trans kept
  case rest =>
    obtain ⟨added, publishes, reads⟩ := since.reads
    obtain ⟨taken, front⟩ := queued_suffix_published reached s
    have accounted := (gathering_empty.run reached).accounted s
    refine ⟨taken, by rw [publishes, reads, ← front, List.append_assoc], ?_⟩
    -- What was taken out of the inbox is everything that was published except what is still in it.
    change (start.detachIn 0 s order).2.waiting 0 s = _ at kept
    rw [← front] at accounted
    refine (List.perm_append_right_iff _).1 (accounted.trans ?_)
    rw [← kept, ← List.append_assoc (yielded s _), List.append_assoc, List.append_assoc _ _
      (Hub.queued _ s)]
    exact List.perm_append_comm.append_left _
  case read =>
    intro sub found
    exact gathering.faithful.next_fst (gathering.idle since.out) found

/-- One member has yielded while another one was given up, and is then given up itself: what it had
yielded comes from the stream, the rest is read directly. -/
theorem detached_with_kept_values :
    let run := replayStream { merges := [{}] } [.plain (.create .everything), .plain (.subscribe 0),
      .plain (.subscribe 0), .attach 0, .attach 1, .plain (.deliver 0 [.int 1]), .detach 1 [0, 1],
      .plain (.deliver 0 [.int 2])]
    let gone := run.2.performStream 0 (.detach 0 [0])
    let rest := replayStream gone.2 [.plain (.deliver 0 [.int 3]), .poll [], .plain (.next 0)]
    Detached 0 (run.1 ++ [⟨.detach 0 [0], .done true⟩]) rest.1 [[.int 1]] rest.2 ∧
      yielded 0 rest.1 = [[.int 1]] ∧ received 0 (plainEvents rest.1) = [[.int 2]] ∧
      rest.2.queued 0 = [[.int 3]] := by
  intro run gone rest
  have reached : StreamRun { merges := [{}] } run.1 run.2 := run_replayStream _ _ (by decide)
  have since : StreamRun gone.2 rest.1 rest.2 := run_replayStream _ _ (by decide)
  exact ⟨(@run_detached _ _ 0 reached [0] (by decide) (by decide)).2 _ _ since (by decide),
    rfl, rfl, rfl⟩

/-- **What a stream has kept of a member it yields after it gave the member up,** and the inbox of the
member lacks it. -/
theorem kept_values_yielded_after_detach :
    let run := replayStream { merges := [{}] } [.plain (.create .everything), .plain (.subscribe 0),
      .plain (.subscribe 0), .attach 0, .attach 1, .plain (.deliver 0 [.int 1]), .detach 1 [0, 1]]
    let gone := run.2.performStream 0 (.detach 0 [0])
    StreamRun { merges := [{}] } run.1 run.2 ∧ run.2.PermitsStream 0 (.detach 0 [0]) ∧
      yielded 0 run.1 = [] ∧ gone.1 = .done true ∧ gone.2.PermitsStream 0 (.poll []) ∧
      (gone.2.performStream 0 (.poll [])).1 = .poll (.item ⟨0, .everything, [.int 1]⟩) ∧
      (gone.2.next 0).1 = .pending :=
  ⟨run_replayStream _ _ (by decide), by decide, rfl, rfl, by decide, rfl, rfl⟩

end SoundControl
