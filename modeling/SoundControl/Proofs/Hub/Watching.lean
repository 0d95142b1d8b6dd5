import SoundControl.Proofs.Hub.MergedStream

/-!
# No wake-up is lost

A merged stream looks at the members in its queue and at no others.  This is enough, because it
waits for the others: it holds the subscription, whose inbox is empty and which has not ended, so that
whatever comes puts the member back into the queue.

* **`Hub.Waits`**, **`Hub.Watched`** — every member is to be looked at, or is waited for.
* **`Hub.Told`**, **`Hub.told_perform`** — no operation on handles and subscriptions goes unnoticed.
* **`Hub.upcoming`**, **`Hub.Tended.look`** — what a look finds, and what it leaves.
* **`Hub.Polled`**, **`Hub.pollQueue_watched`** — looking until a member yields.
* **`Hub.reap_watched`**, **`Hub.detachIn_watched`** — giving up a member.
-/

namespace SoundControl

namespace Hub

variable {hub hub' hub'' : Hub} {m : MergeId} {merge : Merge} {s : SubId}

/-! ## Waiting -/

/-- **A stream waits for a subscription:** it holds it, nothing is there to read, and more may
come. -/
structure Waits (hub : Hub) (m : MergeId) (s : SubId) : Prop where
  /-- Whatever comes wakes the stream. -/
  holds : hub.readers s = [m]
  /-- There are no values. -/
  unread : hub.queued s = []
  /-- There is no end. -/
  active : hub.isActive s = true

/-- **Every member is to be looked at, or is waited for.** -/
structure Watched (hub : Hub) (m : MergeId) (queue members : List SubId) : Prop where
  /-- A member is listed once. -/
  nodup : members.Nodup
  /-- Those that are not in the queue are waited for. -/
  waits : ∀ s ∈ members, s ∉ queue → hub.Waits m s

theorem Waits.congr (waits : hub.Waits m s)
    (same : hub'.subscriptions[s]? = hub.subscriptions[s]?) : hub'.Waits m s where
  holds := by
    rw [readers, same]
    exact waits.holds
  unread := by
    rw [queued, same]
    exact waits.unread
  active := by
    rw [isActive, same]
    exact waits.active

/-- Whether a member is to be looked at does not depend on the order of the queue, and other
members may leave. -/
theorem Watched.mono {queue queue' members members' : List SubId}
    (watched : hub.Watched m queue members) (nodup : members'.Nodup)
    (fewer : ∀ t ∈ members', t ∈ members) (more : ∀ t ∈ members', t ∈ queue → t ∈ queue')
    (same : ∀ t ∈ members', t ∉ queue' → hub'.subscriptions[t]? = hub.subscriptions[t]?) :
    hub'.Watched m queue' members' where
  nodup := nodup
  waits t member out := by
    have waits := watched.waits t (fewer t member) fun listed => out (more t member listed)
    exact waits.congr (same t member out)

/-! ## Operations on handles and subscriptions -/

/-- **What a stream holds stays as it is or is put into its queue,** and the stream is woken at
most. -/
structure Told (m : MergeId) (hub hub' : Hub) : Prop where
  /-- The stream is woken at most. -/
  woken : Woken m hub hub'
  /-- Nothing happens to what it holds behind its back. -/
  told : hub.merges[m]?.isSome → ∀ s, hub.readers s = [m] →
    hub'.subscriptions[s]? = hub.subscriptions[s]? ∨ s ∈ hub'.queue m

theorem mem_queue_enqueueEach (ids : List SubId) {merge : Merge} (listed : s ∈ merge.queue) :
    s ∈ (ids.foldl (fun merge t => merge.enqueue t) merge).queue := by
  induction ids generalizing merge with
  | nil => exact listed
  | cons t ids ih => exact ih ((mem_enqueue merge t s).2 (.inl listed))

/-- A stream that is woken goes on looking at what it was to look at. -/
theorem Woken.mem_queue (woken : Woken m hub hub') (listed : s ∈ hub.queue m) :
    s ∈ hub'.queue m := by
  obtain ⟨-, ids, merges, -⟩ := woken
  unfold queue at listed ⊢
  rw [merges]
  cases found : hub.merges[m]? with
  | none => simp [found] at listed
  | some merge =>
    rw [found] at listed
    exact mem_queue_enqueueEach ids listed

theorem Woken.isSome (woken : Woken m hub hub') (known : hub.merges[m]?.isSome) :
    hub'.merges[m]?.isSome := by
  obtain ⟨-, ids, merges, -⟩ := woken
  rwa [merges, Option.isSome_map]

theorem Told.trans (head : Told m hub hub') (last : Told m hub' hub'') : Told m hub hub'' where
  woken := head.woken.trans last.woken
  told known s holds := by
    obtain same | listed := head.told known s holds
    · have holds' : hub'.readers s = [m] := by rw [head.woken.1, holds]
      rw [← same]
      exact last.told (head.woken.isSome known) s holds'
    · exact .inr (last.woken.mem_queue listed)

theorem Told.of_same (woken : Woken m hub hub')
    (same : ∀ s, hub.readers s = [m] → hub'.subscriptions[s]? = hub.subscriptions[s]?) :
    Told m hub hub' where
  woken := woken
  told _ s holds := .inl (same s holds)

theorem told_refl (m : MergeId) (hub : Hub) : Told m hub hub :=
  .of_same (.refl m hub) fun _ _ => rfl

/-- A subscription that is woken is put into the queue of the stream that holds it. -/
theorem mem_queue_wake (found : hub.merges[m]? = some merge) (holds : hub.readers s = [m]) :
    s ∈ (hub.wake s).queue m := by
  have head : hub.subscriptions[s]?.bind (·.readers.head?) = some m := by
    unfold readers at holds
    cases found : hub.subscriptions[s]? with
    | none => simp [found] at holds
    | some sub =>
      rw [found] at holds
      simp [show sub.readers = [m] from holds]
  rw [wake, head, queue_of_found (merges_modifyMerge found _), mem_enqueue]
  exact .inr rfl

/-- **A subscription that changes and is woken** does not change unnoticed. -/
theorem told_wake (hub : Hub) (m : MergeId) (s : SubId) {f : Subscription → Subscription}
    (keeps : ∀ sub, (f sub).readers = sub.readers) : Told m hub ((hub.modifySub s f).wake s) where
  woken := (hub.woken_modifySub m s keeps).trans (woken_wake _ m s)
  told known t holds := by
    obtain ⟨merge, found⟩ := Option.isSome_iff_exists.1 known
    by_cases here : s = t
    · subst here
      have holds' : (hub.modifySub s f).readers s = [m] := by
        rw [(hub.woken_modifySub m s keeps).1, holds]
      exact .inr (mem_queue_wake found holds')
    · left
      rw [subscriptions_wake, getElem?_modifySub, if_neg here]

theorem told_push (hub : Hub) (m : MergeId) (s : SubId) (delivery : Delivery) :
    Told m hub (hub.push s delivery) := by
  rw [push]
  exact hub.told_wake m s fun _ => rfl

theorem told_terminate (hub : Hub) (m : MergeId) (s : SubId) : Told m hub (hub.terminate s).2 := by
  unfold terminate
  split
  · -- The end is marked and put into the inbox before anyone is woken.
    rw [push, modifySub_modifySub]
    exact hub.told_wake m s fun _ => rfl
  · exact told_refl m hub

theorem told_deliver (hub : Hub) (m : MergeId) (s : SubId) (values : List Value) :
    Told m hub (hub.deliver s values).2 := by
  unfold deliver
  split
  · exact told_push hub m s _
  · exact told_refl m hub

theorem told_deliverEach (hub : Hub) (m : MergeId) (ids : List SubId) (values : List Value) :
    Told m hub (hub.deliverEach ids values).2 := by
  induction ids generalizing hub with
  | nil => exact told_refl m hub
  | cons s ids ih =>
    rw [deliverEach_cons]
    exact (told_deliver hub m s values).trans (ih _)

theorem told_terminateEach (hub : Hub) (m : MergeId) (ids : List SubId) :
    Told m hub (hub.terminateEach ids) := by
  induction ids generalizing hub with
  | nil => exact told_refl m hub
  | cons s ids ih => exact (told_terminate hub m s).trans (ih _)

theorem told_modifyHandle (hub : Hub) (m : MergeId) (h : HandleId) (f : Handle → Handle) :
    Told m hub (hub.modifyHandle h f) :=
  .of_same (hub.woken_modifyHandle m h f) fun _ _ => rfl

theorem told_withdraw (hub : Hub) (m : MergeId) (h : HandleId) (s : SubId) :
    Told m hub (hub.withdraw h s).2 := by
  unfold withdraw
  split
  · exact (hub.told_modifyHandle m h _).trans (told_terminate _ m s)
  · exact told_refl m hub

/-- **No operation on handles and subscriptions goes unnoticed** by a stream that holds what it
changes. -/
theorem told_perform (hub : Hub) (m : MergeId) {op : Operation}
    (idle : ∀ s, op.reads s = true → hub.Idle s) : Told m hub (hub.perform op).2 := by
  have woken := hub.woken_perform m idle
  cases op with
  | create route => exact .of_same woken fun _ _ => rfl
  | subscribe h =>
    refine .of_same woken fun s holds => ?_
    show (hub.subscribe h).2.subscriptions[s]? = hub.subscriptions[s]?
    rw [getElem?_subscribe, if_neg]
    -- Nobody holds what is not there yet.
    rintro rfl
    simp [readers] at holds
  | publish h values => exact told_deliverEach hub m _ values
  | deliver s values => exact told_deliver hub m s values
  | unsubscribe s =>
    show Told m hub (hub.unsubscribe s).2
    unfold unsubscribe
    split
    · exact told_withdraw hub m _ s
    · exact told_refl m hub
  | withdraw h s => exact told_withdraw hub m h s
  | unsubscribeAll h => exact (hub.told_modifyHandle m h _).trans (told_terminateEach _ m _)
  | next s =>
    have free := idle s (by simp [Operation.reads])
    refine .of_same woken fun t holds => ?_
    show (hub.next s).2.subscriptions[t]? = hub.subscriptions[t]?
    rw [next_of_idle free]
    cases found : hub.subscriptions[s]? with
    | none => simp [take, found]
    | some sub =>
      have other : s ≠ t := by
        rintro rfl
        simp [readers_of_found found, free sub found] at holds
      rw [take_of_found found, getElem?_modifySub, if_neg other]

/-- **The members of a stream that is told are watched as before.** -/
theorem Watched.told (found : hub.merges[m]? = some merge)
    (watched : hub.Watched m merge.queue merge.members) (told : Told m hub hub') :
    hub'.Watched m (hub'.queue m) (hub'.members m) := by
  have members : hub'.members m = merge.members := by
    rw [told.woken.members_ready.1, members_of_found found]
  have listed (t : SubId) (queued : t ∈ merge.queue) : t ∈ hub'.queue m :=
    told.woken.mem_queue (by rwa [queue_of_found found])
  rw [members]
  refine ⟨watched.nodup, fun t member out => ?_⟩
  have waits := watched.waits t member fun queued => out (listed t queued)
  have same := (told.told (by simp [found]) t waits.holds).resolve_right out
  exact waits.congr same

/-! ## One look -/

/-- **What there is to read of a subscription:** its next values, its end, or nothing yet. -/
def upcoming (hub : Hub) (s : SubId) : Poll (List Value) :=
  match hub.queued s with
  | values :: _ => .item values
  | [] => if hub.isActive s then .pending else .ended

theorem upcoming_of_found {sub : Subscription} (found : hub.subscriptions[s]? = some sub)
    (tight : sub.Tight) : hub.upcoming s = sub.head := by
  have head := tight.read.1
  rw [upcoming, queued_of_found found, isActive_of_found found]
  cases queued : sub.queued with
  | nil =>
    rw [queued] at head
    exact head.symm
  | cons values rest =>
    rw [queued] at head
    exact head.symm

theorem upcoming_eq_item_iff {values : List Value} :
    hub.upcoming s = .item values ↔ ∃ rest, hub.queued s = values :: rest := by
  unfold upcoming
  cases hub.queued s with
  | nil => cases hub.isActive s <;> simp
  | cons first rest => simp

theorem upcoming_eq_pending_iff :
    hub.upcoming s = .pending ↔ hub.queued s = [] ∧ hub.isActive s = true := by
  unfold upcoming
  cases hub.queued s with
  | nil => cases hub.isActive s <;> simp
  | cons first rest => simp

/-- A look begins nothing and ends nothing. -/
theorem isActive_look (hub : Hub) (m : MergeId) (s t : SubId) :
    (hub.modifySub s (Subscription.look m)).isActive t = hub.isActive t := by
  rw [isActive, isActive, getElem?_modifySub]
  split
  next => cases hub.subscriptions[t]? <;> simp [Subscription.look]
  next => rfl

/-- **A look at a subscription that has nothing yet** leaves it waited for. -/
theorem waits_look {sub : Subscription} (found : hub.subscriptions[s]? = some sub)
    (tight : sub.Tight) (nothing : hub.upcoming s = .pending) :
    (hub.modifySub s (Subscription.look m)).Waits m s := by
  have own : (hub.modifySub s (Subscription.look m)).subscriptions[s]? = some (sub.look m) := by
    rw [getElem?_modifySub, if_pos rfl, found, Option.map_some]
  obtain ⟨unread, active⟩ := upcoming_eq_pending_iff.1 nothing
  rw [upcoming_of_found found tight] at nothing
  constructor
  case holds => simp [readers_of_found own, Subscription.look, nothing, Poll.isPending]
  case unread =>
    have rest := tight.queued_look m
    rw [← queued_of_found found, unread] at rest
    rw [queued_of_found own]
    exact (List.append_eq_nil_iff.1 rest.symm).2
  case active => rw [isActive_look, active]

theorem moveLast_perm (merge : Merge) (s : SubId) : (merge.moveLast s).members.Perm merge.members := by
  have opposite : (fun t : SubId => !(t != s)) = (· == s) := by
    funext t
    rw [bne, Bool.not_not]
  have halves := List.filter_append_perm (· != s) merge.members
  rwa [opposite] at halves

/-- **What a look finds and leaves.** It comes upon what there was to read; a member that has
nothing yet is waited for, and one that has ended leaves.  Others are not touched, and nobody begins
or ends. -/
structure Seen (hub : Hub) (m : MergeId) (members : List SubId) (s : SubId)
    (outcome : Poll (List Value)) (hub' : Hub) : Prop where
  /-- What there was to read is what comes of the look. -/
  found : outcome = hub.upcoming s
  /-- A member that has nothing yet is waited for. -/
  waited : outcome = .pending → hub'.Waits m s
  /-- Other subscriptions are as before. -/
  others : ∀ t, t ≠ s → hub'.subscriptions[t]? = hub.subscriptions[t]?
  /-- Every subscription is as active as before. -/
  active : ∀ t, hub'.isActive t = hub.isActive t
  /-- All are members but one that has ended. -/
  stays : ∀ t, t ∈ hub'.members m ↔ t ∈ members ∧ (t = s → outcome ≠ .ended)
  /-- A member is listed once. -/
  nodup : members.Nodup → (hub'.members m).Nodup

/-- **The next look.** -/
theorem Tended.look {rest seats : List SubId} {outcome : Poll (List Value)}
    (stream : hub.merges[m]? = some merge) (tended : hub.Tended m (s :: rest) seats)
    (looked : hub.lookNext m s rest = (outcome, hub')) :
    hub.Seen m merge.members s outcome hub' := by
  obtain ⟨sub, found⟩ : ∃ sub, hub.subscriptions[s]? = some sub :=
    ⟨_, List.getElem?_eq_getElem (tended.known s (tended.queue_seated s List.mem_cons_self))⟩
  have tight := tended.tight s sub found
  let hub₁ := hub.modifyMerge m fun merge => { merge with queue := rest }
  have stream₁ : hub₁.merges[m]? = some { merge with queue := rest } := merges_modifyMerge stream _
  have read : hub₁.readMember m s = (sub.head, hub₁.modifySub s (Subscription.look m)) :=
    readMember_of_alone found (tended.alone found)
  let hub₂ := hub₁.modifySub s (Subscription.look m)
  have stream₂ : hub₂.merges[m]? = some { merge with queue := rest } := stream₁
  have others (t : SubId) (other : t ≠ s) : hub₂.subscriptions[t]? = hub.subscriptions[t]? := by
    rw [getElem?_modifySub, if_neg other.symm]
    rfl
  have active (t : SubId) : hub₂.isActive t = hub.isActive t := isActive_look hub₁ m s t
  have upcoming := upcoming_of_found found tight
  rw [Hub.lookNext, read] at looked
  cases head : sub.head with
  | item values =>
    rw [head] at looked
    cases looked
    refine ⟨by rw [upcoming, head], by simp, others, active, fun t => ?_, fun nodup => ?_⟩
    · rw [members_of_found stream₂]
      exact (and_iff_left fun _ => by simp).symm
    · rwa [members_of_found stream₂]
  | ended =>
    rw [head] at looked
    cases looked
    have parted := merges_modifyMerge stream₂ fun merge =>
      { merge with members := merge.members.filter (· != s) }
    refine ⟨by rw [upcoming, head], by simp, others, active, fun t => ?_, fun nodup => ?_⟩
    · rw [Hub.leave, members_of_found parted]
      simp
    · rw [Hub.leave, members_of_found parted]
      exact nodup.filter _
  | pending =>
    rw [head] at looked
    cases looked
    have moved := merges_modifyMerge stream₂ (Merge.moveLast s)
    have order := moveLast_perm { merge with queue := rest } s
    refine ⟨by rw [upcoming, head], fun _ => ?_, others, active, fun t => ?_, fun nodup => ?_⟩
    · have nothing : hub₁.upcoming s = .pending := upcoming.trans head
      have waits : hub₂.Waits m s := waits_look found tight nothing
      exact waits.congr rfl
    · rw [members_of_found moved, order.mem_iff]
      exact (and_iff_left fun _ => by simp).symm
    · rw [members_of_found moved]
      exact order.symm.nodup nodup

/-- After a look the other members are watched as before, and so is one that has nothing yet; one
that has yielded is to be looked at again. -/
theorem Watched.look {rest later : List SubId} {members : List SubId} {outcome : Poll (List Value)}
    (watched : hub.Watched m (s :: rest ++ later) members)
    (seen : hub.Seen m members s outcome hub') :
    (outcome.items = [] → hub'.Watched m (rest ++ later) (hub'.members m)) ∧
      hub'.Watched m (rest ++ (later ++ [s])) (hub'.members m) := by
  have nodup := seen.nodup watched.nodup
  have fewer (t : SubId) (member : t ∈ hub'.members m) : t ∈ members := ((seen.stays t).1 member).1
  have again : hub'.Watched m (rest ++ (later ++ [s])) (hub'.members m) := by
    refine watched.mono nodup fewer (fun t _ listed => ?_) fun t _ out => seen.others t ?_
    · simp only [List.cons_append, List.mem_cons, List.mem_append, List.not_mem_nil,
        or_false] at listed ⊢
      rcases listed with last | listed | listed
      · exact .inr (.inr last)
      · exact .inl listed
      · exact .inr (.inl listed)
    · rintro rfl
      simp at out
  refine ⟨fun nothing => ⟨nodup, fun t member out => ?_⟩, again⟩
  by_cases here : t = s
  · subst here
    -- It is a member still, so it has not ended.
    have stays := ((seen.stays t).1 member).2 rfl
    cases outcome with
    | item values => simp [Poll.items] at nothing
    | ended => contradiction
    | pending => exact seen.waited rfl
  · refine again.waits t member fun listed => out ?_
    simpa [here] using listed

/-- Members that have yielded are watched when they are back in the queue. -/
theorem requeueEach_watched (ids : List SubId) {hub : Hub} {merge : Merge}
    (stream : hub.merges[m]? = some merge)
    (watched : hub.Watched m (merge.queue ++ ids) merge.members) :
    let hub' := ids.foldl (fun hub t => hub.requeue m t) hub
    hub'.Watched m (hub'.queue m) (hub'.members m) := by
  induction ids generalizing hub merge with
  | nil =>
    rw [List.append_nil] at watched
    show hub.Watched m (hub.queue m) (hub.members m)
    rwa [queue_of_found stream, members_of_found stream]
  | cons s ids ih =>
    have order := moveLast_perm merge s
    refine ih (merges_modifyMerge stream _) ?_
    rw [members_enqueue]
    refine watched.mono (order.symm.nodup watched.nodup) (fun t => order.mem_iff.1) ?_
      fun t _ _ => rfl
    intro t _ listed
    rw [List.mem_append, mem_enqueue, or_assoc, ← List.mem_cons, ← List.mem_append]
    exact listed

/-! ## Looking until a member yields -/

/-- **What a poll of the queue comes to.** A member that has values yields its next ones.  If none
has any, those that have ended are no members any more, and it is the end if no member is left. -/
structure Polled (hub : Hub) (m : MergeId) (members : List SubId)
    (outcome : Poll Yield) (hub' : Hub) : Prop where
  /-- What is yielded is what a member had to read. -/
  item : ∀ item, outcome = .item item →
    item.sub ∈ members ∧ hub.upcoming item.sub = .item item.values
  /-- Otherwise no member had values. -/
  unread : outcome.items = [] → ∀ s ∈ members, hub.queued s = []
  /-- Those that have ended have left. -/
  active : outcome.items = [] →
    ∀ s, s ∈ hub'.members m ↔ s ∈ members ∧ hub.isActive s = true
  /-- It is the end if no member is left. -/
  answer : outcome.items = [] → outcome = if (hub'.members m).isEmpty then .ended else .pending

/-- Before a look at a member that has no values, a poll comes to the same. -/
theorem Polled.of_look {members : List SubId} {outcome : Poll (List Value)}
    {result : Poll Yield}
    (seen : hub.Seen m members s outcome hub') (nothing : outcome.items = [])
    (queued : ∀ t, hub'.queued t = hub.queued t)
    (polled : hub'.Polled m (hub'.members m) result hub'') : hub.Polled m members result hub'' where
  item item yielded := by
    obtain ⟨member, upcoming⟩ := polled.item item yielded
    refine ⟨((seen.stays item.sub).1 member).1, ?_⟩
    rwa [Hub.upcoming, queued, seen.active] at upcoming
  unread silent t member := by
    by_cases here : t = s
    · subst here
      have upcoming := seen.found
      unfold Hub.upcoming at upcoming
      split at upcoming
      next => simp [upcoming, Poll.items] at nothing
      next unread => exact unread
    · rw [← queued]
      exact polled.unread silent t ((seen.stays t).2 ⟨member, fun same => absurd same here⟩)
  active silent t := by
    rw [polled.active silent, seen.stays, seen.active, and_assoc]
    refine and_congr_right fun member => and_iff_right_of_imp fun active same => ?_
    -- A member that is active has not ended.
    subst same
    rw [seen.found, Hub.upcoming]
    cases hub.queued t <;> simp [active]
  answer := polled.answer

/-- **Looking until a member yields,** whatever the order of the looks. -/
theorem pollQueue_watched (order : List SubId) {hub : Hub} {merge : Merge}
    (stream : hub.merges[m]? = some merge) (all : order.Perm merge.queue)
    (tended : hub.Tended m order merge.members) (watched : hub.Watched m order merge.members) :
    hub.Polled m merge.members (hub.pollQueue m order).1 (hub.pollQueue m order).2 ∧
      (hub.pollQueue m order).2.Watched m ((hub.pollQueue m order).2.queue m)
        ((hub.pollQueue m order).2.members m) := by
  -- Every look but the last leaves a stream whose queue is the rest of the order.
  induction order generalizing hub merge with
  | nil =>
    have members := members_of_found stream
    rw [pollQueue, queue_of_found stream, ← all.nil_eq, members]
    refine ⟨⟨fun item yielded => ?_, fun _ s member => ?_, fun _ s => ?_, fun _ => ?_⟩, watched⟩
    · split at yielded <;> contradiction
    · exact (watched.waits s member List.not_mem_nil).unread
    · rw [members]
      exact (and_iff_left_of_imp fun member => (watched.waits s member List.not_mem_nil).active).symm
    · rw [members]
  | cons s rest ih =>
    cases looked : hub.lookNext m s rest with
    | mk outcome hub₁ =>
      obtain ⟨merge₁, stream₁, rfl, -, -, -, tended₁, queued⟩ :=
        Tended.lookNext [] stream tended List.not_mem_nil looked
      have seen := tended.look stream looked
      have later : hub.Watched m (s :: merge₁.queue ++ []) merge.members := by
        rwa [List.append_nil]
      obtain ⟨others, again⟩ := later.look seen
      rw [members_of_found stream₁] at others again
      rw [pollQueue_cons, looked]
      have member := tended.queue_seated s List.mem_cons_self
      cases outcome with
      | item values =>
        let item : Yield := ⟨s, hub₁.subRoute s, values⟩
        have yields : (Poll.item item).items ≠ [] := List.cons_ne_nil _ _
        refine ⟨⟨fun item' same => ?_, fun silent => absurd silent yields,
          fun silent => absurd silent yields, fun silent => absurd silent yields⟩,
          requeueEach_watched [s] stream₁ again⟩
        obtain rfl := Poll.item.inj same
        exact ⟨member, seen.found.symm⟩
      | ended | pending =>
        obtain ⟨polled, watched'⟩ := ih stream₁ (.refl _) tended₁ (by simpa using others rfl)
        rw [← members_of_found stream₁] at polled
        exact ⟨polled.of_look seen rfl fun t => (queued .everything t).symm, watched'⟩

/-! ## Giving up a member -/

/-- **Looking up to the member that is given up.** Members that have yielded are in no queue until it
is gone. -/
theorem reap_watched (s : SubId) (order yielded : List SubId) {hub : Hub} {merge : Merge}
    (stream : hub.merges[m]? = some merge) (listed : s ∈ order) (gone : s ∉ merge.members)
    (tended : hub.Tended m order (s :: merge.members))
    (watched : hub.Watched m (order ++ yielded) merge.members) :
    (hub.reap m s yielded order).Watched m ((hub.reap m s yielded order).queue m)
      ((hub.reap m s yielded order).members m) := by
  -- Nobody waits for what has yielded, so it counts as listed until it is back in the queue.
  induction order generalizing hub merge yielded with
  | nil => simp at listed
  | cons t rest ih =>
    by_cases target : t = s
    · subst target
      obtain ⟨sub, found⟩ : ∃ sub, hub.subscriptions[t]? = some sub :=
        ⟨_, List.getElem?_eq_getElem (tended.known t List.mem_cons_self)⟩
      let hub₁ := hub.modifyMerge m fun merge => { merge with queue := rest }
      have released : hub₁.releaseReader m t =
          hub₁.modifySub t fun sub => { sub with readers := [] } :=
        releaseReader_of_alone found (tended.alone found)
      have stream₁ : (hub₁.modifySub t fun sub => { sub with readers := [] }).merges[m]? =
          some { merge with queue := rest } := merges_modifyMerge stream _
      rw [reap_cons_self, released]
      refine requeueEach_watched yielded stream₁ ?_
      refine watched.mono watched.nodup (fun _ => id) (fun t' member listed => ?_) ?_
      · obtain rfl | listed := List.mem_cons.1 listed
        · exact absurd member gone
        · exact listed
      · intro t' member _
        have other : t ≠ t' := fun same => gone (same ▸ member)
        rw [getElem?_modifySub, if_neg other]
        rfl
    · have listed' : s ∈ rest := (List.mem_cons.1 listed).resolve_left (Ne.symm target)
      cases looked : hub.lookNext m t rest with
      | mk outcome hub₁ =>
        obtain ⟨merge₁, stream₁, rfl, -, fewer, -, tended₁, -⟩ :=
          Tended.lookNext [s] stream tended (by simpa using target) looked
        have seen := tended.look stream looked
        obtain ⟨others, again⟩ := watched.look seen
        rw [members_of_found stream₁] at others again
        have gone₁ : s ∉ merge₁.members := fun member => gone (fewer s member)
        rw [reap_cons_of_ne hub m target, looked]
        cases outcome with
        | item values =>
          have kept := merges_modifyMerge stream₁ fun merge =>
            { merge with ready := merge.ready ++ [⟨t, hub₁.subRoute t, values⟩] }
          exact ih (yielded ++ [t]) kept listed' gone₁ (tended₁.congr rfl)
            (again.mono again.nodup (fun _ => id) (fun _ _ => id) fun _ _ _ => rfl)
        | ended | pending => exact ih yielded stream₁ listed' gone₁ tended₁ (others rfl)

/-! ## What a stream does -/

/-- A new member is to be looked at. -/
theorem attach_watched (stream : hub.merges[m]? = some merge)
    (watched : hub.Watched m merge.queue merge.members) (s : SubId) :
    (hub.attach m s).2.Watched m ((hub.attach m s).2.queue m) ((hub.attach m s).2.members m) := by
  rw [Hub.attach, members_of_found stream]
  split
  next => rwa [queue_of_found stream, members_of_found stream]
  next fresh =>
    rw [List.contains_iff_mem] at fresh
    have stream' := merges_modifyMerge stream fun merge =>
      { merge with members := merge.members ++ [s], queue := merge.queue ++ [s] }
    rw [queue_of_found stream', members_of_found stream']
    refine ⟨List.nodup_append.2 ⟨watched.nodup, List.pairwise_singleton _ s, ?_⟩, fun t member out => ?_⟩
    · rintro t member s' last rfl
      obtain rfl := List.mem_singleton.1 last
      exact fresh member
    · rw [List.mem_append, not_or] at out
      have earlier := (List.mem_append.1 member).resolve_right out.2
      exact (watched.waits t earlier out.1).congr rfl

/-- Members are watched after a poll in any order. -/
theorem pollIn_watched (stream : hub.merges[m]? = some merge)
    (tended : hub.Tended m merge.queue merge.members)
    (watched : hub.Watched m merge.queue merge.members) {order : List SubId}
    (all : order.Perm (hub.queue m)) :
    (hub.ready m = [] → hub.Polled m merge.members (hub.pollIn m order).1 (hub.pollIn m order).2) ∧
      (hub.pollIn m order).2.Watched m ((hub.pollIn m order).2.queue m)
        ((hub.pollIn m order).2.members m) := by
  rw [queue_of_found stream] at all
  unfold pollIn
  split
  next item rest kept =>
    -- Nothing is looked at while something is kept.
    have stream' := merges_modifyMerge stream fun merge => { merge with ready := rest }
    refine ⟨fun nothing => ?_, ?_⟩
    · rw [kept] at nothing
      contradiction
    · rw [queue_of_found stream', members_of_found stream']
      exact watched.mono watched.nodup (fun _ => id) (fun _ _ => id) fun _ _ _ => rfl
  next nothing =>
    have watched' : hub.Watched m order merge.members :=
      watched.mono watched.nodup (fun _ => id) (fun _ _ => all.mem_iff.2) fun _ _ _ => rfl
    obtain ⟨polled, after⟩ := pollQueue_watched order stream all (tended.reorder all) watched'
    exact ⟨fun _ => polled, after⟩

/-- Members are watched after one of them was given up. -/
theorem detachIn_watched (stream : hub.merges[m]? = some merge)
    (tended : hub.Tended m merge.queue merge.members)
    (watched : hub.Watched m merge.queue merge.members) {s : SubId} {order : List SubId}
    (all : order.Perm (hub.detachQueue m s)) :
    (hub.detachIn m s order).2.Watched m ((hub.detachIn m s order).2.queue m)
      ((hub.detachIn m s order).2.members m) := by
  rw [detachIn, members_of_found stream]
  split
  next member =>
    rw [List.contains_iff_mem] at member
    obtain ⟨stream₁, listed, gone, tended₁⟩ := Tended.leave stream tended member all
    refine reap_watched s order [] stream₁ ((listed s).2 (.inr rfl)) gone tended₁ ?_
    rw [members_enqueue, List.append_nil]
    refine watched.mono (watched.nodup.filter _) (fun t member => (List.mem_filter.1 member).1) ?_
      fun _ _ _ => rfl
    exact fun t _ queued => (listed t).2 (.inl queued)
  next => rwa [queue_of_found stream, members_of_found stream]

end Hub

end SoundControl
