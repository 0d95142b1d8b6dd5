import SoundControl.Proofs.Hub.Reading

/-!
# Waking merged streams

Whatever enters an inbox puts the subscription into the queue of the merged stream that waits for
it.  Operations on handles and subscriptions do nothing else to merged streams.

* **`Hub.Woken`** — some subscriptions that a stream waits for were put into its queue.
* **`Hub.woken_perform`** — every operation does that at most.
* **`Hub.Tended.woken`** — the members are looked after as before.
-/

namespace SoundControl

namespace Hub

variable {hub hub' hub'' : Hub} {m : MergeId} {merge : Merge}

/-- **Some subscriptions that a stream waits for were put into its queue;** nothing else happened to
the stream, and the same streams wait for every subscription. -/
def Woken (m : MergeId) (hub hub' : Hub) : Prop :=
  (∀ s, hub'.readers s = hub.readers s) ∧
    ∃ ids : List SubId, hub'.merges[m]? =
      hub.merges[m]?.map (fun merge => ids.foldl (fun merge s => merge.enqueue s) merge) ∧
      ∀ s ∈ ids, m ∈ hub.readers s

theorem Woken.of_same (readers : ∀ s, hub'.readers s = hub.readers s)
    (merges : hub'.merges = hub.merges) : Woken m hub hub' :=
  ⟨readers, [], by simp [merges], by simp⟩

theorem Woken.trans (head : Woken m hub hub') (last : Woken m hub' hub'') :
    Woken m hub hub'' := by
  obtain ⟨readers, ids, merges, waiting⟩ := head
  obtain ⟨readers', ids', merges', waiting'⟩ := last
  refine ⟨fun s => (readers' s).trans (readers s), ids ++ ids', ?_, ?_⟩
  · rw [merges', merges, Option.map_map]
    simp [Function.comp_def]
  · intro s member
    rcases List.mem_append.1 member with earlier | later
    · exact waiting s earlier
    · rw [← readers]
      exact waiting' s later

theorem Woken.refl (m : MergeId) (hub : Hub) : Woken m hub hub :=
  .of_same (fun _ => rfl) rfl

/-- Waking a stream changes neither its members nor what it has kept. -/
theorem Woken.members_ready (woken : Woken m hub hub') :
    hub'.members m = hub.members m ∧ hub'.ready m = hub.ready m := by
  obtain ⟨-, ids, merges, -⟩ := woken
  have same (merge : Merge) : (ids.foldl (fun merge s => merge.enqueue s) merge).members =
      merge.members ∧ (ids.foldl (fun merge s => merge.enqueue s) merge).ready = merge.ready := by
    clear merges
    induction ids generalizing merge with
    | nil => exact ⟨rfl, rfl⟩
    | cons s ids ih =>
      rw [List.foldl_cons, (ih _).1, (ih _).2, members_enqueue, ready_enqueue]
      exact ⟨rfl, rfl⟩
  unfold members ready
  rw [merges]
  cases hub.merges[m]? with
  | none => exact ⟨rfl, rfl⟩
  | some merge => exact same merge

theorem woken_modifySub (hub : Hub) (m : MergeId) (s : SubId) {f : Subscription → Subscription}
    (keeps : ∀ sub, (f sub).readers = sub.readers) : Woken m hub (hub.modifySub s f) := by
  refine .of_same (fun t => ?_) rfl
  rw [readers_modifySub]
  cases found : hub.subscriptions[t]? with
  | none => simp [readers, found]
  | some sub => by_cases here : s = t <;> simp [readers, found, keeps, here]

theorem woken_modifyHandle (hub : Hub) (m : MergeId) (h : HandleId) (f : Handle → Handle) :
    Woken m hub (hub.modifyHandle h f) :=
  .of_same (fun _ => rfl) rfl

theorem woken_wake (hub : Hub) (m : MergeId) (s : SubId) : Woken m hub (hub.wake s) := by
  have readers (t : SubId) : (hub.wake s).readers t = hub.readers t := by
    rw [Hub.readers, subscriptions_wake]
    rfl
  unfold wake at readers ⊢
  split at readers
  next m' holds =>
    -- The stream that holds the subscription is woken, which may be another one.
    by_cases own : m' = m
    · subst own
      refine ⟨readers, [s], ?_, ?_⟩
      · simp [modifyMerge]
      · simp only [List.mem_singleton, forall_eq]
        obtain ⟨sub, found, head⟩ := Option.bind_eq_some_iff.1 holds
        rw [readers_of_found found]
        exact List.mem_of_head? head
    · refine ⟨readers, [], ?_, by simp⟩
      simp [modifyMerge, own]
  next => exact .refl m hub

theorem woken_push (hub : Hub) (m : MergeId) (s : SubId) (delivery : Delivery) :
    Woken m hub (hub.push s delivery) := by
  have delivered := hub.woken_modifySub m s
    (f := fun sub => { sub with inbox := sub.inbox ++ [delivery] }) fun _ => rfl
  exact delivered.trans (woken_wake _ m s)

theorem woken_terminate (hub : Hub) (m : MergeId) (s : SubId) :
    Woken m hub (hub.terminate s).2 := by
  unfold terminate
  split
  · have ended := hub.woken_modifySub m s (f := fun sub => { sub with active := false }) fun _ => rfl
    exact ended.trans (woken_push _ m s _)
  · exact .refl m hub

theorem woken_deliver (hub : Hub) (m : MergeId) (s : SubId) (values : List Value) :
    Woken m hub (hub.deliver s values).2 := by
  unfold deliver
  split
  · exact woken_push hub m s _
  · exact .refl m hub

theorem woken_deliverEach (hub : Hub) (m : MergeId) (ids : List SubId) (values : List Value) :
    Woken m hub (hub.deliverEach ids values).2 := by
  induction ids generalizing hub with
  | nil => exact .refl m hub
  | cons s ids ih =>
    rw [deliverEach_cons]
    exact (woken_deliver hub m s values).trans (ih _)

theorem woken_terminateEach (hub : Hub) (m : MergeId) (ids : List SubId) :
    Woken m hub (hub.terminateEach ids) := by
  induction ids generalizing hub with
  | nil => exact .refl m hub
  | cons s ids ih => exact (woken_terminate hub m s).trans (ih _)

theorem woken_withdraw (hub : Hub) (m : MergeId) (h : HandleId) (s : SubId) :
    Woken m hub (hub.withdraw h s).2 := by
  unfold withdraw
  split
  · exact (hub.woken_modifyHandle m h _).trans (woken_terminate _ m s)
  · exact .refl m hub

/-- **Operations on handles and subscriptions only wake a merged stream.** -/
theorem woken_perform (hub : Hub) (m : MergeId) {op : Operation}
    (idle : ∀ s, op.reads s = true → hub.Idle s) : Woken m hub (hub.perform op).2 := by
  cases op with
  | create route => exact .of_same (fun _ => rfl) rfl
  | subscribe h =>
    refine .of_same (fun s => ?_) rfl
    show (hub.subscribe h).2.readers s = hub.readers s
    unfold readers
    rw [getElem?_subscribe]
    by_cases new : s = hub.subscriptions.length
    · simp [new]
    · rw [if_neg new]
  | publish h values => exact woken_deliverEach hub m _ values
  | deliver s values => exact woken_deliver hub m s values
  | unsubscribe s =>
    show Woken m hub (hub.unsubscribe s).2
    unfold unsubscribe
    split
    · exact woken_withdraw hub m _ s
    · exact .refl m hub
  | withdraw h s => exact woken_withdraw hub m h s
  | unsubscribeAll h => exact (hub.woken_modifyHandle m h _).trans (woken_terminateEach _ m _)
  | next s =>
    show Woken m hub (hub.next s).2
    rw [next_of_idle (idle s (by simp [Operation.reads]))]
    cases found : hub.subscriptions[s]? with
    | none =>
      have : hub.take s = (.ended, hub) := by simp [take, found]
      rw [this]
      exact .refl m hub
    | some sub =>
      rw [take_of_found found]
      exact hub.woken_modifySub m s (by simp)

/-- Seats may be put into the queue. -/
theorem Tended.enqueueEach {seats : List SubId} (ids : List SubId) {merge : Merge}
    (tended : hub.Tended m merge.queue seats) (seated : ∀ s ∈ ids, s ∈ seats) :
    hub.Tended m (ids.foldl (fun merge s => merge.enqueue s) merge).queue seats ∧
      (ids.foldl (fun merge s => merge.enqueue s) merge).members = merge.members ∧
      (ids.foldl (fun merge s => merge.enqueue s) merge).ready = merge.ready := by
  induction ids generalizing merge with
  | nil => exact ⟨tended, rfl, rfl⟩
  | cons s ids ih =>
    obtain ⟨tended', members, ready⟩ := ih (tended.enqueue (seated s List.mem_cons_self))
      fun t member => seated t (List.mem_cons_of_mem s member)
    exact ⟨tended', members.trans (members_enqueue merge s), ready.trans (ready_enqueue merge s)⟩

/-- **The members of a woken stream are looked after as before.** -/
theorem Tended.woken (found : hub.merges[m]? = some merge)
    (tended : hub.Tended m merge.queue merge.members) (woken : Woken m hub hub')
    (grown : hub.subscriptions.length ≤ hub'.subscriptions.length)
    (tight : ∀ (s : SubId) (sub : Subscription), hub'.subscriptions[s]? = some sub → sub.Tight) :
    ∃ merge', hub'.merges[m]? = some merge' ∧ merge'.ready = merge.ready ∧
      hub'.Tended m merge'.queue merge'.members := by
  obtain ⟨readers, ids, merges, waiting⟩ := woken
  -- What wakes the stream is something that it waits for, and so a member.
  have seated : ∀ s ∈ ids, s ∈ merge.members := by
    intro s member
    rcases tended.waits s with unread | ⟨-, seated⟩
    · have := waiting s member
      simp [unread] at this
    · exact seated
  obtain ⟨tended', members, ready⟩ := tended.enqueueEach ids seated
  refine ⟨_, by rw [merges, found]; rfl, ready, ?_⟩
  rw [members]
  constructor
  case queue_nodup => exact tended'.queue_nodup
  case queue_seated => exact tended'.queue_seated
  case known => exact fun s member => Nat.lt_of_lt_of_le (tended.known s member) grown
  case waits =>
    intro s
    rw [readers]
    exact tended.waits s
  case tight => exact tight

end Hub

end SoundControl
