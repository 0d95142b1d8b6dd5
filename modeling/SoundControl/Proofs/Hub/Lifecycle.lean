import SoundControl.Proofs.Hub.History

/-!
# The life of a subscription

Whatever is done to handles and subscriptions, and in whatever order: a subscription gets all that
is published to it while it lasts, in order and once, and then its end.

* **`Lifecycle`** — what holds after a run without merged streams.
* **`run_lifecycle`** — it holds after every one.
* **`Conserving`** — the invariant: every hub on the way loses nothing.
-/

namespace SoundControl

variable {events : List Event} {hub hub' : Hub}

/-- **What holds of every subscription** after the events. -/
structure Lifecycle (events : List Event) (hub : Hub) : Prop where
  /-- A subscription is in the list of its handle if and only if it is active, and in no other; -/
  listed : ∀ h s, s ∈ hub.subscribers h ↔ hub.handle? s = some h ∧ hub.isActive s = true
  /-- it is there once. -/
  once : ∀ h, (hub.subscribers h).Nodup
  /-- It was created in the events, and is active unless one of them ended it. -/
  created : ∀ (s : SubId) (sub : Subscription), hub.subscriptions[s]? = some sub →
    sub.Recorded s events
  /-- What was read and then what is still queued is what was published to it. -/
  lossless : ∀ (s : SubId) (sub : Subscription), hub.subscriptions[s]? = some sub →
    received s events ++ sub.queued = published s events
  /-- The end marker stands behind all values, once, from the end until it is read. -/
  marked : ∀ (s : SubId) (sub : Subscription), hub.subscriptions[s]? = some sub →
    sub.inbox = sub.queued.map Delivery.values ++ if sub.active || sub.finished then [] else [.ended]
  /-- A further operation puts in the end marker if it makes the subscription inactive, values if
  it publishes to it while it is active, and nothing else. -/
  entered : ∀ op, hub.Permits op → ∀ (s : SubId) (sub : Subscription),
    hub.subscriptions[s]? = some sub → ∃ sub', (hub.perform op).2.subscriptions[s]? = some sub' ∧
      sub'.active = (sub.active && !op.ends sub.handle s) ∧
      sub'.inbox = (if op.reads s then sub.inbox.tail else sub.inbox) ++ op.entering s sub
  /-- Reading gives the first values that are queued; without any it waits for more, or gives the
  end. -/
  read : ∀ (s : SubId) (sub : Subscription), hub.subscriptions[s]? = some sub →
    (hub.next s).1 = match sub.queued with
      | values :: _ => .item values
      | [] => if sub.active then .pending else .ended
  /-- Reading gives the end if and only if the subscription is inactive and everything published
  to it was read, -/
  ended : ∀ (s : SubId) (sub : Subscription), hub.subscriptions[s]? = some sub →
    ((hub.next s).1 = .ended ↔ sub.active = false ∧ received s events = published s events)
  /-- and then ever after. -/
  forever : ∀ s < hub.subscriptions.length, (hub.next s).1 = .ended →
    ∀ later hub', Run hub later hub' → (hub'.next s).1 = .ended
  /-- Publishing reaches all active subscriptions of the handle. -/
  counted : ∀ h < hub.handles.length, ∀ values, (hub.publish h values).1 =
    ((List.range hub.subscriptions.length).filter fun s =>
      hub.handle? s == some h && hub.isActive s).length

/-! ## The invariant -/

/-- **Nothing was lost,** and no merged stream waits for anything. -/
structure Conserving (events : List Event) (hub : Hub) : Prop extends Faithful events hub where
  /-- No merged stream waits. -/
  idle : ∀ s, hub.Idle s
  /-- Nothing is lost. -/
  conserved : ∀ s, received s events ++ hub.queued s = published s events

theorem conserving_empty : Conserving [] {} where
  toFaithful := faithful_empty []
  idle s sub found := by simp at found
  conserved _ := rfl

theorem Conserving.step (conserving : Conserving events hub) {op : Operation}
    (permitted : hub.Permits op) :
    Conserving (events ++ [⟨op, (hub.perform op).1⟩]) (hub.perform op).2 := by
  have faithful := conserving.toFaithful
  have idle := conserving.idle
  refine ⟨faithful.step permitted fun s _ => idle s, ?_, ?_⟩
  · intro s sub' found'
    cases found : hub.subscriptions[s]? with
    | none =>
      obtain ⟨h, -, -, rfl⟩ := Hub.getElem?_perform_new found found'
      rfl
    | some sub =>
      rw [Hub.getElem?_perform faithful.sound (fun _ => idle s) found, Option.some.injEq] at found'
      rw [← found', Operation.readers_effect]
      exact idle s sub found
  · intro s
    obtain ⟨taken, rest, added, before, after, received, published⟩ :=
      faithful.moved permitted (fun s _ => idle s) s
    rw [after, received, published, ← conserving.conserved s, before]
    simp

/-- **A run loses nothing.** -/
theorem Conserving.run (conserving : Conserving events hub) {later : List Event}
    (run : Run hub later hub') : Conserving (events ++ later) hub' := by
  induction run with
  | stay => rwa [List.append_nil]
  | step _ permitted ih =>
    rw [← List.append_assoc]
    exact ih.step permitted

/-! ## After a run -/

/-- Once everything was read after the end, it stays so. -/
theorem Conserving.exhausted (conserving : Conserving events hub) {s : SubId} {sub : Subscription}
    (found : hub.subscriptions[s]? = some sub) (exhausted : sub.active = false ∧ sub.queued = [])
    {later : List Event} (run : Run hub later hub') :
    ∃ sub', hub'.subscriptions[s]? = some sub' ∧ sub'.active = false ∧ sub'.queued = [] := by
  induction run with
  | stay => exact ⟨sub, found, exhausted⟩
  | @step later hub' op run permitted ih =>
    obtain ⟨sub', found', inactive, empty⟩ := ih
    have reached := conserving.run run
    refine ⟨op.effect s sub', ?_, ?_, ?_⟩
    · exact Hub.getElem?_perform reached.sound (fun _ => reached.idle s) found'
    · rw [Operation.active_effect, inactive, Bool.false_and]
    · rw [Operation.queued_effect (reached.tight s sub' found'), inactive, empty]
      simp

/-- A handle lists as many subscriptions as are active on it. -/
theorem Hub.Sound.length_subscribers (sound : hub.Sound) (h : HandleId) :
    (hub.subscribers h).length =
      ((List.range hub.subscriptions.length).filter fun s =>
        hub.handle? s == some h && hub.isActive s).length := by
  apply List.Perm.length_eq
  rw [List.perm_ext_iff_of_nodup (sound.nodup h) (List.nodup_range.filter _)]
  intro s
  rw [sound.listed, List.mem_filter, List.mem_range, Bool.and_eq_true, beq_iff_eq]
  constructor
  · rintro ⟨own, active⟩
    refine ⟨?_, own, active⟩
    obtain ⟨sub, found, -⟩ := Option.map_eq_some_iff.1 own
    exact (List.getElem?_eq_some_iff.1 found).1
  · exact fun ⟨_, own, active⟩ => ⟨own, active⟩

/-- Publishing reaches every listed subscription. -/
theorem Faithful.publish_fst (faithful : Faithful events hub) (h : HandleId)
    (values : List Value) : (hub.publish h values).1 = (hub.subscribers h).length := by
  rw [Hub.publish, Hub.deliverEach_fst, List.countP_eq_length]
  intro s listed
  obtain ⟨own, active⟩ := (faithful.sound.listed h s).1 listed
  obtain ⟨sub, found, -⟩ := Option.map_eq_some_iff.1 own
  rw [Hub.takes_of_found found, (faithful.tight s sub found).takes, ← Hub.isActive_of_found found]
  exact active

/-- **A subscription gets all that is published to it while it lasts, in order and once, and then
its end,** whatever else is done. -/
theorem run_lifecycle (run : Run {} events hub) : Lifecycle events hub := by
  have conserving : Conserving events hub := conserving_empty.run run
  have faithful := conserving.toFaithful
  have exhausted (s : SubId) (sub : Subscription) (found : hub.subscriptions[s]? = some sub) :
      (hub.next s).1 = .ended ↔ sub.active = false ∧ sub.queued = [] :=
    faithful.next_ended (conserving.idle s) found
  constructor
  case listed => exact faithful.sound.listed
  case once => exact faithful.sound.nodup
  case created => exact faithful.recorded
  case lossless =>
    intro s sub found
    rw [← Hub.queued_of_found found]
    exact conserving.conserved s
  case marked => exact fun s sub found => (faithful.tight s sub found).inbox
  case entered =>
    intro op _ s sub found
    exact ⟨op.effect s sub, Hub.getElem?_perform faithful.sound (fun _ => conserving.idle s) found,
      op.active_effect s sub, Operation.inbox_effect (faithful.tight s sub found) op s⟩
  case read => exact fun s sub found => faithful.next_fst (conserving.idle s) found
  case ended =>
    intro s sub found
    rw [exhausted s sub found, ← conserving.conserved s, Hub.queued_of_found found,
      List.self_eq_append_right]
  case forever =>
    intro s known ended later hub' run'
    have found := List.getElem?_eq_getElem known
    obtain ⟨sub', found', after⟩ := conserving.exhausted found ((exhausted s _ found).1 ended) run'
    have conserving' := conserving.run run'
    exact (conserving'.toFaithful.next_ended (conserving'.idle s) found').2 after
  case counted =>
    intro h _ values
    rw [faithful.publish_fst, faithful.sound.length_subscribers]

/-- Two subscriptions: one is withdrawn through a foreign handle and then its own, with values still
queued; the other lasts until its handle ends all. -/
theorem lifecycle_of_two_subscriptions :
    let ops : List Operation := [.create .everything, .create .everything, .subscribe 0, .subscribe 0,
      .publish 0 [.int 1], .deliver 0 [.int 2], .withdraw 1 0, .next 0, .withdraw 0 0,
      .publish 0 [.int 3], .unsubscribe 0, .next 0, .next 0, .next 1, .unsubscribeAll 0, .next 1]
    let run := replay {} ops
    Lifecycle run.1 run.2 ∧ received 0 run.1 = [[.int 1], [.int 2]] ∧
      received 1 run.1 = [[.int 1], [.int 3]] :=
  ⟨run_lifecycle (run_replay _ _ (by decide)), rfl, rfl⟩

end SoundControl
