import SoundControl.Proofs.Hub.History
import SoundControl.Proofs.Table.Filing

/-!
# What holds of every subscription

A subscription is delivered to, ended, read, waited for and given up.  What holds of a new one, and is
kept by each of these, holds of all subscriptions, whatever is done to handles, merged streams and
served routes.

* **`Subscription.Lasting`** — properties of one subscription that everything done to it keeps.
* **`Hub.Each`** — all subscriptions have the property.
* **`Hub.Step.each`**, **`Table.Reachable.each`** — they have it in every state that is reached.
* **`Subscription.Marked`** — the end marker stands last, and only after the end.
-/

namespace SoundControl

/-! ## One subscription -/

namespace Subscription

/-- **A new subscription has the property, and what is done to one keeps it.** -/
structure Lasting (P : Subscription → Prop) : Prop where
  /-- A new subscription has it. -/
  new : ∀ h, P { handle := h }
  /-- A delivery keeps it. -/
  accept : ∀ values sub, P sub → P (sub.accept values)
  /-- The end keeps it. -/
  close : ∀ sub, P sub → P sub.close
  /-- Reading keeps it. -/
  advance : ∀ sub, P sub → P sub.advance
  /-- It does not matter who waits. -/
  readers : ∀ readers sub, P sub → P { sub with readers }
  /-- It does not matter whether someone can still read. -/
  held : ∀ held sub, P sub → P { sub with held }

/-- **The inbox holds values and behind them, once the subscription has ended and until it was
read, one end marker;** nobody need be able to read it. -/
structure Marked (sub : Subscription) : Prop where
  /-- Values, and the end marker if it is due. -/
  inbox : sub.inbox =
    sub.queued.map Delivery.values ++ if sub.active || sub.finished then [] else [.ended]
  /-- The end marker is read last. -/
  finished : sub.finished = true → sub.active = false ∧ sub.inbox = []

/-- It is as if someone could read it. -/
theorem tight_held_iff (sub : Subscription) : ({ sub with held := true }).Tight ↔ sub.Marked :=
  ⟨fun tight => ⟨tight.inbox, tight.finished⟩, fun marked => ⟨marked.inbox, marked.finished, rfl⟩⟩

/-- **The end marker stands last,** whatever is done to the subscription. -/
theorem lasting_marked : Lasting Marked where
  new h := (tight_held_iff _).1 (tight_new h)
  accept values sub marked := by
    -- One that nobody can read takes nothing.
    cases held : sub.held with
    | true =>
      have tight : sub.Tight := ⟨marked.inbox, marked.finished, held⟩
      exact ⟨(tight.accept values).inbox, (tight.accept values).finished⟩
    | false =>
      rw [accept_of_not_takes (by simp [takes, held])]
      exact marked
  close sub marked := by
    -- Neither the end nor a reading asks whether anyone else can read.
    have same : ({ sub with held := true }).close = { sub.close with held := true } := by
      unfold close
      split <;> rfl
    rw [← tight_held_iff, ← same]
    exact ((tight_held_iff sub).2 marked).close
  advance sub marked := by
    have same : ({ sub with held := true }).advance = { sub.advance with held := true } := by
      unfold advance
      repeat' split
      all_goals simp_all
    rw [← tight_held_iff, ← same]
    exact ((tight_held_iff sub).2 marked).read.2.2.2
  readers _ _ marked := ⟨marked.inbox, marked.finished⟩
  held _ _ marked := ⟨marked.inbox, marked.finished⟩

/-- **What the end leaves in the inbox:** the values that were there and the end marker, unless it was
read before. -/
theorem Marked.inbox_close {sub : Subscription} (marked : sub.Marked) : sub.close.inbox =
    sub.queued.map Delivery.values ++ if sub.finished then [] else [.ended] := by
  have shape := marked.inbox
  unfold close
  split
  next active =>
    have unfinished : sub.finished = false := by
      by_contra finished
      have := (marked.finished (by simpa using finished)).1
      simp [active] at this
    simp only [active, Bool.true_or, if_true, List.append_nil] at shape
    simp [unfinished, ← shape]
  next ended => simpa [ended] using shape

end Subscription

/-! ## All subscriptions -/

namespace Hub

variable {P : Subscription → Prop} {hub hub' : Hub}

/-- Every subscription has the property. -/
def Each (P : Subscription → Prop) (hub : Hub) : Prop := ∀ sub ∈ hub.subscriptions, P sub

/-- The subscriptions are the same. -/
theorem Each.congr (each : hub.Each P) (same : hub'.subscriptions = hub.subscriptions) :
    hub'.Each P := by
  rwa [Each, same]

/-- One subscription is changed. -/
theorem Each.modify (each : hub.Each P) {s : SubId} {f : Subscription → Subscription}
    (keeps : ∀ sub, P sub → P (f sub))
    (changed : hub'.subscriptions = hub.subscriptions.modify s f) : hub'.Each P := by
  intro sub listed
  rw [changed] at listed
  obtain ⟨t, found⟩ := List.mem_iff_getElem?.1 listed
  rw [List.getElem?_modify, Option.map_eq_map, Option.map_eq_some_iff] at found
  obtain ⟨before, found, rfl⟩ := found
  have had : P before := each before (List.mem_of_getElem? found)
  split
  · exact keeps before had
  · exact had

end Hub

namespace Subscription.Lasting

variable {P : Subscription → Prop} {hub : Hub}

/-! ### Deliveries, ends and readings -/

theorem deliverEach (lasting : Lasting P) (each : hub.Each P) (ids : List SubId)
    (values : List Value) : (hub.deliverEach ids values).2.Each P := by
  induction ids generalizing hub with
  | nil => exact each
  | cons s ids ih =>
    rw [Hub.deliverEach_cons]
    exact ih (each.modify (lasting.accept values) (hub.subscriptions_deliver s values))

theorem terminate (lasting : Lasting P) (each : hub.Each P) (s : SubId) :
    (hub.terminate s).2.Each P :=
  each.modify lasting.close (hub.subscriptions_terminate s)

theorem terminateEach (lasting : Lasting P) (each : hub.Each P) (ids : List SubId) :
    (hub.terminateEach ids).Each P := by
  induction ids generalizing hub with
  | nil => exact each
  | cons s ids ih => exact ih (lasting.terminate each s)

theorem unsubscribeAll (lasting : Lasting P) (each : hub.Each P) (h : HandleId) :
    (hub.unsubscribeAll h).2.Each P := by
  have unlisted : (hub.modifyHandle h fun handle => { handle with subscribers := [] }).Each P :=
    each.congr rfl
  exact lasting.terminateEach unlisted _

theorem withdraw (lasting : Lasting P) (each : hub.Each P) (h : HandleId) (s : SubId) :
    (hub.withdraw h s).2.Each P := by
  have unlisted : (hub.modifyHandle h fun handle =>
      { handle with subscribers := handle.subscribers.filter (· != s) }).Each P := each.congr rfl
  unfold Hub.withdraw
  split
  · exact lasting.terminate unlisted s
  · exact each

theorem take (lasting : Lasting P) (each : hub.Each P) (s : SubId) : (hub.take s).2.Each P := by
  cases found : hub.subscriptions[s]? with
  | none => simpa [Hub.take, found] using each
  | some sub =>
    rw [Hub.take_of_found found]
    exact each.modify lasting.advance rfl

theorem retain (lasting : Lasting P) (each : hub.Each P) (ids : List SubId) :
    (hub.retain ids).Each P := by
  intro sub listed
  obtain ⟨s, known, rfl⟩ := List.mem_mapIdx.1 listed
  exact lasting.held _ _ (each _ (List.getElem_mem known))

/-- **An operation keeps the property.** -/
theorem perform (lasting : Lasting P) (each : hub.Each P) (op : Operation) :
    (hub.perform op).2.Each P := by
  cases op with
  | create route => exact each.congr rfl
  | subscribe h =>
    intro sub listed
    rcases List.mem_append.1 listed with listed | listed
    · exact each sub listed
    · rw [List.mem_singleton.1 listed]
      exact lasting.new h
  | publish h values => exact lasting.deliverEach each _ values
  | deliver s values => exact each.modify (lasting.accept values) (hub.subscriptions_deliver s values)
  | unsubscribe s =>
    show (hub.unsubscribe s).2.Each P
    unfold Hub.unsubscribe
    split
    · exact lasting.withdraw each _ s
    · exact each
  | withdraw h s => exact lasting.withdraw each h s
  | unsubscribeAll h => exact lasting.unsubscribeAll each h
  | next s =>
    show (hub.next s).2.Each P
    unfold Hub.next
    split
    · exact each
    · exact lasting.take each s

/-! ### Merged streams -/

theorem releaseReader (lasting : Lasting P) (each : hub.Each P) (m : MergeId) (s : SubId) :
    (hub.releaseReader m s).Each P := by
  have released : (hub.modifySub s fun sub =>
      { sub with readers := sub.readers.filter (· != m) }).Each P :=
    each.modify (fun sub => lasting.readers _ sub) rfl
  unfold Hub.releaseReader
  split
  · exact each
  · dsimp only
    split
    · exact released.congr (Hub.subscriptions_wake _ s)
    · exact released

theorem joinReaders (lasting : Lasting P) (each : hub.Each P) (m : MergeId) (s : SubId) :
    (hub.joinReaders m s).Each P := by
  refine each.modify (fun sub had => ?_) rfl
  split
  · exact had
  · exact lasting.readers _ sub had

theorem readMember (lasting : Lasting P) (each : hub.Each P) (m : MergeId) (s : SubId) :
    (hub.readMember m s).2.Each P := by
  have taken := lasting.take each s
  unfold Hub.readMember
  split
  · exact lasting.joinReaders each m s
  · split
    next outcome =>
      rw [outcome] at taken
      exact lasting.joinReaders taken m s
    next outcome =>
      rw [outcome] at taken
      exact lasting.releaseReader taken m s
    next outcome =>
      rw [outcome] at taken
      exact lasting.releaseReader taken m s

theorem pollQueue (lasting : Lasting P) (each : hub.Each P) (m : MergeId) (order : List SubId) :
    (hub.pollQueue m order).2.Each P := by
  induction order generalizing hub with
  | nil => exact each
  | cons s rest ih =>
    have looked : (hub.modifyMerge m fun merge => { merge with queue := rest }).Each P :=
      each.congr rfl
    have read := lasting.readMember looked m s
    unfold Hub.pollQueue
    split
    next outcome =>
      rw [outcome] at read
      exact ih (read.congr rfl)
    next outcome =>
      rw [outcome] at read
      exact ih (read.congr rfl)
    next outcome =>
      rw [outcome] at read
      exact read.congr rfl

theorem pollIn (lasting : Lasting P) (each : hub.Each P) (m : MergeId) (order : List SubId) :
    (hub.pollIn m order).2.Each P := by
  unfold Hub.pollIn
  split
  · exact each.congr rfl
  · exact lasting.pollQueue each m order

theorem requeueEach (each : hub.Each P) (m : MergeId) (ids : List SubId) :
    (ids.foldl (fun hub t => hub.requeue m t) hub).Each P := by
  induction ids generalizing hub with
  | nil => exact each
  | cons t ids ih => exact ih (each.congr rfl)

theorem reap (lasting : Lasting P) (each : hub.Each P) (m : MergeId) (s : SubId)
    (yielded order : List SubId) : (hub.reap m s yielded order).Each P := by
  induction order generalizing hub yielded with
  | nil => exact requeueEach each m yielded
  | cons t rest ih =>
    have looked : (hub.modifyMerge m fun merge => { merge with queue := rest }).Each P :=
      each.congr rfl
    have read := lasting.readMember looked m t
    unfold Hub.reap
    dsimp only
    split
    · exact requeueEach (lasting.releaseReader looked m s) m yielded
    · split
      next outcome =>
        rw [outcome] at read
        refine ih ?_ _
        exact read.congr rfl
      next outcome =>
        rw [outcome] at read
        refine ih ?_ _
        exact read.congr rfl
      next outcome =>
        rw [outcome] at read
        refine ih ?_ _
        exact read.congr rfl

theorem detachIn (lasting : Lasting P) (each : hub.Each P) (m : MergeId) (s : SubId)
    (order : List SubId) : (hub.detachIn m s order).2.Each P := by
  have given : ((hub.leave m s).modifyMerge m (Merge.enqueue s)).Each P := each.congr rfl
  unfold Hub.detachIn
  split
  · exact lasting.reap given m s [] order
  · exact each

theorem closeMerge (lasting : Lasting P) (each : hub.Each P) (m : MergeId) :
    (hub.closeMerge m).Each P := by
  have released (ids : List SubId) :
      (ids.foldr (fun s hub => hub.releaseReader m s) hub).Each P := by
    induction ids with
    | nil => exact each
    | cons s ids ih => exact lasting.releaseReader ih m s
  exact (released (hub.members m)).congr rfl

end Subscription.Lasting

/-! ## All states that are reached -/

/-- **Whatever is done to handles and merged streams** keeps the property. -/
theorem Hub.Step.each {P : Subscription → Prop} {hub hub' : Hub} (step : hub.Step hub')
    (lasting : Subscription.Lasting P) (each : hub.Each P) : hub'.Each P := by
  cases step with
  | perform op permitted => exact lasting.perform each op
  | retain ids => exact lasting.retain each ids
  | addMerge => exact each.congr rfl
  | attach m s =>
    unfold Hub.attach
    split
    · exact each
    · exact each.congr rfl
  | detach m s => exact lasting.detachIn each m s _
  | pollMerge m => exact lasting.pollIn each m _
  | closeMerge m => exact lasting.closeMerge each m

namespace Table

variable {P : Subscription → Prop} {t : Table} {hub : Hub}

theorem each_withdraw (lasting : Subscription.Lasting P) (each : hub.Each P) (t : Table)
    (route : Route) : (t.withdraw hub route).2.2.Each P := by
  unfold withdraw
  split
  · exact each
  · exact lasting.unsubscribeAll each _

theorem each_clear (lasting : Subscription.Lasting P) (each : hub.Each P) (t : Table) :
    (t.clear hub).2.Each P := by
  unfold clear
  generalize t.routes hub = routes
  -- The routes are given up one after the other.
  induction routes generalizing t hub with
  | nil => exact each
  | cons route routes ih => exact ih (each_withdraw lasting each t route) _

/-- **Wherever a table is reached,** its subscriptions have the property. -/
theorem Reachable.each (reachable : t.Reachable hub) (lasting : Subscription.Lasting P) :
    hub.Each P := by
  induction reachable with
  | empty => exact List.forall_mem_nil _
  | step _ taken each => exact taken.each lasting each
  | serve _ _ _ each => exact each
  | withdraw route _ each => exact each_withdraw lasting each _ route
  | clear _ each => exact each_clear lasting each _
  | reorder _ _ each => exact each

end Table

end SoundControl
