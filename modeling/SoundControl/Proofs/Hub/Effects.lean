import SoundControl.Hub.Group

/-!
# What operations do to one subscription

An operation on a hub changes subscriptions one by one, each without a look at the others.  So a
delivery, an end and a reading are written down as changes of a single subscription, and every
operation on the hub is said to make that change to the subscriptions it is about.

* **`tally`** — doing something with each item of a list, and counting.
* **`Subscription.accept`**, **`Subscription.close`** — a delivery and an end.
* **`Subscription.head`**, **`Subscription.advance`** — what a reading gives, and what it leaves.
* **`Hub.subscriptions_deliver`**, **`Hub.subscriptions_terminate`**, **`Hub.take_of_found`** — the
  operations on one subscription.
* **`Hub.getElem?_publish`**, **`Hub.getElem?_unsubscribeAll`** — those on all subscriptions of a
  handle.
-/

namespace SoundControl

/-- Changing one place of a list by two functions that agree there. -/
theorem modify_congr {α : Type} {l : List α} {i : Nat} {f g : α → α}
    (same : ∀ a, l[i]? = some a → f a = g a) : l.modify i f = l.modify i g := by
  apply List.ext_getElem?
  intro j
  rw [List.getElem?_modify, List.getElem?_modify]
  by_cases at_place : i = j
  · subst at_place
    cases found : l[i]? with
    | none => rfl
    | some a => simp [same a found]
  · simp [at_place]

/-- Changing one place of a list by a function that leaves it as it is. -/
theorem modify_same {α : Type} {l : List α} {i : Nat} {f : α → α}
    (same : ∀ a, l[i]? = some a → f a = a) : l.modify i f = l := by
  rw [modify_congr (g := id) same, List.modify_id]

/-- Go through a list and count the items that were done. -/
def tally {σ α : Type} (act : σ → α → Bool × σ) (state : σ) (items : List α) : Nat × σ :=
  items.foldl (fun (count, state) item =>
    let (done, state) := act state item
    (if done then count + 1 else count, state)) (0, state)

/-- The first item, and then the others. -/
theorem tally_cons {σ α : Type} (act : σ → α → Bool × σ) (state : σ) (item : α) (items : List α) :
    tally act state (item :: items) =
      ((tally act (act state item).2 items).1 + (if (act state item).1 then 1 else 0),
        (tally act (act state item).2 items).2) := by
  -- The count is carried along from the left, so it is added to whatever was counted before.
  have shift : ∀ (items : List α) (n : Nat) (state : σ),
      items.foldl (fun (count, state) item =>
        let (done, state) := act state item
        (if done then count + 1 else count, state)) (n, state) =
      ((tally act state items).1 + n, (tally act state items).2) := by
    intro items
    induction items with
    | nil => intro n state; simp [tally]
    | cons item items ih =>
      intro n state
      rw [tally, List.foldl_cons, List.foldl_cons, ih, ih]
      simp only [Nat.add_assoc, Prod.mk.injEq, Nat.add_left_cancel_iff, and_true]
      split <;> omega
  rw [tally, List.foldl_cons, shift]

namespace Subscription

/-! ## One subscription -/

/-- Whether values can be put into the inbox. -/
def takes (sub : Subscription) : Bool := sub.active && sub.held

/-- **A delivery:** values go in behind what is there, unless the subscription has ended or nobody
can read it. -/
def accept (values : List Value) (sub : Subscription) : Subscription :=
  if sub.takes then { sub with inbox := sub.inbox ++ [.values values] } else sub

/-- **An end:** the end marker goes in behind what is there, unless it went in before. -/
def close (sub : Subscription) : Subscription :=
  if sub.active then { sub with active := false, inbox := sub.inbox ++ [.ended] } else sub

/-- What reading the inbox gives. -/
def head (sub : Subscription) : Poll (List Value) :=
  if sub.finished then .ended
  else match sub.inbox with
    | [] => .pending
    | .values values :: _ => .item values
    | .ended :: _ => .ended

/-- What reading the inbox leaves. -/
def advance (sub : Subscription) : Subscription :=
  if sub.finished then sub
  else match sub.inbox with
    | [] => sub
    | .values _ :: rest => { sub with inbox := rest }
    | .ended :: rest => { sub with inbox := rest, finished := true }

@[simp] theorem handle_accept (values : List Value) (sub : Subscription) :
    (sub.accept values).handle = sub.handle := by
  unfold accept; split <;> rfl

@[simp] theorem active_accept (values : List Value) (sub : Subscription) :
    (sub.accept values).active = sub.active := by
  unfold accept; split <;> rfl

@[simp] theorem takes_accept (values : List Value) (sub : Subscription) :
    (sub.accept values).takes = sub.takes := by
  unfold accept; split <;> rfl

@[simp] theorem readers_accept (values : List Value) (sub : Subscription) :
    (sub.accept values).readers = sub.readers := by
  unfold accept; split <;> rfl

@[simp] theorem handle_close (sub : Subscription) : sub.close.handle = sub.handle := by
  unfold close; split <;> rfl

@[simp] theorem active_close (sub : Subscription) : sub.close.active = false := by
  unfold close; split <;> simp_all

@[simp] theorem readers_close (sub : Subscription) : sub.close.readers = sub.readers := by
  unfold close; split <;> rfl

@[simp] theorem handle_advance (sub : Subscription) : sub.advance.handle = sub.handle := by
  unfold advance; repeat' split
  all_goals rfl

@[simp] theorem active_advance (sub : Subscription) : sub.advance.active = sub.active := by
  unfold advance; repeat' split
  all_goals rfl

@[simp] theorem readers_advance (sub : Subscription) : sub.advance.readers = sub.readers := by
  unfold advance; repeat' split
  all_goals rfl

/-- What cannot take values stays as it is. -/
theorem accept_of_not_takes {sub : Subscription} (not : sub.takes = false) (values : List Value) :
    sub.accept values = sub := by
  simp [accept, not]

/-- What has ended stays as it is. -/
theorem close_of_inactive {sub : Subscription} (ended : sub.active = false) : sub.close = sub := by
  simp [close, ended]

/-- A subscription ends once. -/
@[simp] theorem close_close (sub : Subscription) : sub.close.close = sub.close :=
  close_of_inactive sub.active_close

end Subscription

namespace Hub

variable {hub : Hub}

/-! ## Looking after a change -/

theorem subscribers_eq (hub : Hub) (h : HandleId) :
    hub.subscribers h = (hub.handles[h]?.map Handle.subscribers).getD [] := by
  unfold subscribers; split <;> simp_all

theorem getElem?_modifySub (hub : Hub) (s t : SubId) (f : Subscription → Subscription) :
    (hub.modifySub s f).subscriptions[t]? =
      if s = t then hub.subscriptions[t]?.map f else hub.subscriptions[t]? := by
  rw [modifySub, List.getElem?_modify]
  split <;> simp

/-- Changing the subscribers of a handle that exists. -/
theorem subscribers_modifyHandle (hub : Hub) (f : List SubId → List SubId) {h : HandleId}
    (known : h < hub.handles.length ∨ f [] = []) (g : HandleId) :
    (hub.modifyHandle h fun handle =>
      { handle with subscribers := f handle.subscribers }).subscribers g =
      if h = g then f (hub.subscribers g) else hub.subscribers g := by
  rw [subscribers_eq, subscribers_eq, modifyHandle, List.getElem?_modify]
  by_cases here : h = g
  · subst here
    cases found : hub.handles[h]? with
    | none =>
      have unknown : hub.handles.length ≤ h := List.getElem?_eq_none_iff.1 found
      have : f [] = [] := known.resolve_left (Nat.not_lt.2 unknown)
      simp [this]
    | some handle => simp
  · simp [here]

/-- The routes of the handles. -/
def routing (hub : Hub) : List Route := hub.handles.map Handle.route

theorem route?_eq (hub : Hub) (h : HandleId) : hub.route? h = hub.routing[h]? := by
  rw [route?, routing, List.getElem?_map]

/-- The route of a handle never changes. -/
theorem routing_modifyHandle (hub : Hub) (h : HandleId) (f : Handle → List SubId) :
    (hub.modifyHandle h fun handle => { handle with subscribers := f handle }).routing =
      hub.routing := by
  unfold routing modifyHandle
  apply List.ext_getElem?
  intro g
  rw [List.getElem?_map, List.getElem?_map, List.getElem?_modify]
  cases hub.handles[g]? with
  | none => rfl
  | some handle => by_cases here : h = g <;> simp [here]

theorem routing_congr {hub' : Hub} (same : hub'.handles = hub.handles) :
    hub'.routing = hub.routing := by
  rw [routing, routing, same]

@[simp] theorem subscriptions_modifyHandle (hub : Hub) (h : HandleId) (f : Handle → Handle) :
    (hub.modifyHandle h f).subscriptions = hub.subscriptions := rfl

@[simp] theorem subscriptions_modifyMerge (hub : Hub) (m : MergeId) (f : Merge → Merge) :
    (hub.modifyMerge m f).subscriptions = hub.subscriptions := rfl

@[simp] theorem handles_modifyMerge (hub : Hub) (m : MergeId) (f : Merge → Merge) :
    (hub.modifyMerge m f).handles = hub.handles := rfl

@[simp] theorem handles_modifySub (hub : Hub) (s : SubId) (f : Subscription → Subscription) :
    (hub.modifySub s f).handles = hub.handles := rfl

@[simp] theorem subscriptions_wake (hub : Hub) (s : SubId) :
    (hub.wake s).subscriptions = hub.subscriptions := by
  unfold wake; split <;> rfl

@[simp] theorem handles_wake (hub : Hub) (s : SubId) : (hub.wake s).handles = hub.handles := by
  unfold wake; split <;> rfl

@[simp] theorem handles_push (hub : Hub) (s : SubId) (delivery : Delivery) :
    (hub.push s delivery).handles = hub.handles := by
  simp [push]

/-- Whether values can be put into the inbox of a subscription. -/
def takes (hub : Hub) (s : SubId) : Bool := hub.subscriptions[s]?.any Subscription.takes

theorem isActive_of_found {s : SubId} {sub : Subscription}
    (found : hub.subscriptions[s]? = some sub) : hub.isActive s = sub.active := by
  simp [isActive, found]

theorem takes_of_found {s : SubId} {sub : Subscription}
    (found : hub.subscriptions[s]? = some sub) : hub.takes s = sub.takes := by
  simp [takes, found]

theorem handle?_of_found {s : SubId} {sub : Subscription}
    (found : hub.subscriptions[s]? = some sub) : hub.handle? s = some sub.handle := by
  simp [handle?, found]

/-! ## Operations on one subscription -/

@[simp] theorem handles_terminate (hub : Hub) (s : SubId) :
    (hub.terminate s).2.handles = hub.handles := by
  unfold terminate; split <;> simp

/-- **Ending a subscription changes that one.** -/
theorem subscriptions_terminate (hub : Hub) (s : SubId) :
    (hub.terminate s).2.subscriptions = hub.subscriptions.modify s Subscription.close := by
  unfold terminate
  split
  next active =>
    rw [push, subscriptions_wake, modifySub, modifySub, List.modify_modify_eq]
    apply modify_congr
    intro sub found
    have : sub.active = true := by rw [← isActive_of_found found]; exact active
    simp [Subscription.close, this]
  next ended =>
    symm
    apply modify_same
    intro sub found
    apply Subscription.close_of_inactive
    rw [← isActive_of_found found]
    simpa using ended

@[simp] theorem handles_deliver (hub : Hub) (s : SubId) (values : List Value) :
    (hub.deliver s values).2.handles = hub.handles := by
  unfold deliver; split <;> simp

/-- Whether a delivery was taken. -/
theorem deliver_fst (hub : Hub) (s : SubId) (values : List Value) :
    (hub.deliver s values).1 = hub.takes s := by
  unfold deliver takes Subscription.takes
  split <;> simp_all

/-- **A delivery changes the subscription it is made to.** -/
theorem subscriptions_deliver (hub : Hub) (s : SubId) (values : List Value) :
    (hub.deliver s values).2.subscriptions =
      hub.subscriptions.modify s (Subscription.accept values) := by
  have outcome := hub.deliver_fst s values
  unfold deliver at outcome ⊢
  split at outcome
  next =>
    rw [if_pos ‹_›, push, subscriptions_wake, modifySub]
    apply modify_congr
    intro sub found
    have : sub.takes = true := by rw [← takes_of_found found, ← outcome]
    simp [Subscription.accept, this]
  next =>
    rw [if_neg ‹_›]
    symm
    apply modify_same
    intro sub found
    apply Subscription.accept_of_not_takes
    rw [← takes_of_found found, ← outcome]

/-- **Reading an inbox.** -/
theorem take_of_found {s : SubId} {sub : Subscription} (found : hub.subscriptions[s]? = some sub) :
    hub.take s = (sub.head, hub.modifySub s Subscription.advance) := by
  have same (f : Subscription → Subscription) (agree : f sub = sub.advance) :
      hub.modifySub s f = hub.modifySub s Subscription.advance := by
    unfold modifySub
    rw [modify_congr]
    intro a found'
    rw [found, Option.some.injEq] at found'
    rw [← found', agree]
  have unchanged : hub.modifySub s id = hub := by simp [modifySub]
  unfold take Subscription.head
  simp only [found]
  by_cases finished : sub.finished = true
  · rw [if_pos finished, if_pos finished, ← same id (by simp [Subscription.advance, finished]),
      unchanged]
  · rw [if_neg finished, if_neg finished]
    cases inbox : sub.inbox with
    | nil => rw [← same id (by simp [Subscription.advance, inbox]), unchanged]
    | cons delivery rest =>
      cases delivery with
      | values values =>
        have advanced : { sub with inbox := rest } = sub.advance := by
          simp [Subscription.advance, finished, inbox]
        rw [← same (fun sub => { sub with inbox := rest }) advanced]
      | ended =>
        have advanced : { sub with inbox := rest, finished := true } = sub.advance := by
          simp [Subscription.advance, finished, inbox]
        rw [← same (fun sub => { sub with inbox := rest, finished := true }) advanced]

/-- **Withdrawing a subscription ends it, if the handle is its own.** -/
theorem getElem?_withdraw (hub : Hub) (h : HandleId) (s t : SubId) :
    (hub.withdraw h s).2.subscriptions[t]? =
      if s = t then hub.subscriptions[t]?.map fun sub => if sub.handle = h then sub.close else sub
      else hub.subscriptions[t]? := by
  by_cases own : hub.handle? s = some h
  · have ended : (hub.withdraw h s).2.subscriptions =
        hub.subscriptions.modify s Subscription.close := by
      rw [withdraw, if_pos own, subscriptions_terminate, subscriptions_modifyHandle]
    rw [ended, List.getElem?_modify]
    by_cases here : s = t
    · subst here
      cases found : hub.subscriptions[s]? with
      | none => simp
      | some sub =>
        rw [handle?, found, Option.map_some, Option.some.injEq] at own
        simp [own]
    · simp [here]
  · rw [withdraw, if_neg own]
    split
    next here =>
      subst here
      cases found : hub.subscriptions[s]? with
      | none => rfl
      | some sub =>
        rw [handle?, found, Option.map_some, Option.some.injEq] at own
        simp [own]
    next => rfl

/-- **Unsubscribing ends a subscription.** -/
theorem getElem?_unsubscribe (hub : Hub) (s t : SubId) :
    (hub.unsubscribe s).2.subscriptions[t]? =
      if s = t then hub.subscriptions[t]?.map Subscription.close
      else hub.subscriptions[t]? := by
  unfold unsubscribe
  cases found : hub.subscriptions[s]? with
  | none =>
    have : hub.handle? s = none := by simp [handle?, found]
    simp only [this]
    split
    next here => rw [← here, found, Option.map_none]
    next => rfl
  | some sub =>
    simp only [handle?_of_found found]
    rw [getElem?_withdraw]
    by_cases here : s = t
    · subst here
      simp [found]
    · simp [here]

/-! ## Operations on several subscriptions -/

theorem deliverEach_cons (hub : Hub) (s : SubId) (ids : List SubId) (values : List Value) :
    hub.deliverEach (s :: ids) values =
      (((hub.deliver s values).2.deliverEach ids values).1 + (if hub.takes s then 1 else 0),
        ((hub.deliver s values).2.deliverEach ids values).2) := by
  rw [← deliver_fst hub s values]
  exact tally_cons (fun hub s => Hub.deliver hub s values) hub s ids

@[simp] theorem handles_deliverEach (hub : Hub) (ids : List SubId) (values : List Value) :
    (hub.deliverEach ids values).2.handles = hub.handles := by
  induction ids generalizing hub with
  | nil => rfl
  | cons s ids ih => rw [deliverEach_cons, ih, handles_deliver]

/-- A delivery to one subscription, seen from any. -/
theorem getElem?_deliver (hub : Hub) (s t : SubId) (values : List Value) :
    (hub.deliver s values).2.subscriptions[t]? =
      if s = t then hub.subscriptions[t]?.map (Subscription.accept values)
      else hub.subscriptions[t]? := by
  rw [subscriptions_deliver]
  exact hub.getElem?_modifySub s t _

theorem takes_deliver (hub : Hub) (s : SubId) (values : List Value) :
    (hub.deliver s values).2.takes = hub.takes := by
  funext t
  unfold takes
  rw [getElem?_deliver]
  split
  · cases hub.subscriptions[t]? <;> simp
  · rfl

/-- **How many of several deliveries were taken.** -/
theorem deliverEach_fst (hub : Hub) (ids : List SubId) (values : List Value) :
    (hub.deliverEach ids values).1 = ids.countP hub.takes := by
  induction ids generalizing hub with
  | nil => rfl
  | cons s ids ih => rw [deliverEach_cons, ih, takes_deliver, List.countP_cons]

/-- **Deliveries to several subscriptions,** each named once. -/
theorem getElem?_deliverEach (hub : Hub) {ids : List SubId} (nodup : ids.Nodup)
    (values : List Value) (t : SubId) :
    (hub.deliverEach ids values).2.subscriptions[t]? =
      if t ∈ ids then hub.subscriptions[t]?.map (Subscription.accept values)
      else hub.subscriptions[t]? := by
  induction ids generalizing hub with
  | nil => rfl
  | cons s ids ih =>
    obtain ⟨fresh, nodup⟩ := List.nodup_cons.1 nodup
    rw [deliverEach_cons, ih _ nodup, getElem?_deliver]
    by_cases here : s = t
    · subst here
      rw [if_neg fresh, if_pos rfl, if_pos List.mem_cons_self]
    · have : t ∈ s :: ids ↔ t ∈ ids := by simp [Ne.symm here]
      simp only [if_neg here, this]

/-- **Publishing changes the subscriptions of the handle.** -/
theorem getElem?_publish (hub : Hub) {h : HandleId} (nodup : (hub.subscribers h).Nodup)
    (values : List Value) (t : SubId) :
    (hub.publish h values).2.subscriptions[t]? =
      if t ∈ hub.subscribers h then hub.subscriptions[t]?.map (Subscription.accept values)
      else hub.subscriptions[t]? :=
  hub.getElem?_deliverEach nodup values t

@[simp] theorem handles_terminateEach (hub : Hub) (ids : List SubId) :
    (hub.terminateEach ids).handles = hub.handles := by
  induction ids generalizing hub with
  | nil => rfl
  | cons s ids ih =>
    have step : hub.terminateEach (s :: ids) = (hub.terminate s).2.terminateEach ids := rfl
    rw [step, ih, handles_terminate]

/-- **Ends of several subscriptions.** -/
theorem getElem?_terminateEach (hub : Hub) (ids : List SubId) (t : SubId) :
    (hub.terminateEach ids).subscriptions[t]? =
      if t ∈ ids then hub.subscriptions[t]?.map Subscription.close
      else hub.subscriptions[t]? := by
  induction ids generalizing hub with
  | nil => rfl
  | cons s ids ih =>
    have step : hub.terminateEach (s :: ids) = (hub.terminate s).2.terminateEach ids := rfl
    have one : (hub.terminate s).2.subscriptions[t]? =
        if s = t then hub.subscriptions[t]?.map Subscription.close
        else hub.subscriptions[t]? := by
      rw [subscriptions_terminate]
      exact hub.getElem?_modifySub s t _
    rw [step, ih, one]
    by_cases here : s = t
    · subst here
      cases hub.subscriptions[s]? <;> simp
    · have : t ∈ s :: ids ↔ t ∈ ids := by simp [Ne.symm here]
      simp only [if_neg here, this]

/-- **Ending all subscriptions of a handle changes those it lists.** -/
theorem getElem?_unsubscribeAll (hub : Hub) (h : HandleId) (t : SubId) :
    (hub.unsubscribeAll h).2.subscriptions[t]? =
      if t ∈ hub.subscribers h then hub.subscriptions[t]?.map Subscription.close
      else hub.subscriptions[t]? := by
  rw [unsubscribeAll, getElem?_terminateEach, subscriptions_modifyHandle]

end Hub

end SoundControl
