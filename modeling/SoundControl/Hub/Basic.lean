import SoundControl.Route

/-!
# Subscriptions

A hub keeps every route handle and every subscription.  Each handle has a list of subscribers of
its own, so equal routes with different handles share nothing.  A subscription has an inbox; when
it ends, an end marker goes in behind what is already there, and nothing goes in behind that.

* **`Handle`**, **`Subscription`**, **`Merge`**, **`Hub`** — the state.
* **`Yield`** — what a merged stream yields.
* **`Hub.subscribe`**, **`Hub.terminate`**, **`Hub.withdraw`**, **`Hub.unsubscribeAll`** — how
  subscriptions begin and end.
* **`Hub.deliver`**, **`Hub.publish`** — values into one inbox, and into those of a handle.
* **`Hub.next`** — the next values of a subscription, unless a merged stream is waiting for them.

Handles, subscriptions and merged streams are named by their place in the order of creation.  A
subscription is read by at most one reader at a time: `readers` lists the merged streams that wait
for it, the first of which holds it.  Whatever enters an inbox wakes the stream that holds it.
-/

namespace SoundControl

/-- The name of a route handle. -/
abbrev HandleId := Nat

/-- The name of a subscription. -/
abbrev SubId := Nat

/-- The name of a merged stream. -/
abbrev MergeId := Nat

/-- What an inbox holds. -/
inductive Delivery where
  /-- Published values. -/
  | values (values : List Value)
  /-- The subscription ended here. -/
  | ended

/-- What asking for the next thing of a sequence gives. -/
inductive Poll (α : Type) where
  /-- The next thing. -/
  | item (value : α)
  /-- Nothing more will come. -/
  | ended
  /-- Nothing is there yet. -/
  | pending

/-- **A route and its subscribers.** -/
structure Handle where
  /-- The route. -/
  route : Route
  /-- The subscriptions, in order. -/
  subscribers : List SubId := []

/-- **A subscription to one handle.** -/
structure Subscription where
  /-- The handle it was created from. -/
  handle : HandleId
  /-- What was delivered and not read yet. -/
  inbox : List Delivery := []
  /-- Until it is unsubscribed. -/
  active : Bool := true
  /-- Whether the end marker was read. -/
  finished : Bool := false
  /-- Whether someone can still read it. -/
  held : Bool := true
  /-- The merged streams that wait for it; the first holds it. -/
  readers : List MergeId := []

/-- **What a merged stream yields:** values, with the member that they come from. -/
structure Yield where
  /-- The member. -/
  sub : SubId
  /-- The route of the member, which is told with the values. -/
  route : Route
  /-- The values. -/
  values : List Value

/-- **Several subscriptions read as one stream.** -/
structure Merge where
  /-- The subscriptions still read; the one looked at last, or taken up since, stands last. -/
  members : List SubId := []
  /-- Those to be looked at, in order; the other members are waited for. -/
  queue : List SubId := []
  /-- Values read while a member was being detached. -/
  ready : List Yield := []

/-- Put a member at the end of the queue, once. -/
def Merge.enqueue (s : SubId) (merge : Merge) : Merge :=
  if merge.queue.contains s then merge else { merge with queue := merge.queue ++ [s] }

/-- Put a member behind the others: it was looked at last. -/
def Merge.moveLast (s : SubId) (merge : Merge) : Merge :=
  { merge with members := merge.members.filter (· != s) ++ merge.members.filter (· == s) }

/-- **All handles, subscriptions and merged streams,** in order of creation. -/
structure Hub where
  /-- The handles. -/
  handles : List Handle := []
  /-- The subscriptions. -/
  subscriptions : List Subscription := []
  /-- The merged streams. -/
  merges : List Merge := []

namespace Hub

/-! ## Looking and changing -/

/-- The route of a handle. -/
def route? (hub : Hub) (h : HandleId) : Option Route := hub.handles[h]?.map Handle.route

/-- The subscribers of a handle. -/
def subscribers (hub : Hub) (h : HandleId) : List SubId :=
  match hub.handles[h]? with
  | some handle => handle.subscribers
  | none => []

/-- The handle of a subscription. -/
def handle? (hub : Hub) (s : SubId) : Option HandleId := hub.subscriptions[s]?.map Subscription.handle

/-- The route of a subscription. -/
def subRoute? (hub : Hub) (s : SubId) : Option Route := (hub.handle? s).bind hub.route?

/-- The route that the readers of a subscription are told; no subscription is without one. -/
def subRoute (hub : Hub) (s : SubId) : Route := (hub.subRoute? s).getD .everything

/-- Whether a subscription has not been unsubscribed. -/
def isActive (hub : Hub) (s : SubId) : Bool := hub.subscriptions[s]?.any Subscription.active

/-- Change a handle. -/
def modifyHandle (hub : Hub) (h : HandleId) (f : Handle → Handle) : Hub :=
  { hub with handles := hub.handles.modify h f }

/-- Change a subscription. -/
def modifySub (hub : Hub) (s : SubId) (f : Subscription → Subscription) : Hub :=
  { hub with subscriptions := hub.subscriptions.modify s f }

/-- Change a merged stream. -/
def modifyMerge (hub : Hub) (m : MergeId) (f : Merge → Merge) : Hub :=
  { hub with merges := hub.merges.modify m f }

/-- Have the merged stream that holds a subscription look at it again. -/
def wake (hub : Hub) (s : SubId) : Hub :=
  match hub.subscriptions[s]?.bind (·.readers.head?) with
  | some m => hub.modifyMerge m (Merge.enqueue s)
  | none => hub

/-! ## Beginning and ending -/

/-- A new handle of a route, without subscribers. -/
def addHandle (hub : Hub) (route : Route) : HandleId × Hub :=
  (hub.handles.length, { hub with handles := hub.handles ++ [({ route } : Handle)] })

/-- **A new subscription to a handle.** -/
def subscribe (hub : Hub) (h : HandleId) : SubId × Hub :=
  let s := hub.subscriptions.length
  let hub := { hub with subscriptions := hub.subscriptions ++ [({ handle := h } : Subscription)] }
  (s, hub.modifyHandle h fun handle => { handle with subscribers := handle.subscribers ++ [s] })

/-- Put something into an inbox and wake its reader. -/
def push (hub : Hub) (s : SubId) (delivery : Delivery) : Hub :=
  (hub.modifySub s fun sub => { sub with inbox := sub.inbox ++ [delivery] }).wake s

/-- **End a subscription,** with an end marker behind what is in its inbox; false if it had ended
before. -/
def terminate (hub : Hub) (s : SubId) : Bool × Hub :=
  if hub.isActive s then
    (true, (hub.modifySub s fun sub => { sub with active := false }).push s .ended)
  else (false, hub)

/-- **End a subscription of a handle** and take it off the handle's list; false if it had ended or
belongs to another handle. -/
def withdraw (hub : Hub) (h : HandleId) (s : SubId) : Bool × Hub :=
  if hub.handle? s = some h then
    (hub.modifyHandle h fun handle =>
      { handle with subscribers := handle.subscribers.filter (· != s) }).terminate s
  else (false, hub)

/-- End a subscription. -/
def unsubscribe (hub : Hub) (s : SubId) : Bool × Hub :=
  match hub.handle? s with
  | some h => hub.withdraw h s
  | none => (false, hub)

/-- End each of several subscriptions. -/
def terminateEach (hub : Hub) (ids : List SubId) : Hub :=
  ids.foldl (fun hub s => (hub.terminate s).2) hub

/-- **End every subscription of a handle;** how many there were. -/
def unsubscribeAll (hub : Hub) (h : HandleId) : Nat × Hub :=
  let ids := hub.subscribers h
  (ids.length, (hub.modifyHandle h fun handle => { handle with subscribers := [] }).terminateEach ids)

/-- Give up the inboxes of the subscriptions that are neither listed nor members of a merged
stream: nothing can be delivered to them any more. -/
def retain (hub : Hub) (ids : List SubId) : Hub :=
  let kept := ids ++ hub.merges.flatMap Merge.members
  { hub with
    subscriptions := hub.subscriptions.mapIdx fun s sub =>
      { sub with held := sub.held && kept.contains s } }

/-! ## Values in and out -/

/-- **Put values into an inbox;** false once the subscription has ended or nobody can read it. -/
def deliver (hub : Hub) (s : SubId) (values : List Value) : Bool × Hub :=
  if hub.subscriptions[s]?.any fun sub => sub.active && sub.held then
    (true, hub.push s (.values values))
  else (false, hub)

/-- Put values into several inboxes; how many took them. -/
def deliverEach (hub : Hub) (ids : List SubId) (values : List Value) : Nat × Hub :=
  ids.foldl (fun (count, hub) s =>
    let (taken, hub) := hub.deliver s values
    (if taken then count + 1 else count, hub)) (0, hub)

/-- **Put values into the inbox of every subscriber of a handle;** how many took them. -/
def publish (hub : Hub) (h : HandleId) (values : List Value) : Nat × Hub :=
  hub.deliverEach (hub.subscribers h) values

/-- Take the next thing out of an inbox. Behind the end marker there is only the end. -/
def take (hub : Hub) (s : SubId) : Poll (List Value) × Hub :=
  match hub.subscriptions[s]? with
  | none => (.ended, hub)
  | some sub =>
    if sub.finished then (.ended, hub)
    else match sub.inbox with
      | [] => (.pending, hub)
      | .values values :: rest =>
        (.item values, hub.modifySub s fun sub => { sub with inbox := rest })
      | .ended :: rest =>
        (.ended, hub.modifySub s fun sub => { sub with inbox := rest, finished := true })

/-- **The next values of a subscription,** unless a merged stream waits for it. -/
def next (hub : Hub) (s : SubId) : Poll (List Value) × Hub :=
  if hub.subscriptions[s]?.any fun sub => !sub.readers.isEmpty then (.pending, hub)
  else hub.take s

/-- The next values of a subscription, at most `limit` times, until none is there; and whether the
end was reached. -/
def collect (hub : Hub) (s : SubId) : Nat → (List (List Value) × Bool) × Hub
  | 0 => (([], false), hub)
  | limit + 1 =>
    match hub.next s with
    | (.pending, hub) => (([], false), hub)
    | (.ended, hub) => (([], true), hub)
    | (.item values, hub) =>
      let ((items, ended), hub) := collect hub s limit
      ((values :: items, ended), hub)

/-- How much there is in an inbox, the end included. -/
def backlog (hub : Hub) (s : SubId) : Nat :=
  match hub.subscriptions[s]? with
  | some sub => sub.inbox.length + 1
  | none => 1

/-- **All values of a subscription that are there,** and whether its end was reached. -/
def collectAll (hub : Hub) (s : SubId) : (List (List Value) × Bool) × Hub :=
  hub.collect s (hub.backlog s)

end Hub

end SoundControl
