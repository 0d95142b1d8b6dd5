import SoundControl.Hub.Basic

/-!
# Merged streams

A merged stream reads several subscriptions at once.  Members are looked at in turn: one that has
values yields them and goes to the end of the queue, one that has ended leaves, and one that has
nothing is waited for until something enters its inbox.  The stream ends when no member remains.

* **`Hub.attach`**, **`Hub.detach`** — taking up and giving up a member.  What is read on the way to
  a member that is given up is kept for later.
* **`Hub.pollMerge`** — the next values of any member, with its route.
* **`Hub.pollIn`**, **`Hub.detachIn`** — polling and giving up, with the looks in any order.
* **`Hub.drain`** — all values that are there.
* **`Hub.closeMerge`** — giving up the stream.

Several merged streams may wait for one subscription.  When the one that holds it lets go, the next
in line looks at it; a stream that is given up lets go first of the member it looked at last.  So
the members are kept in the order in which they were looked at.
-/

namespace SoundControl

namespace Hub

/-- The members of a merged stream. -/
def members (hub : Hub) (m : MergeId) : List SubId :=
  match hub.merges[m]? with
  | some merge => merge.members
  | none => []

/-- The members of a merged stream that are to be looked at. -/
def queue (hub : Hub) (m : MergeId) : List SubId :=
  match hub.merges[m]? with
  | some merge => merge.queue
  | none => []

/-- The values that a merged stream has read already. -/
def ready (hub : Hub) (m : MergeId) : List Yield :=
  match hub.merges[m]? with
  | some merge => merge.ready
  | none => []

/-- Neither members nor values are left. -/
def isTerminated (hub : Hub) (m : MergeId) : Bool :=
  (hub.members m).isEmpty && (hub.ready m).isEmpty

/-- A new merged stream without members. -/
def addMerge (hub : Hub) : MergeId × Hub :=
  (hub.merges.length, { hub with merges := hub.merges ++ [{}] })

/-- **Take up a member,** to be looked at last; false if it is one already. -/
def attach (hub : Hub) (m : MergeId) (s : SubId) : Bool × Hub :=
  if (hub.members m).contains s then (false, hub)
  else (true, hub.modifyMerge m fun merge =>
    { merge with members := merge.members ++ [s], queue := merge.queue ++ [s] })

/-- A merged stream of several subscriptions. -/
def mergeOf (hub : Hub) (ids : List SubId) : MergeId × Hub :=
  let (m, hub) := hub.addMerge
  (m, ids.foldl (fun hub s => (hub.attach m s).2) hub)

/-! ## Reading members -/

/-- Stop reading a subscription; the next reader in line, if any, looks at it. -/
def releaseReader (hub : Hub) (m : MergeId) (s : SubId) : Hub :=
  match hub.subscriptions[s]? with
  | none => hub
  | some sub =>
    let hub := hub.modifySub s fun sub => { sub with readers := sub.readers.filter (· != m) }
    if sub.readers.head? = some m then hub.wake s else hub

/-- Wait in line for a subscription. -/
def joinReaders (hub : Hub) (m : MergeId) (s : SubId) : Hub :=
  hub.modifySub s fun sub =>
    if sub.readers.contains m then sub else { sub with readers := sub.readers ++ [m] }

/-- **Look at a member:** take the next thing out of its inbox, or wait for it. -/
def readMember (hub : Hub) (m : MergeId) (s : SubId) : Poll (List Value) × Hub :=
  if hub.subscriptions[s]?.any fun sub => sub.readers.head?.any (· != m) then
    (.pending, hub.joinReaders m s)
  else match hub.take s with
    | (.pending, hub) => (.pending, hub.joinReaders m s)
    | (.item values, hub) => (.item values, hub.releaseReader m s)
    | (.ended, hub) => (.ended, hub.releaseReader m s)

/-- A member leaves. -/
def leave (hub : Hub) (m : MergeId) (s : SubId) : Hub :=
  hub.modifyMerge m fun merge => { merge with members := merge.members.filter (· != s) }

/-- A member has yielded: it is to be looked at after all others. -/
def requeue (hub : Hub) (m : MergeId) (s : SubId) : Hub :=
  hub.modifyMerge m fun merge => (merge.moveLast s).enqueue s

/-- Look at the members of a queue until one yields. -/
def pollQueue (hub : Hub) (m : MergeId) : List SubId → Poll Yield × Hub
  | [] => (if (hub.members m).isEmpty then .ended else .pending, hub)
  | s :: rest =>
    match (hub.modifyMerge m fun merge => { merge with queue := rest }).readMember m s with
    | (.pending, hub) => pollQueue (hub.modifyMerge m (Merge.moveLast s)) m rest
    | (.ended, hub) => pollQueue (hub.leave m s) m rest
    | (.item values, hub) => (.item ⟨s, hub.subRoute s, values⟩, hub.requeue m s)

/-- The next values of a merged stream that looks at its members in the given order.  What was read
already goes first. -/
def pollIn (hub : Hub) (m : MergeId) (order : List SubId) : Poll Yield × Hub :=
  match hub.ready m with
  | item :: rest => (.item item, hub.modifyMerge m fun merge => { merge with ready := rest })
  | [] => hub.pollQueue m order

/-- **The next values of a merged stream,** with the route of the member they come from. -/
def pollMerge (hub : Hub) (m : MergeId) : Poll Yield × Hub := hub.pollIn m (hub.queue m)

/-- The next values of a merged stream, at most `limit` times, until none is there; and whether
the end was reached. -/
def drain (hub : Hub) (m : MergeId) : Nat → (List Yield × Bool) × Hub
  | 0 => (([], false), hub)
  | limit + 1 =>
    match hub.pollMerge m with
    | (.pending, hub) => (([], false), hub)
    | (.ended, hub) => (([], true), hub)
    | (.item item, hub) =>
      let ((items, ended), hub) := drain hub m limit
      ((item :: items, ended), hub)

/-- More than a merged stream can yield without anything being delivered. -/
def mergeBacklog (hub : Hub) (m : MergeId) : Nat :=
  (hub.members m).foldl (fun count s => count + hub.backlog s) ((hub.ready m).length + 1)

/-- **All values of a merged stream that are there,** and whether its end was reached. -/
def drainAll (hub : Hub) (m : MergeId) : (List Yield × Bool) × Hub :=
  hub.drain m (hub.mergeBacklog m)

/-! ## Giving up -/

/-- Look at the members of a queue up to the one given up.  Those that yield go to the end of the
queue only when it is gone; their values are kept. -/
def reap (hub : Hub) (m : MergeId) (s : SubId) (yielded : List SubId) : List SubId → Hub
  | [] => yielded.foldl (fun hub t => hub.requeue m t) hub
  | t :: rest =>
    let hub := hub.modifyMerge m fun merge => { merge with queue := rest }
    if t = s then
      yielded.foldl (fun hub t => hub.requeue m t) (hub.releaseReader m s)
    else match hub.readMember m t with
      | (.pending, hub) => reap (hub.modifyMerge m (Merge.moveLast t)) m s yielded rest
      | (.ended, hub) => reap (hub.leave m t) m s yielded rest
      | (.item values, hub) =>
        let kept : Yield := ⟨t, hub.subRoute t, values⟩
        let hub := hub.modifyMerge m fun merge => { merge with ready := merge.ready ++ [kept] }
        reap hub m s (yielded ++ [t]) rest

/-- The members to be looked at while one of them is given up. -/
def detachQueue (hub : Hub) (m : MergeId) (s : SubId) : List SubId :=
  ((hub.leave m s).modifyMerge m (Merge.enqueue s)).queue m

/-- Give up a member, with the looks in the given order; false if it is none. -/
def detachIn (hub : Hub) (m : MergeId) (s : SubId) (order : List SubId) : Bool × Hub :=
  if (hub.members m).contains s then
    (true, ((hub.leave m s).modifyMerge m (Merge.enqueue s)).reap m s [] order)
  else (false, hub)

/-- **Give up a member;** false if it is none.  What is in its inbox stays there. -/
def detach (hub : Hub) (m : MergeId) (s : SubId) : Bool × Hub :=
  hub.detachIn m s (hub.detachQueue m s)

/-- **Give up a merged stream** with all its members, the one looked at last first. -/
def closeMerge (hub : Hub) (m : MergeId) : Hub :=
  let hub' := (hub.members m).foldr (fun s hub => hub.releaseReader m s) hub
  hub'.modifyMerge m fun _ => {}

end Hub

end SoundControl
