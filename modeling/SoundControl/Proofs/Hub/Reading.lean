import SoundControl.Proofs.Hub.History

/-!
# Reading members in turn

A merged stream looks at its members one after another.  As long as it waits for subscriptions
alone, a look does to a member what any reading does, and leaves a mark if there was nothing to
read.

* **`Hub.readers`** — who waits for a subscription.
* **`Hub.Tended`** — the members still to be looked at, and those that are waited for.
* **`Hub.readMember_of_alone`**, **`Hub.lookNext`**, **`Hub.Tended.lookNext`** — one look.
* **`Hub.pollQueue_tended`** — looking until a member yields.
* **`Hub.reap_tended`** — looking until the member that is given up is reached.

The order of the looks is arbitrary throughout.
-/

namespace SoundControl

/-- Whether there is nothing yet. -/
def Poll.isPending {α : Type} : Poll α → Bool
  | .pending => true
  | _ => false

/-- What there is to take. -/
def Poll.items {α : Type} : Poll α → List α
  | .item value => [value]
  | _ => []

/-- The values of one subscription among those of several. -/
def valuesOf (s : SubId) (items : List Yield) : List (List Value) :=
  items.filterMap fun item => if item.sub = s then some item.values else none

@[simp] theorem valuesOf_nil (s : SubId) : valuesOf s [] = [] := rfl

@[simp] theorem valuesOf_append (s : SubId) (items others : List Yield) :
    valuesOf s (items ++ others) = valuesOf s items ++ valuesOf s others :=
  List.filterMap_append

theorem valuesOf_singleton (s : SubId) (item : Yield) :
    valuesOf s [item] = if item.sub = s then [item.values] else [] := by
  unfold valuesOf
  by_cases here : item.sub = s <;> simp [here]

/-- What a look by stream `m` leaves of a member: it waits for one that has nothing. -/
def Subscription.look (m : MergeId) (sub : Subscription) : Subscription :=
  { sub.advance with readers := if sub.head.isPending then [m] else [] }

theorem Subscription.Tight.look {sub : Subscription} (tight : sub.Tight) (m : MergeId) :
    (sub.look m).Tight :=
  let after := tight.read.2.2.2
  ⟨after.inbox, after.finished, after.held⟩

/-- What a look takes is gone from the inbox. -/
theorem Subscription.Tight.queued_look {sub : Subscription} (tight : sub.Tight) (m : MergeId) :
    sub.queued = sub.head.items ++ (sub.look m).queued := by
  have rest : (sub.look m).queued = sub.queued.tail := tight.read.2.1
  rw [rest, tight.read.1]
  cases sub.queued with
  | nil => cases sub.active <;> rfl
  | cons values rest => rfl

namespace Hub

variable {hub : Hub} {m : MergeId} {merge : Merge}

/-- The merged streams that wait for a subscription. -/
def readers (hub : Hub) (s : SubId) : List MergeId :=
  match hub.subscriptions[s]? with
  | some sub => sub.readers
  | none => []

/-- The values of a subscription that the merged stream has read and not yet yielded. -/
def waiting (hub : Hub) (m : MergeId) (s : SubId) : List (List Value) := valuesOf s (hub.ready m)

theorem readers_of_found {s : SubId} {sub : Subscription}
    (found : hub.subscriptions[s]? = some sub) : hub.readers s = sub.readers := by
  simp [readers, found]

/-! ## One stream -/

theorem merges_modifyMerge (found : hub.merges[m]? = some merge) (f : Merge → Merge) :
    (hub.modifyMerge m f).merges[m]? = some (f merge) := by
  simp [modifyMerge, found]

theorem members_of_found (found : hub.merges[m]? = some merge) : hub.members m = merge.members := by
  simp [members, found]

theorem queue_of_found (found : hub.merges[m]? = some merge) : hub.queue m = merge.queue := by
  simp [queue, found]

theorem ready_of_found (found : hub.merges[m]? = some merge) : hub.ready m = merge.ready := by
  simp [ready, found]

theorem wake_of_unread {s : SubId} (unread : hub.readers s = []) : hub.wake s = hub := by
  unfold wake
  unfold readers at unread
  cases found : hub.subscriptions[s]? with
  | none => rfl
  | some sub => rw [found] at unread; simp [show sub.readers = [] from unread]

theorem modifySub_modifySub (hub : Hub) (s : SubId) (f g : Subscription → Subscription) :
    (hub.modifySub s f).modifySub s g = hub.modifySub s (g ∘ f) := by
  unfold modifySub
  rw [List.modify_modify_eq]

theorem modifySub_congr {s : SubId} {sub : Subscription}
    (found : hub.subscriptions[s]? = some sub) {f g : Subscription → Subscription}
    (same : f sub = g sub) : hub.modifySub s f = hub.modifySub s g := by
  unfold modifySub
  rw [modify_congr]
  intro a found'
  rw [found, Option.some.injEq] at found'
  rw [← found', same]

/-- Giving up a subscription that no other stream waits for. -/
theorem releaseReader_of_alone {s : SubId} {sub : Subscription}
    (found : hub.subscriptions[s]? = some sub) (alone : sub.readers = [] ∨ sub.readers = [m]) :
    hub.releaseReader m s = hub.modifySub s fun sub => { sub with readers := [] } := by
  have none_left : sub.readers.filter (· != m) = [] := by
    rcases alone with unread | only
    · simp [unread]
    · simp [only]
  have cleared : hub.modifySub s (fun sub => { sub with readers := sub.readers.filter (· != m) }) =
      hub.modifySub s fun sub => { sub with readers := [] } :=
    modifySub_congr found (by rw [none_left])
  unfold releaseReader
  simp only [found]
  rw [cleared]
  split
  · apply wake_of_unread
    rw [readers, getElem?_modifySub, if_pos rfl, found]
    rfl
  · rfl

/-- **A look at a member that no other stream waits for.** -/
theorem readMember_of_alone {s : SubId} {sub : Subscription}
    (found : hub.subscriptions[s]? = some sub) (alone : sub.readers = [] ∨ sub.readers = [m]) :
    hub.readMember m s = (sub.head, hub.modifySub s (Subscription.look m)) := by
  have free : ¬ (hub.subscriptions[s]?.any fun sub => sub.readers.head?.any (· != m)) = true := by
    rcases alone with unread | only
    · simp [found, unread]
    · simp [found, only]
  have taken : (hub.modifySub s Subscription.advance).subscriptions[s]? = some sub.advance := by
    rw [getElem?_modifySub, if_pos rfl, found, Option.map_some]
  -- After the reading nobody waits, so nobody else is woken.
  have released : (hub.modifySub s Subscription.advance).releaseReader m s =
      hub.modifySub s fun sub => { sub.advance with readers := [] } := by
    rw [releaseReader_of_alone taken (by simpa using alone), modifySub_modifySub]
    rfl
  unfold readMember
  rw [if_neg free, take_of_found found]
  cases head : sub.head with
  | pending =>
    dsimp only
    rw [joinReaders, modifySub_modifySub, modifySub_congr found]
    rcases alone with unread | only
    · simp [Subscription.look, head, Poll.isPending, unread]
    · -- The stream waits already and is not listed twice.
      have mark : sub.advance.readers = [m] := by simpa using only
      simp only [Function.comp_apply, Subscription.look, head, Poll.isPending, mark, if_true]
      rw [if_pos (by simp), ← mark]
  | item values =>
    dsimp only
    rw [released, modifySub_congr found]
    simp [Subscription.look, head, Poll.isPending]
  | ended =>
    dsimp only
    rw [released, modifySub_congr found]
    simp [Subscription.look, head, Poll.isPending]

/-! ## Looking at one member after another -/

/-- **The members still to be looked at are listed once, and every other one that the stream waits
for is known to it.** A seat is a member, or one that is being given up. -/
structure Tended (hub : Hub) (m : MergeId) (queue seats : List SubId) : Prop where
  /-- Each is to be looked at once. -/
  queue_nodup : queue.Nodup
  /-- Seats are looked at. -/
  queue_seated : ∀ s ∈ queue, s ∈ seats
  /-- Seats are subscriptions. -/
  known : ∀ s ∈ seats, s < hub.subscriptions.length
  /-- Seats are waited for, by this stream only. -/
  waits : ∀ s, hub.readers s = [] ∨ hub.readers s = [m] ∧ s ∈ seats
  /-- End markers stand last. -/
  tight : ∀ (s : SubId) (sub : Subscription), hub.subscriptions[s]? = some sub → sub.Tight

theorem Tended.congr {queue seats : List SubId} (tended : hub.Tended m queue seats) {hub' : Hub}
    (same : hub'.subscriptions = hub.subscriptions) : hub'.Tended m queue seats where
  queue_nodup := tended.queue_nodup
  queue_seated := tended.queue_seated
  known := by rw [same]; exact tended.known
  waits s := by
    have : hub'.readers s = hub.readers s := by rw [readers, readers, same]
    rw [this]
    exact tended.waits s
  tight := by rw [same]; exact tended.tight

/-- There may be more seats. -/
theorem Tended.mono {queue seats seats' : List SubId} (tended : hub.Tended m queue seats)
    (more : ∀ s ∈ seats, s ∈ seats') (known : ∀ s ∈ seats', s < hub.subscriptions.length) :
    hub.Tended m queue seats' where
  queue_nodup := tended.queue_nodup
  queue_seated s member := more s (tended.queue_seated s member)
  known := known
  waits s := (tended.waits s).imp id fun ⟨only, member⟩ => ⟨only, more s member⟩
  tight := tended.tight

/-- Seats may be listed in another order. -/
theorem Tended.seats {queue seats seats' : List SubId} (tended : hub.Tended m queue seats)
    (same : ∀ s, s ∈ seats' ↔ s ∈ seats) : hub.Tended m queue seats' :=
  tended.mono (fun s => (same s).2) fun s member => tended.known s ((same s).1 member)

/-- The members to be looked at may be listed in another order. -/
theorem Tended.reorder {queue order seats : List SubId} (tended : hub.Tended m queue seats)
    (all : order.Perm queue) : hub.Tended m order seats where
  queue_nodup := all.symm.nodup tended.queue_nodup
  queue_seated s member := tended.queue_seated s (all.subset member)
  known := tended.known
  waits := tended.waits
  tight := tended.tight

theorem Tended.alone {queue seats : List SubId} (tended : hub.Tended m queue seats) {s : SubId}
    {sub : Subscription} (found : hub.subscriptions[s]? = some sub) :
    sub.readers = [] ∨ sub.readers = [m] := by
  rw [← readers_of_found found]
  exact (tended.waits s).imp id And.left

theorem readers_modifySub (hub : Hub) (s t : SubId) (f : Subscription → Subscription) :
    (hub.modifySub s f).readers t =
      match hub.subscriptions[t]? with
      | some sub => if s = t then (f sub).readers else sub.readers
      | none => [] := by
  unfold readers
  rw [getElem?_modifySub]
  cases hub.subscriptions[t]? with
  | none => simp
  | some sub => by_cases here : s = t <;> simp [here]

theorem queued_modifySub (hub : Hub) (s t : SubId) (f : Subscription → Subscription) :
    (hub.modifySub s f).queued t =
      match hub.subscriptions[t]? with
      | some sub => if s = t then (f sub).queued else sub.queued
      | none => [] := by
  unfold queued
  rw [getElem?_modifySub]
  cases hub.subscriptions[t]? with
  | none => simp
  | some sub => by_cases here : s = t <;> simp [here]

/-- **After the change of a member** it need not be looked at any more; it keeps its seat, unless it
is not waited for. -/
theorem Tended.modifySub {s : SubId} {rest seats seats' : List SubId}
    (tended : hub.Tended m (s :: rest) seats) {f : Subscription → Subscription}
    (others : ∀ t ∈ seats, t ≠ s → t ∈ seats') (fewer : ∀ t ∈ seats', t ∈ seats)
    (mark : ∀ sub, hub.subscriptions[s]? = some sub →
      ((f sub).readers = [] ∨ (f sub).readers = [m] ∧ s ∈ seats') ∧ (f sub).Tight) :
    (hub.modifySub s f).Tended m rest seats' where
  queue_nodup := (List.nodup_cons.1 tended.queue_nodup).2
  queue_seated t member := by
    have : t ≠ s := by
      rintro rfl
      exact (List.nodup_cons.1 tended.queue_nodup).1 member
    exact others t (tended.queue_seated t (List.mem_cons_of_mem s member)) this
  known t member := by
    rw [Hub.modifySub, List.length_modify]
    exact tended.known t (fewer t member)
  waits t := by
    rw [readers_modifySub]
    have before := tended.waits t
    unfold readers at before
    cases found : hub.subscriptions[t]? with
    | none => exact .inl rfl
    | some sub =>
      rw [found] at before
      by_cases here : s = t
      · subst here
        simpa using (mark sub found).1
      · -- The others are as before, and none of them has lost its seat.
        simp only [if_neg here]
        rcases before with unread | only
        · exact .inl unread
        · exact .inr ⟨only.1, others t only.2 (Ne.symm here)⟩
  tight t sub found := by
    rw [getElem?_modifySub] at found
    by_cases here : s = t
    · subst here
      rw [if_pos rfl] at found
      obtain ⟨sub', found', rfl⟩ := Option.map_eq_some_iff.1 found
      exact (mark sub' found').2
    · rw [if_neg here] at found
      exact tended.tight t sub found

/-- **A look at the next member.** What it takes, whatever route it is told with, is gone from the
member's inbox, and the member need not keep its seat unless there was nothing to take yet. -/
theorem Tended.readMember {s : SubId} {rest seats : List SubId}
    (tended : hub.Tended m (s :: rest) seats) (hub' : Hub) (outcome : Poll (List Value))
    (read : hub.readMember m s = (outcome, hub')) :
    hub'.merges = hub.merges ∧
      hub'.Tended m rest seats ∧
      (outcome.isPending = false → hub'.Tended m rest (seats.filter (· != s))) ∧
      ∀ route t, hub.queued t = valuesOf t (outcome.items.map (Yield.mk s route)) ++ hub'.queued t := by
  have seated := tended.queue_seated s List.mem_cons_self
  obtain ⟨sub, found⟩ : ∃ sub, hub.subscriptions[s]? = some sub :=
    ⟨_, List.getElem?_eq_getElem (tended.known s seated)⟩
  rw [readMember_of_alone found (tended.alone found), Prod.mk.injEq] at read
  obtain ⟨rfl, rfl⟩ := read
  have tight := (tended.tight s sub found).look m
  refine ⟨rfl, ?_, ?_, ?_⟩
  · refine tended.modifySub (fun t member _ => member) (fun t member => member) ?_
    intro sub' found'
    rw [found, Option.some.injEq] at found'
    subst found'
    refine ⟨?_, tight⟩
    unfold Subscription.look
    split
    next => exact .inr ⟨rfl, seated⟩
    next => exact .inl rfl
  · intro taken
    refine tended.modifySub (fun t member other => ?_) (fun t member => (List.mem_filter.1 member).1) ?_
    · simp [member, other]
    · intro sub' found'
      rw [found, Option.some.injEq] at found'
      subst found'
      exact ⟨.inl (by simp [Subscription.look, taken]), tight⟩
  · -- The inbox of `s` is shorter by what was taken out of it, and the others are as before.
    intro route t
    rw [queued_modifySub]
    cases found' : hub.subscriptions[t]? with
    | none =>
      have : s ≠ t := by
        rintro rfl
        simp [found] at found'
      cases sub.head <;> simp [queued, found', Poll.items, valuesOf_singleton, this]
    | some sub' =>
      rw [queued_of_found found']
      by_cases here : s = t
      · subst here
        rw [found, Option.some.injEq] at found'
        subst found'
        rw [(tended.tight s sub found).queued_look m]
        cases sub.head <;> simp [Poll.items, valuesOf_singleton]
      · cases sub.head <;> simp [Poll.items, valuesOf_singleton, here]

/-- **A seat that is given up** is not waited for any more; its inbox is left as it is. -/
theorem Tended.releaseReader {s : SubId} {rest seats : List SubId}
    (tended : hub.Tended m (s :: rest) (s :: seats)) :
    (hub.releaseReader m s).merges = hub.merges ∧
      (hub.releaseReader m s).Tended m rest seats ∧
      ∀ t, (hub.releaseReader m s).queued t = hub.queued t := by
  obtain ⟨sub, found⟩ : ∃ sub, hub.subscriptions[s]? = some sub :=
    ⟨_, List.getElem?_eq_getElem (tended.known s List.mem_cons_self)⟩
  rw [releaseReader_of_alone found (tended.alone found)]
  refine ⟨rfl, ?_, ?_⟩
  · refine tended.modifySub (fun t member other => ?_) (fun t => List.mem_cons_of_mem s) ?_
    · exact (List.mem_cons.1 member).resolve_left other
    · intro sub' found'
      have tight := tended.tight s sub' found'
      exact ⟨.inl rfl, tight.inbox, tight.finished, tight.held⟩
  · intro t
    rw [queued_modifySub]
    cases found' : hub.subscriptions[t]? with
    | none => simp [queued, found']
    | some sub' => rw [queued_of_found found']; exact ite_self _

/-! ## Members change places -/

theorem mem_moveLast (merge : Merge) (s t : SubId) :
    t ∈ (merge.moveLast s).members ↔ t ∈ merge.members := by
  unfold Merge.moveLast
  by_cases here : t = s <;> simp [here]

theorem mem_enqueue (merge : Merge) (s t : SubId) :
    t ∈ (merge.enqueue s).queue ↔ t ∈ merge.queue ∨ t = s := by
  unfold Merge.enqueue
  split
  next listed =>
    constructor
    · exact .inl
    · rintro (member | rfl)
      · exact member
      · simpa using listed
  next => simp

theorem nodup_enqueue {merge : Merge} (nodup : merge.queue.Nodup) (s : SubId) :
    (merge.enqueue s).queue.Nodup := by
  unfold Merge.enqueue
  split
  next => exact nodup
  next fresh =>
    refine List.nodup_append.2 ⟨nodup, by simp, ?_⟩
    rintro t member s' last rfl
    rw [List.mem_singleton] at last
    subst last
    simp [member] at fresh

@[simp] theorem members_enqueue (merge : Merge) (s : SubId) :
    (merge.enqueue s).members = merge.members := by
  unfold Merge.enqueue; split <;> rfl

@[simp] theorem ready_enqueue (merge : Merge) (s : SubId) :
    (merge.enqueue s).ready = merge.ready := by
  unfold Merge.enqueue; split <;> rfl

/-- A seat may be put into the queue. -/
theorem Tended.enqueue {seats : List SubId} (tended : hub.Tended m merge.queue seats) {s : SubId}
    (seated : s ∈ seats) : hub.Tended m (merge.enqueue s).queue seats where
  queue_nodup := nodup_enqueue tended.queue_nodup s
  queue_seated t member := by
    rcases (mem_enqueue merge s t).1 member with listed | rfl
    · exact tended.queue_seated t listed
    · exact seated
  known := tended.known
  waits := tended.waits
  tight := tended.tight

/-- **Members that have yielded go to the end of the queue.** -/
theorem Tended.requeueEach (ids : List SubId) {hub : Hub} {merge : Merge}
    (found : hub.merges[m]? = some merge) (tended : hub.Tended m merge.queue merge.members)
    (members : ∀ t ∈ ids, t ∈ merge.members) :
    ∃ merge', (ids.foldl (fun hub t => hub.requeue m t) hub).merges[m]? = some merge' ∧
      merge'.ready = merge.ready ∧ (∀ t, t ∈ merge'.members ↔ t ∈ merge.members) ∧
      (ids.foldl (fun hub t => hub.requeue m t) hub).Tended m merge'.queue merge'.members ∧
      ∀ t, (ids.foldl (fun hub t => hub.requeue m t) hub).queued t = hub.queued t := by
  induction ids generalizing hub merge with
  | nil => exact ⟨merge, found, rfl, fun _ => Iff.rfl, tended, fun _ => rfl⟩
  | cons s ids ih =>
    have moved (t : SubId) : t ∈ ((merge.moveLast s).enqueue s).members ↔ t ∈ merge.members := by
      rw [members_enqueue, mem_moveLast]
    have seated : s ∈ (merge.moveLast s).members :=
      (mem_moveLast merge s s).2 (members s List.mem_cons_self)
    have requeued : (hub.requeue m s).Tended m ((merge.moveLast s).enqueue s).queue
        ((merge.moveLast s).enqueue s).members := by
      have : hub.Tended m (merge.moveLast s).queue (merge.moveLast s).members :=
        tended.seats (mem_moveLast merge s)
      rw [members_enqueue]
      exact (this.enqueue seated).congr rfl
    obtain ⟨merge', found', ready, same, tended', queued⟩ :=
      ih (merges_modifyMerge found _) requeued
        fun t member => (moved t).2 (members t (List.mem_cons_of_mem s member))
    refine ⟨merge', found', ready.trans (ready_enqueue _ s), ?_, tended', queued⟩
    intro t
    rw [same, moved]

/-! ## The next look -/

/-- Look at the next member: it goes behind the others if there was nothing to take yet, and leaves
if it has ended. -/
def lookNext (hub : Hub) (m : MergeId) (s : SubId) (rest : List SubId) : Poll (List Value) × Hub :=
  match (hub.modifyMerge m fun merge => { merge with queue := rest }).readMember m s with
  | (.pending, hub) => (.pending, hub.modifyMerge m (Merge.moveLast s))
  | (.ended, hub) => (.ended, hub.leave m s)
  | (.item values, hub) => (.item values, hub)

theorem standing_lookNext {s : SubId} {rest : List SubId} {outcome : Poll (List Value)} {hub' : Hub}
    (looked : hub.lookNext m s rest = (outcome, hub')) : hub'.standing = hub.standing := by
  have read := (hub.modifyMerge m fun merge => { merge with queue := rest }).standing_readMember m s
  unfold lookNext at looked
  split at looked
  all_goals
    next outcome' =>
      cases looked
      rwa [outcome'] at read

theorem pollQueue_cons (hub : Hub) (m : MergeId) (s : SubId) (rest : List SubId) :
    hub.pollQueue m (s :: rest) =
      match hub.lookNext m s rest with
      | (.item values, hub) => (.item ⟨s, hub.subRoute s, values⟩, hub.requeue m s)
      | (_, hub) => hub.pollQueue m rest := by
  rw [pollQueue, lookNext]
  cases (hub.modifyMerge m fun merge => { merge with queue := rest }).readMember m s with
  | mk outcome hub' => cases outcome <;> rfl

theorem reap_cons_self (hub : Hub) (m : MergeId) (s : SubId) (yielded rest : List SubId) :
    hub.reap m s yielded (s :: rest) =
      yielded.foldl (fun hub t => hub.requeue m t)
        ((hub.modifyMerge m fun merge => { merge with queue := rest }).releaseReader m s) := by
  rw [reap, if_pos rfl]

theorem reap_cons_of_ne (hub : Hub) (m : MergeId) {s t : SubId} (other : t ≠ s)
    (yielded rest : List SubId) :
    hub.reap m s yielded (t :: rest) =
      match hub.lookNext m t rest with
      | (.item values, hub) => (hub.modifyMerge m fun merge =>
          { merge with ready := merge.ready ++ [⟨t, hub.subRoute t, values⟩] }).reap m s
            (yielded ++ [t]) rest
      | (_, hub) => hub.reap m s yielded rest := by
  rw [reap, if_neg other, lookNext]
  cases (hub.modifyMerge m fun merge => { merge with queue := rest }).readMember m t with
  | mk outcome hub' => cases outcome <;> rfl

/-- **The next look.** What it takes is gone from the inbox of the member, which stays a member if
it yielded; nothing else changes.  The seats that are no members are listed in front. -/
theorem Tended.lookNext (extra : List SubId) {s : SubId} {rest : List SubId} {outcome : Poll (List Value)}
    {hub' : Hub} (found : hub.merges[m]? = some merge)
    (tended : hub.Tended m (s :: rest) (extra ++ merge.members)) (apart : s ∉ extra)
    (looked : hub.lookNext m s rest = (outcome, hub')) :
    ∃ merge', hub'.merges[m]? = some merge' ∧ merge'.queue = rest ∧ merge'.ready = merge.ready ∧
      (∀ t ∈ merge'.members, t ∈ merge.members) ∧
      (∀ t ∈ merge.members, t ≠ s ∨ outcome.items ≠ [] → t ∈ merge'.members) ∧
      hub'.Tended m rest (extra ++ merge'.members) ∧
      ∀ route t, hub.queued t = valuesOf t (outcome.items.map (Yield.mk s route)) ++ hub'.queued t := by
  let hub₁ := hub.modifyMerge m fun merge => { merge with queue := rest }
  have found₁ : hub₁.merges[m]? = some { merge with queue := rest } := merges_modifyMerge found _
  have tended₁ : hub₁.Tended m (s :: rest) (extra ++ merge.members) := tended.congr rfl
  unfold Hub.lookNext at looked
  cases read : hub₁.readMember m s with
  | mk outcome' hub₂ =>
    obtain ⟨merges, kept, gone, queued⟩ := tended₁.readMember hub₂ outcome' read
    have found₂ : hub₂.merges[m]? = some { merge with queue := rest } := by rw [merges, found₁]
    rw [read] at looked
    cases outcome' with
    | pending =>
      cases looked
      have same := mem_moveLast { merge with queue := rest } s
      refine ⟨_, merges_modifyMerge found₂ _, rfl, rfl, fun t => (same t).1,
        fun t member _ => (same t).2 member, ?_, queued⟩
      exact (kept.seats fun t => by rw [List.mem_append, List.mem_append, same t]).congr rfl
    | ended =>
      cases looked
      refine ⟨_, merges_modifyMerge found₂ _, rfl, rfl,
        fun t member => (List.mem_filter.1 member).1, ?_, ?_, queued⟩
      · intro t member stays
        have : t ≠ s := stays.resolve_right (by simp [Poll.items])
        simp [member, this]
      · have seats (t : SubId) : t ∈ extra ++ merge.members.filter (· != s) ↔
            t ∈ (extra ++ merge.members).filter (· != s) := by
          have : t ∈ extra → t ≠ s := by
            rintro member rfl
            exact apart member
          grind
        exact ((gone rfl).seats seats).congr rfl
    | item values =>
      cases looked
      exact ⟨_, found₂, rfl, rfl, fun t => id, fun t member _ => member, kept, queued⟩

/-- **What is yielded comes from one of the members,** and is told with its route. -/
structure Titled (hub : Hub) (members : List SubId) (item : Yield) : Prop where
  /-- It comes from a member. -/
  member : item.sub ∈ members
  /-- The route is that of the member. -/
  route : item.route = hub.subRoute item.sub

/-- Looks bring no new members, and leave the routes as they are. -/
theorem Titled.of_look {hub' : Hub} {members members' : List SubId} {item : Yield}
    (titled : hub'.Titled members' item) (same : hub'.standing = hub.standing)
    (fewer : ∀ t ∈ members', t ∈ members) : hub.Titled members item where
  member := fewer item.sub titled.member
  route := titled.route.trans (subRoute_of_standing same item.sub)

/-- It is told with the route of a subscription. -/
theorem Titled.subRoute? {members : List SubId} {item : Yield} (titled : hub.Titled members item)
    (sound : hub.Sound) (known : ∀ t ∈ members, t < hub.subscriptions.length) :
    hub.subRoute? item.sub = some item.route := by
  rw [titled.route]
  exact sound.subRoute?_eq (known item.sub titled.member)

/-! ## Looking until something comes -/

/-- **What a poll takes out of the inboxes is what it yields,** whatever the order of the looks, with
the route of the member. -/
theorem pollQueue_tended (order : List SubId) {hub : Hub} {merge : Merge}
    (found : hub.merges[m]? = some merge) (all : order.Perm merge.queue)
    (tended : hub.Tended m order merge.members) :
    ∃ merge', (hub.pollQueue m order).2.merges[m]? = some merge' ∧ merge'.ready = merge.ready ∧
      (hub.pollQueue m order).2.Tended m merge'.queue merge'.members ∧
      (∀ t, hub.queued t =
        valuesOf t (hub.pollQueue m order).1.items ++ (hub.pollQueue m order).2.queued t) ∧
      ∀ item ∈ (hub.pollQueue m order).1.items, hub.Titled merge.members item := by
  -- Until a member yields, every look leaves a stream whose queue is the rest of the order.
  induction order generalizing hub merge with
  | nil =>
    refine ⟨merge, found, rfl, ?_, ?_, ?_⟩
    · rw [all.nil_eq] at tended
      exact tended
    · intro t
      unfold pollQueue
      split <;> rfl
    · unfold pollQueue
      split <;> exact List.forall_mem_nil _
  | cons s rest ih =>
    have member := tended.queue_seated s List.mem_cons_self
    cases looked : hub.lookNext m s rest with
    | mk outcome hub₁ =>
      obtain ⟨merge₁, found₁, rfl, ready, fewer, stays, tended₁, queued⟩ :=
        Tended.lookNext [] found tended List.not_mem_nil looked
      have same := standing_lookNext looked
      rw [pollQueue_cons, looked]
      cases outcome with
      | item values =>
        obtain ⟨merge', found', ready', -, tended', -⟩ := Tended.requeueEach [s] found₁ tended₁
          (by simpa using stays s member (.inr (by simp [Poll.items])))
        exact ⟨merge', found', ready'.trans ready, tended', queued (hub₁.subRoute s),
          List.forall_mem_singleton.2 ⟨member, subRoute_of_standing same s⟩⟩
      | _ =>
        obtain ⟨merge', found', ready', tended', queued', titled⟩ :=
          ih found₁ (List.Perm.refl _) tended₁
        exact ⟨merge', found', ready'.trans ready, tended',
          fun t => (queued .everything t).trans (queued' t),
          fun item listed => (titled item listed).of_look same fewer⟩

/-- **Looking up to the member that is given up loses nothing:** what is taken waits to be yielded,
with the route of the member that it comes from. -/
theorem reap_tended (s : SubId) (order yielded : List SubId) {hub : Hub} {merge : Merge}
    (found : hub.merges[m]? = some merge) (listed : s ∈ order) (gone : s ∉ merge.members)
    (tended : hub.Tended m order (s :: merge.members))
    (later : ∀ t ∈ yielded, t ∈ merge.members ∧ t ∉ order) :
    ∃ merge', (hub.reap m s yielded order).merges[m]? = some merge' ∧
      (∀ t ∈ merge'.members, t ∈ merge.members) ∧
      (hub.reap m s yielded order).Tended m merge'.queue merge'.members ∧
      (∀ t, hub.waiting m t ++ hub.queued t =
        (hub.reap m s yielded order).waiting m t ++ (hub.reap m s yielded order).queued t) ∧
      ∃ kept, merge'.ready = merge.ready ++ kept ∧ ∀ item ∈ kept, hub.Titled merge.members item := by
  -- Members that have yielded are in no queue until `s` is gone, so they are carried along apart.
  induction order generalizing hub merge yielded with
  | nil => simp at listed
  | cons t rest ih =>
    obtain ⟨fresh, nodup⟩ := List.nodup_cons.1 tended.queue_nodup
    have waiting (t' : SubId) : hub.waiting m t' = valuesOf t' merge.ready := by
      rw [Hub.waiting, ready_of_found found]
    by_cases target : t = s
    · subst target
      let hub₁ := hub.modifyMerge m fun merge => { merge with queue := rest }
      have tended₁ : hub₁.Tended m (t :: rest) (t :: merge.members) := tended.congr rfl
      obtain ⟨merges, released, queued⟩ := tended₁.releaseReader
      have found₁ : (hub₁.releaseReader m t).merges[m]? = some { merge with queue := rest } := by
        rw [merges]
        exact merges_modifyMerge found _
      obtain ⟨merge', found', ready, same, tended', requeued⟩ :=
        Tended.requeueEach yielded found₁ released fun t' member => (later t' member).1
      rw [reap_cons_self]
      refine ⟨merge', found', fun t' => (same t').1, tended', ?_, [], ?_, List.forall_mem_nil _⟩
      · intro t'
        rw [waiting, Hub.waiting, ready_of_found found', ready, requeued, queued]
        rfl
      · rw [ready, List.append_nil]
    · have listed' : s ∈ rest := (List.mem_cons.1 listed).resolve_left (Ne.symm target)
      have member : t ∈ merge.members :=
        (List.mem_cons.1 (tended.queue_seated t List.mem_cons_self)).resolve_left target
      cases looked : hub.lookNext m t rest with
      | mk outcome hub₁ =>
        obtain ⟨merge₁, found₁, rfl, ready, fewer, stays, tended₁, queued⟩ :=
          Tended.lookNext [s] found tended (by simpa using target) looked
        have same := standing_lookNext looked
        have later₁ : ∀ t' ∈ yielded, t' ∈ merge₁.members ∧ t' ∉ merge₁.queue := by
          intro t' yielded
          obtain ⟨member', behind⟩ := later t' yielded
          have : t' ≠ t := fun same => behind (by simp [same])
          exact ⟨stays t' member' (.inl this), fun listed => behind (List.mem_cons_of_mem t listed)⟩
        rw [reap_cons_of_ne hub m target, looked]
        cases outcome with
        | item values =>
          let item : Yield := ⟨t, hub₁.subRoute t, values⟩
          have found₂ := merges_modifyMerge found₁ fun merge =>
            { merge with ready := merge.ready ++ [item] }
          obtain ⟨merge', found', fewer', tended', kept, more, ready', titled⟩ :=
            ih (yielded ++ [t]) found₂ listed' (fun member => gone (fewer s member))
              (tended₁.congr rfl) fun t' member' => by
              rcases List.mem_append.1 member' with earlier | last
              · exact later₁ t' earlier
              · obtain rfl := List.mem_singleton.1 last
                exact ⟨stays t' member (.inr (by simp [Poll.items])), fresh⟩
          refine ⟨merge', found', fun t' member => fewer t' (fewer' t' member), tended', ?_,
            item :: more, ?_, ?_⟩
          · intro t'
            -- What was taken out of the inbox of `t` stands at the end of what is waiting.
            rw [← kept t', waiting, Hub.waiting, ready_of_found found₂, valuesOf_append, ready,
              List.append_assoc]
            exact congrArg _ (queued item.route t')
          · rw [ready', ← ready, List.append_assoc]
            rfl
          · refine List.forall_mem_cons.2 ⟨⟨member, subRoute_of_standing same t⟩, ?_⟩
            exact fun other listed => (titled other listed).of_look same fewer
        | _ =>
          obtain ⟨merge', found', fewer', tended', kept, more, ready', titled⟩ :=
            ih yielded found₁ listed' (fun member => gone (fewer s member)) tended₁ later₁
          refine ⟨merge', found', fun t' member => fewer t' (fewer' t' member), tended', ?_, more,
            ready'.trans (by rw [ready]), fun other listed => (titled other listed).of_look same fewer⟩
          intro t'
          rw [← kept t', waiting, Hub.waiting, ready_of_found found₁, ready]
          exact congrArg _ (queued .everything t')

end Hub

end SoundControl
