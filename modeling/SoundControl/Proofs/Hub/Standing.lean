import SoundControl.Proofs.Hub.Effects

/-!
# Who is listed where

A handle lists its subscriptions, and a subscription knows its handle and whether it is active.
These two records are kept apart and changed one after the other, and they agree all the same: a
handle lists exactly its active subscriptions.

* **`Hub.standing`** — both records, without inboxes and readers.  Deliveries, readings and merged
  streams leave it as it is.
* **`Hub.Sound`** — the records agree.
* **`Sound.subscribe`**, **`Sound.withdraw`**, **`Sound.unsubscribeAll`** — they agree after a
  change.
-/

namespace SoundControl

namespace Hub

variable {hub hub' : Hub}

/-- **The lists of the handles, and of every subscription its handle and whether it is active.** -/
def standing (hub : Hub) : List Handle × List (HandleId × Bool) :=
  (hub.handles, hub.subscriptions.map fun sub => (sub.handle, sub.active))

/-- **A handle lists exactly its active subscriptions, each once,** and every subscription has a
handle that exists. -/
structure Sound (hub : Hub) : Prop where
  /-- Listed are the active ones. -/
  listed : ∀ h s, s ∈ hub.subscribers h ↔ hub.handle? s = some h ∧ hub.isActive s = true
  /-- Each is listed once. -/
  nodup : ∀ h, (hub.subscribers h).Nodup
  /-- The handle exists. -/
  homed : ∀ s h, hub.handle? s = some h → h < hub.handles.length

/-! ## What is read off the standing -/

theorem subscribers_of_standing (same : hub'.standing = hub.standing) (h : HandleId) :
    hub'.subscribers h = hub.subscribers h := by
  have handles : hub'.handles = hub.handles := congrArg Prod.fst same
  rw [subscribers_eq, subscribers_eq, handles]

theorem routing_of_standing (same : hub'.standing = hub.standing) :
    hub'.routing = hub.routing :=
  routing_congr (congrArg Prod.fst same)

theorem handle?_of_standing (same : hub'.standing = hub.standing) (s : SubId) :
    hub'.handle? s = hub.handle? s := by
  have entry : (hub'.standing.2[s]?).map Prod.fst = (hub.standing.2[s]?).map Prod.fst := by rw [same]
  simpa [standing, handle?, Function.comp_def] using entry

theorem isActive_of_standing (same : hub'.standing = hub.standing) (s : SubId) :
    hub'.isActive s = hub.isActive s := by
  have entry : (hub'.standing.2[s]?).any Prod.snd = (hub.standing.2[s]?).any Prod.snd := by rw [same]
  simpa [standing, isActive, Option.any_map, Function.comp_def] using entry

theorem route?_of_standing (same : hub'.standing = hub.standing) (h : HandleId) :
    hub'.route? h = hub.route? h := by
  rw [route?_eq, route?_eq, routing_of_standing same]

theorem subRoute?_of_standing (same : hub'.standing = hub.standing) (s : SubId) :
    hub'.subRoute? s = hub.subRoute? s := by
  have routes : hub'.route? = hub.route? := funext (route?_of_standing same)
  rw [subRoute?, subRoute?, handle?_of_standing same, routes]

theorem subRoute_of_standing (same : hub'.standing = hub.standing) (s : SubId) :
    hub'.subRoute s = hub.subRoute s := by
  rw [subRoute, subRoute, subRoute?_of_standing same]

theorem count_of_standing (same : hub'.standing = hub.standing) :
    hub'.subscriptions.length = hub.subscriptions.length := by
  have lengths : hub'.standing.2.length = hub.standing.2.length := by rw [same]
  simpa [standing] using lengths

/-- Agreement depends on the standing alone. -/
theorem Sound.of_standing (sound : hub.Sound) (same : hub'.standing = hub.standing) :
    hub'.Sound where
  listed h s := by
    rw [subscribers_of_standing same, handle?_of_standing same, isActive_of_standing same]
    exact sound.listed h s
  nodup h := by
    rw [subscribers_of_standing same]
    exact sound.nodup h
  homed s h found := by
    rw [handle?_of_standing same] at found
    have handles : hub'.handles = hub.handles := congrArg Prod.fst same
    rw [handles]
    exact sound.homed s h found

/-- Every subscription has a route, which is the one its readers are told. -/
theorem Sound.subRoute?_eq (sound : hub.Sound) {s : SubId} (known : s < hub.subscriptions.length) :
    hub.subRoute? s = some (hub.subRoute s) := by
  have own := handle?_of_found (List.getElem?_eq_getElem known)
  have home := List.getElem?_eq_getElem (sound.homed s _ own)
  rw [subRoute, subRoute?, own, Option.bind_some, route?, home]
  rfl

/-! ## What leaves the standing as it is -/

theorem standing_modifySub (hub : Hub) (s : SubId) {f : Subscription → Subscription}
    (keeps : ∀ sub, (f sub).handle = sub.handle ∧ (f sub).active = sub.active) :
    (hub.modifySub s f).standing = hub.standing := by
  unfold standing
  rw [handles_modifySub, Prod.mk.injEq]
  refine ⟨rfl, List.ext_getElem? fun t => ?_⟩
  rw [List.getElem?_map, List.getElem?_map, getElem?_modifySub]
  split
  · cases hub.subscriptions[t]? with
    | none => rfl
    | some sub => simp [keeps sub]
  · rfl

/-- Hubs with the same handles and subscriptions have the same standing. -/
theorem standing_congr (handles : hub'.handles = hub.handles)
    (subscriptions : hub'.subscriptions = hub.subscriptions) : hub'.standing = hub.standing := by
  unfold standing
  rw [handles, subscriptions]

@[simp] theorem standing_modifyMerge (hub : Hub) (m : MergeId) (f : Merge → Merge) :
    (hub.modifyMerge m f).standing = hub.standing := rfl

@[simp] theorem standing_wake (hub : Hub) (s : SubId) : (hub.wake s).standing = hub.standing :=
  standing_congr (hub.handles_wake s) (hub.subscriptions_wake s)

@[simp] theorem standing_deliver (hub : Hub) (s : SubId) (values : List Value) :
    (hub.deliver s values).2.standing = hub.standing := by
  rw [← hub.standing_modifySub s (f := Subscription.accept values) (by simp)]
  exact standing_congr (hub.handles_deliver s values) (hub.subscriptions_deliver s values)

@[simp] theorem standing_deliverEach (hub : Hub) (ids : List SubId) (values : List Value) :
    (hub.deliverEach ids values).2.standing = hub.standing := by
  induction ids generalizing hub with
  | nil => rfl
  | cons s ids ih => rw [deliverEach_cons, ih, standing_deliver]

@[simp] theorem standing_publish (hub : Hub) (h : HandleId) (values : List Value) :
    (hub.publish h values).2.standing = hub.standing :=
  hub.standing_deliverEach _ _

@[simp] theorem standing_take (hub : Hub) (s : SubId) : (hub.take s).2.standing = hub.standing := by
  cases found : hub.subscriptions[s]? with
  | none => simp [take, found]
  | some sub =>
    rw [take_of_found found]
    exact hub.standing_modifySub s (by simp)

@[simp] theorem standing_next (hub : Hub) (s : SubId) : (hub.next s).2.standing = hub.standing := by
  unfold next
  split
  · rfl
  · exact hub.standing_take s

@[simp] theorem standing_retain (hub : Hub) (ids : List SubId) :
    (hub.retain ids).standing = hub.standing := by
  unfold standing
  rw [Prod.mk.injEq]
  refine ⟨rfl, List.ext_getElem? fun t => ?_⟩
  simp [retain, Function.comp_def]

/-! ### Merged streams -/

@[simp] theorem standing_addMerge (hub : Hub) : hub.addMerge.2.standing = hub.standing := rfl

@[simp] theorem standing_attach (hub : Hub) (m : MergeId) (s : SubId) :
    (hub.attach m s).2.standing = hub.standing := by
  unfold attach
  split <;> rfl

@[simp] theorem standing_releaseReader (hub : Hub) (m : MergeId) (s : SubId) :
    (hub.releaseReader m s).standing = hub.standing := by
  have released : (hub.modifySub s fun sub =>
      { sub with readers := sub.readers.filter (· != m) }).standing = hub.standing :=
    hub.standing_modifySub s (by simp)
  unfold releaseReader
  split
  · rfl
  · dsimp only
    split
    · rw [standing_wake, released]
    · exact released

@[simp] theorem standing_joinReaders (hub : Hub) (m : MergeId) (s : SubId) :
    (hub.joinReaders m s).standing = hub.standing := by
  refine hub.standing_modifySub s fun sub => ?_
  split <;> exact ⟨rfl, rfl⟩

@[simp] theorem standing_readMember (hub : Hub) (m : MergeId) (s : SubId) :
    (hub.readMember m s).2.standing = hub.standing := by
  have taken := hub.standing_take s
  unfold readMember
  split
  · simp
  · split <;> simp_all

theorem standing_pollQueue (hub : Hub) (m : MergeId) (order : List SubId) :
    (hub.pollQueue m order).2.standing = hub.standing := by
  induction order generalizing hub with
  | nil => rfl
  | cons s rest ih =>
    have read := (hub.modifyMerge m fun merge => { merge with queue := rest }).standing_readMember m s
    unfold pollQueue
    split <;> simp_all [leave, requeue]

theorem standing_pollIn (hub : Hub) (m : MergeId) (order : List SubId) :
    (hub.pollIn m order).2.standing = hub.standing := by
  unfold pollIn
  split
  · rfl
  · exact hub.standing_pollQueue m order

theorem standing_requeueEach (hub : Hub) (m : MergeId) (ids : List SubId) :
    (ids.foldl (fun hub t => hub.requeue m t) hub).standing = hub.standing := by
  induction ids generalizing hub with
  | nil => rfl
  | cons t ids ih => rw [List.foldl_cons, ih, requeue, standing_modifyMerge]

theorem standing_reap (hub : Hub) (m : MergeId) (s : SubId) (yielded order : List SubId) :
    (hub.reap m s yielded order).standing = hub.standing := by
  induction order generalizing hub yielded with
  | nil => exact hub.standing_requeueEach m yielded
  | cons t rest ih =>
    have read := (hub.modifyMerge m fun merge => { merge with queue := rest }).standing_readMember m t
    unfold reap
    dsimp only
    split
    · rw [standing_requeueEach, standing_releaseReader, standing_modifyMerge]
    · split <;> simp_all [leave]

theorem standing_detachIn (hub : Hub) (m : MergeId) (s : SubId) (order : List SubId) :
    (hub.detachIn m s order).2.standing = hub.standing := by
  unfold detachIn
  split
  · exact standing_reap _ m s [] order
  · rfl

theorem standing_closeMerge (hub : Hub) (m : MergeId) :
    (hub.closeMerge m).standing = hub.standing := by
  have released (ids : List SubId) :
      (ids.foldr (fun s hub => hub.releaseReader m s) hub).standing = hub.standing := by
    induction ids with
    | nil => rfl
    | cons s ids ih => rw [List.foldr_cons, standing_releaseReader, ih]
  unfold closeMerge
  rw [standing_modifyMerge, released]

/-! ## What changes it -/

@[simp] theorem handle?_terminate (hub : Hub) (s t : SubId) :
    (hub.terminate s).2.handle? t = hub.handle? t := by
  rw [handle?, subscriptions_terminate, List.getElem?_modify, handle?]
  cases hub.subscriptions[t]? with
  | none => rfl
  | some sub => by_cases here : s = t <;> simp [here]

/-- After the end of a subscription, the others are active that were. -/
theorem isActive_terminate (hub : Hub) (s t : SubId) :
    (hub.terminate s).2.isActive t = (hub.isActive t && t != s) := by
  rw [isActive, subscriptions_terminate, List.getElem?_modify, isActive]
  cases hub.subscriptions[t]? with
  | none => rfl
  | some sub =>
    by_cases here : s = t
    · simp [here]
    · simp [here, Ne.symm here]

theorem handle?_terminateEach (hub : Hub) (ids : List SubId) (t : SubId) :
    (hub.terminateEach ids).handle? t = hub.handle? t := by
  rw [handle?, getElem?_terminateEach, handle?]
  split
  · cases hub.subscriptions[t]? <;> simp
  · rfl

theorem isActive_terminateEach (hub : Hub) (ids : List SubId) (t : SubId) :
    (hub.terminateEach ids).isActive t = (hub.isActive t && !ids.contains t) := by
  rw [isActive, getElem?_terminateEach, isActive]
  by_cases ended : t ∈ ids
  · rw [if_pos ended]
    cases hub.subscriptions[t]? <;> simp [ended]
  · simp [ended]

/-- The empty hub. -/
theorem sound_empty : ({} : Hub).Sound where
  listed h s := by simp [subscribers, handle?]
  nodup h := by simp [subscribers]
  homed s h found := by simp [handle?] at found

theorem Sound.addHandle (sound : hub.Sound) (route : Route) : (hub.addHandle route).2.Sound := by
  have subscribers (h : HandleId) : (hub.addHandle route).2.subscribers h = hub.subscribers h := by
    rw [subscribers_eq, subscribers_eq, Hub.addHandle, List.getElem?_append]
    split
    next => rfl
    next beyond =>
      have unknown : hub.handles[h]? = none := List.getElem?_eq_none (Nat.not_lt.1 beyond)
      rw [unknown]
      cases h - hub.handles.length <;> simp
  constructor
  · intro h s
    rw [subscribers]
    exact sound.listed h s
  · intro h
    rw [subscribers]
    exact sound.nodup h
  · intro s h found
    have := sound.homed s h found
    rw [Hub.addHandle, List.length_append, List.length_singleton]
    exact Nat.lt_succ_of_lt this

/-- The place of a new subscription is free. -/
theorem Sound.fresh (sound : hub.Sound) (h : HandleId) :
    hub.subscriptions.length ∉ hub.subscribers h := by
  intro listed
  obtain ⟨found, -⟩ := (sound.listed h _).1 listed
  simp [handle?] at found

theorem getElem?_subscribe (hub : Hub) (h : HandleId) (t : SubId) :
    (hub.subscribe h).2.subscriptions[t]? =
      if t = hub.subscriptions.length then some { handle := h } else hub.subscriptions[t]? := by
  rw [subscribe, subscriptions_modifyHandle, List.getElem?_append]
  by_cases known : t < hub.subscriptions.length
  · rw [if_pos known, if_neg (Nat.ne_of_lt known)]
  · rw [if_neg known, List.getElem?_singleton]
    by_cases next : t = hub.subscriptions.length
    · simp [next]
    · have unknown : hub.subscriptions[t]? = none := List.getElem?_eq_none (Nat.not_lt.1 known)
      have beyond : hub.subscriptions.length < t :=
        Nat.lt_of_le_of_ne (Nat.not_lt.1 known) (Ne.symm next)
      rw [if_neg (Nat.sub_ne_zero_of_lt beyond), if_neg next, unknown]

theorem Sound.subscribe (sound : hub.Sound) {h : HandleId} (known : h < hub.handles.length) :
    (hub.subscribe h).2.Sound := by
  have subscribers (g : HandleId) : (hub.subscribe h).2.subscribers g =
      if h = g then hub.subscribers g ++ [hub.subscriptions.length] else hub.subscribers g := by
    let grown := { hub with
      subscriptions := hub.subscriptions ++ [({ handle := h } : Subscription)] }
    exact grown.subscribers_modifyHandle (· ++ [hub.subscriptions.length]) (.inl known) g
  have handle? (s : SubId) : (hub.subscribe h).2.handle? s =
      if s = hub.subscriptions.length then some h else hub.handle? s := by
    rw [Hub.handle?, getElem?_subscribe, Hub.handle?]
    split <;> rfl
  have isActive (s : SubId) : (hub.subscribe h).2.isActive s =
      if s = hub.subscriptions.length then true else hub.isActive s := by
    rw [Hub.isActive, getElem?_subscribe, Hub.isActive]
    split <;> rfl
  have fresh := sound.fresh
  constructor
  · intro g s
    rw [subscribers, handle?, isActive]
    by_cases new : s = hub.subscriptions.length
    · subst new
      by_cases here : h = g <;> simp [here, fresh]
    · by_cases here : h = g <;> simp [here, new, sound.listed]
  · intro g
    rw [subscribers]
    split
    · refine List.nodup_append.2 ⟨sound.nodup g, by simp, ?_⟩
      rintro s listed t last rfl
      rw [List.mem_singleton] at last
      subst last
      exact fresh g listed
    · exact sound.nodup g
  · intro s g found
    have length : (hub.subscribe h).2.handles.length = hub.handles.length := by
      simp [Hub.subscribe, modifyHandle]
    rw [length]
    rw [handle?] at found
    split at found
    · cases found
      exact known
    · exact sound.homed s g found

/-- **A subscription that is withdrawn is taken off the list it is on, and off no other.** -/
theorem Sound.withdraw (sound : hub.Sound) (h : HandleId) (s : SubId) :
    (hub.withdraw h s).2.Sound := by
  unfold Hub.withdraw
  split
  case isFalse => exact sound
  case isTrue own =>
    have subscribers (g : HandleId) :=
      hub.subscribers_modifyHandle (List.filter (· != s)) (h := h) (.inr rfl) g
    have same := handles_terminate (hub.modifyHandle h fun handle =>
      { handle with subscribers := handle.subscribers.filter (· != s) }) s
    have listed (g : HandleId) : ((hub.modifyHandle h fun handle =>
        { handle with subscribers := handle.subscribers.filter (· != s) }).terminate s).2.subscribers g =
        if h = g then (hub.subscribers g).filter (· != s) else hub.subscribers g := by
      rw [subscribers_eq, same, ← subscribers_eq, subscribers]
    have unchanged (t : SubId) : (hub.modifyHandle h fun handle =>
        { handle with subscribers := handle.subscribers.filter (· != s) }).handle? t =
        hub.handle? t := rfl
    have active (t : SubId) : (hub.modifyHandle h fun handle =>
        { handle with subscribers := handle.subscribers.filter (· != s) }).isActive t =
        hub.isActive t := rfl
    constructor
    · intro g t
      rw [listed, handle?_terminate, isActive_terminate, unchanged, active]
      by_cases here : h = g
      · subst here
        simp [sound.listed, and_assoc]
      · rw [if_neg here, sound.listed]
        constructor
        · rintro ⟨found, alive⟩
          -- The one withdrawn belongs to another handle.
          have : t ≠ s := by
            rintro rfl
            rw [own, Option.some.injEq] at found
            exact here found
          simp [found, alive, this]
        · rintro ⟨found, alive⟩
          simp only [Bool.and_eq_true] at alive
          exact ⟨found, alive.1⟩
    · intro g
      rw [listed]
      split
      · exact (sound.nodup g).filter _
      · exact sound.nodup g
    · intro t g found
      rw [handle?_terminate, unchanged] at found
      rw [same, modifyHandle, List.length_modify]
      exact sound.homed t g found

theorem Sound.unsubscribe (sound : hub.Sound) (s : SubId) : (hub.unsubscribe s).2.Sound := by
  unfold Hub.unsubscribe
  split
  · exact sound.withdraw _ s
  · exact sound

/-- **A handle whose subscriptions are all ended lists none.** -/
theorem Sound.unsubscribeAll (sound : hub.Sound) (h : HandleId) :
    (hub.unsubscribeAll h).2.Sound := by
  have listed (g : HandleId) : (hub.unsubscribeAll h).2.subscribers g =
      if h = g then [] else hub.subscribers g := by
    rw [subscribers_eq, Hub.unsubscribeAll, handles_terminateEach, ← subscribers_eq]
    exact hub.subscribers_modifyHandle (fun _ => []) (.inr rfl) g
  have handle? (t : SubId) : (hub.unsubscribeAll h).2.handle? t = hub.handle? t := by
    rw [Hub.unsubscribeAll, handle?_terminateEach]
    rfl
  have isActive (t : SubId) : (hub.unsubscribeAll h).2.isActive t =
      (hub.isActive t && !(hub.subscribers h).contains t) := by
    rw [Hub.unsubscribeAll, isActive_terminateEach]
    rfl
  constructor
  · intro g t
    rw [listed, handle?, isActive]
    by_cases here : h = g
    · subst here
      simp only [if_pos, List.not_mem_nil, false_iff]
      rintro ⟨found, alive⟩
      simp [sound.listed, found] at alive
    · rw [if_neg here, sound.listed]
      constructor
      · rintro ⟨found, alive⟩
        -- It belongs to another handle, so it was not ended.
        have : t ∉ hub.subscribers h := by
          intro listed
          have := ((sound.listed h t).1 listed).1
          rw [found, Option.some.injEq] at this
          exact here this.symm
        simp [found, alive, this]
      · rintro ⟨found, alive⟩
        simp only [Bool.and_eq_true] at alive
        exact ⟨found, alive.1⟩
  · intro g
    rw [listed]
    split
    · exact List.nodup_nil
    · exact sound.nodup g
  · intro t g found
    have length : (hub.unsubscribeAll h).2.handles.length = hub.handles.length := by
      rw [Hub.unsubscribeAll, handles_terminateEach, modifyHandle, List.length_modify]
    rw [length]
    rw [handle?] at found
    exact sound.homed t g found

end Hub

end SoundControl
