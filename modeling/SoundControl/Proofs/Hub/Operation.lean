import SoundControl.Proofs.Hub.Standing

/-!
# Operations and runs

A run is any sequence of whole operations on the handles and subscriptions that exist, with the
answers they gave.  What an operation does to a subscription depends on that subscription alone.

* **`Operation`**, **`Hub.perform`** — what can be done, and doing it.
* **`Hub.Permits`** — the operation is about what exists.
* **`Run`** — the hubs reached by a sequence of events; **`replay`** computes one.
* **`Operation.effect`**, **`Hub.getElem?_perform`** — what an operation makes of a subscription.
-/

namespace SoundControl

/-- **What can be done to handles and subscriptions.** -/
inductive Operation where
  /-- Make a handle of a route. -/
  | create (route : Route)
  /-- Subscribe to a handle. -/
  | subscribe (h : HandleId)
  /-- Publish values through a handle. -/
  | publish (h : HandleId) (values : List Value)
  /-- Publish values to one subscription. -/
  | deliver (s : SubId) (values : List Value)
  /-- End a subscription. -/
  | unsubscribe (s : SubId)
  /-- End a subscription through a handle, which may be that of another one. -/
  | withdraw (h : HandleId) (s : SubId)
  /-- End all subscriptions of a handle. -/
  | unsubscribeAll (h : HandleId)
  /-- Ask for the next values of a subscription. -/
  | next (s : SubId)

/-- What an operation answers. -/
inductive Answer where
  /-- The new handle. -/
  | handle (h : HandleId)
  /-- The new subscription. -/
  | subscription (s : SubId)
  /-- How many subscriptions were reached. -/
  | count (n : Nat)
  /-- Whether something was done. -/
  | done (yes : Bool)
  /-- What there was to read. -/
  | poll (outcome : Poll (List Value))

/-- An operation and what it answered. -/
structure Event where
  /-- What was done. -/
  operation : Operation
  /-- What came of it. -/
  answer : Answer

namespace Operation

/-- The values that an operation publishes to subscription `s` of handle `h`. -/
def values? (h : HandleId) (s : SubId) : Operation → Option (List Value)
  | .publish g values => if g = h then some values else none
  | .deliver t values => if t = s then some values else none
  | _ => none

/-- Whether an operation ends subscription `s` of handle `h`. -/
def ends (h : HandleId) (s : SubId) : Operation → Bool
  | .unsubscribe t => t == s
  | .withdraw g t => g == h && t == s
  | .unsubscribeAll g => g == h
  | _ => false

/-- Whether an operation reads subscription `s`. -/
def reads (s : SubId) : Operation → Bool
  | .next t => t == s
  | _ => false

/-- **What an operation makes of subscription `s`.** -/
def effect (op : Operation) (s : SubId) (sub : Subscription) : Subscription :=
  if op.reads s then sub.advance
  else if op.ends sub.handle s then sub.close
  else match op.values? sub.handle s with
    | some values => sub.accept values
    | none => sub

@[simp] theorem handle_effect (op : Operation) (s : SubId) (sub : Subscription) :
    (op.effect s sub).handle = sub.handle := by
  unfold effect
  repeat' split
  all_goals simp

@[simp] theorem readers_effect (op : Operation) (s : SubId) (sub : Subscription) :
    (op.effect s sub).readers = sub.readers := by
  unfold effect
  repeat' split
  all_goals simp

theorem eq_next_of_reads {op : Operation} {s : SubId} (reads : op.reads s = true) :
    op = .next s := by
  cases op <;> simp_all [Operation.reads]

/-- Reading is not ending. -/
theorem not_ends_of_reads {op : Operation} {s : SubId} (reads : op.reads s = true) (h : HandleId) :
    op.ends h s = false := by
  cases op <;> simp_all [Operation.reads, ends]

/-- Reading is not publishing. -/
theorem values?_of_reads {op : Operation} {s : SubId} (reads : op.reads s = true) (h : HandleId) :
    op.values? h s = none := by
  cases op <;> simp_all [Operation.reads, values?]

/-- Ending is not publishing. -/
theorem values?_of_ends {op : Operation} {h : HandleId} {s : SubId} (ends : op.ends h s = true) :
    op.values? h s = none := by
  cases op <;> simp_all [Operation.ends, values?]

/-- **A subscription is active until it is ended.** -/
theorem active_effect (op : Operation) (s : SubId) (sub : Subscription) :
    (op.effect s sub).active = (sub.active && !op.ends sub.handle s) := by
  unfold effect
  split
  next reads => simp [not_ends_of_reads reads]
  next =>
    split
    next ended => simp [ended]
    next going => split <;> simp [going]

end Operation

namespace Hub

variable {hub : Hub}

/-- **Do an operation.** -/
def perform (hub : Hub) : Operation → Answer × Hub
  | .create route => (hub.addHandle route).map .handle id
  | .subscribe h => (hub.subscribe h).map .subscription id
  | .publish h values => (hub.publish h values).map .count id
  | .deliver s values => (hub.deliver s values).map .done id
  | .unsubscribe s => (hub.unsubscribe s).map .done id
  | .withdraw h s => (hub.withdraw h s).map .done id
  | .unsubscribeAll h => (hub.unsubscribeAll h).map .count id
  | .next s => (hub.next s).map .poll id

/-- **The handles and subscriptions of an operation exist.** -/
def Permits (hub : Hub) : Operation → Prop
  | .create _ => True
  | .subscribe h | .publish h _ | .unsubscribeAll h => h < hub.handles.length
  | .deliver s _ | .unsubscribe s | .next s => s < hub.subscriptions.length
  | .withdraw h s => h < hub.handles.length ∧ s < hub.subscriptions.length

instance (hub : Hub) (op : Operation) : Decidable (hub.Permits op) :=
  match op with
  | .create _ => inferInstanceAs (Decidable True)
  | .subscribe h | .publish h _ | .unsubscribeAll h =>
    inferInstanceAs (Decidable (h < hub.handles.length))
  | .deliver s _ | .unsubscribe s | .next s =>
    inferInstanceAs (Decidable (s < hub.subscriptions.length))
  | .withdraw h s =>
    inferInstanceAs (Decidable (h < hub.handles.length ∧ s < hub.subscriptions.length))

/-- No merged stream waits for the subscription. -/
def Idle (hub : Hub) (s : SubId) : Prop :=
  ∀ sub, hub.subscriptions[s]? = some sub → sub.readers = []

/-- Without a merged stream, asking for the next values is reading the inbox. -/
theorem next_of_idle {s : SubId} (idle : hub.Idle s) : hub.next s = hub.take s := by
  unfold next
  rw [if_neg]
  cases found : hub.subscriptions[s]? with
  | none => simp
  | some sub => simp [idle sub found]

theorem Sound.perform (sound : hub.Sound) {op : Operation} (permitted : hub.Permits op) :
    (hub.perform op).2.Sound := by
  cases op with
  | create route => exact sound.addHandle route
  | subscribe h => exact sound.subscribe permitted
  | publish h values => exact sound.of_standing (hub.standing_publish h values)
  | deliver s values => exact sound.of_standing (hub.standing_deliver s values)
  | unsubscribe s => exact sound.unsubscribe s
  | withdraw h s => exact sound.withdraw h s
  | unsubscribeAll h => exact sound.unsubscribeAll h
  | next s => exact sound.of_standing (hub.standing_next s)

/-- **What publishing makes of a subscription.** -/
theorem Sound.publish_of_found (sound : hub.Sound) {s : SubId} {sub : Subscription}
    (found : hub.subscriptions[s]? = some sub) (h : HandleId) (values : List Value) :
    (hub.publish h values).2.subscriptions[s]? =
      some (if sub.handle = h then sub.accept values else sub) := by
  have listed : s ∈ hub.subscribers h ↔ sub.handle = h ∧ sub.active = true := by
    rw [sound.listed, handle?_of_found found, isActive_of_found found, Option.some.injEq]
  rw [getElem?_publish hub (sound.nodup h), found]
  cases active : sub.active with
  | true => simp [listed, active, apply_ite some]
  | false =>
    -- One that has ended is not listed, and would not take the values.
    have : sub.takes = false := by simp [Subscription.takes, active]
    simp [listed, active, Subscription.accept_of_not_takes this]

/-- **What ending all subscriptions of a handle makes of a subscription.** -/
theorem Sound.unsubscribeAll_of_found (sound : hub.Sound) {s : SubId} {sub : Subscription}
    (found : hub.subscriptions[s]? = some sub) (h : HandleId) :
    (hub.unsubscribeAll h).2.subscriptions[s]? =
      some (if sub.handle = h then sub.close else sub) := by
  have listed : s ∈ hub.subscribers h ↔ sub.handle = h ∧ sub.active = true := by
    rw [sound.listed, handle?_of_found found, isActive_of_found found, Option.some.injEq]
  rw [getElem?_unsubscribeAll, found]
  cases active : sub.active with
  | true => simp [listed, active, apply_ite some]
  | false => simp [listed, active, Subscription.close_of_inactive active]

/-- What reading another subscription, or this one, makes of a subscription. -/
theorem next_of_found {s t : SubId} {sub : Subscription} (idle : t = s → hub.Idle s)
    (found : hub.subscriptions[s]? = some sub) :
    (hub.next t).2.subscriptions[s]? = some (if t = s then sub.advance else sub) := by
  by_cases here : t = s
  · subst here
    rw [next_of_idle (idle rfl), take_of_found found, getElem?_modifySub, found]
    simp
  · rw [if_neg here]
    unfold next
    split
    · exact found
    · cases taken : hub.subscriptions[t]? with
      | none => simp [take, taken, found]
      | some sub' => rw [take_of_found taken, getElem?_modifySub, if_neg here, found]

/-- **What an operation makes of a subscription that exists.** A reading must not be kept waiting
by a merged stream. -/
theorem getElem?_perform (sound : hub.Sound) {op : Operation} {s : SubId} {sub : Subscription}
    (idle : op.reads s = true → hub.Idle s) (found : hub.subscriptions[s]? = some sub) :
    (hub.perform op).2.subscriptions[s]? = some (op.effect s sub) := by
  -- Each case is what the operation makes of one subscription, with the effect read off for `s`.
  unfold Operation.effect
  cases op with
  | create route => exact found
  | subscribe h =>
    have known : s < hub.subscriptions.length := (List.getElem?_eq_some_iff.1 found).1
    show (hub.subscribe h).2.subscriptions[s]? = some sub
    rw [getElem?_subscribe, if_neg (Nat.ne_of_lt known), found]
  | publish h values =>
    refine (sound.publish_of_found found h values).trans ?_
    by_cases own : sub.handle = h
    · simp [Operation.reads, Operation.ends, Operation.values?, own]
    · simp [Operation.reads, Operation.ends, Operation.values?, own, Ne.symm own]
  | deliver t values =>
    refine (hub.getElem?_deliver t s values).trans ?_
    rw [found]
    by_cases here : t = s <;> simp [Operation.reads, Operation.ends, Operation.values?, here]
  | unsubscribe t =>
    refine (hub.getElem?_unsubscribe t s).trans ?_
    rw [found]
    by_cases here : t = s <;> simp [Operation.reads, Operation.ends, Operation.values?, here]
  | withdraw h t =>
    refine (hub.getElem?_withdraw h t s).trans ?_
    rw [found]
    by_cases here : t = s
    · by_cases own : sub.handle = h
      · simp [Operation.reads, Operation.ends, here, own]
      · simp [Operation.reads, Operation.ends, Operation.values?, here, own, Ne.symm own]
    · simp [Operation.reads, Operation.ends, Operation.values?, here]
  | unsubscribeAll h =>
    refine (sound.unsubscribeAll_of_found found h).trans ?_
    by_cases own : sub.handle = h
    · simp [Operation.reads, Operation.ends, own]
    · simp [Operation.reads, Operation.ends, Operation.values?, own, Ne.symm own]
  | next t =>
    have idle' (here : t = s) : hub.Idle s := idle (by simp [Operation.reads, here])
    refine (next_of_found idle' found).trans ?_
    by_cases here : t = s <;> simp [Operation.reads, Operation.ends, Operation.values?, here]

theorem routing_withdraw (hub : Hub) (h : HandleId) (s : SubId) :
    (hub.withdraw h s).2.routing = hub.routing := by
  unfold withdraw
  split
  · rw [routing_congr (handles_terminate _ s)]
    exact hub.routing_modifyHandle h _
  · rfl

theorem routing_unsubscribeAll (hub : Hub) (h : HandleId) :
    (hub.unsubscribeAll h).2.routing = hub.routing := by
  rw [unsubscribeAll, routing_congr (handles_terminateEach _ _)]
  exact hub.routing_modifyHandle h _

/-- **Handles keep their routes,** and are only ever added. -/
theorem routing_perform (hub : Hub) (op : Operation) :
    (hub.perform op).2.routing =
      hub.routing ++ match op with | .create route => [route] | _ => [] := by
  cases op with
  | create route => simp [perform, addHandle, routing]
  | subscribe h =>
    rw [List.append_nil]
    exact routing_modifyHandle _ h _
  | publish h values =>
    rw [List.append_nil]
    exact routing_of_standing (hub.standing_publish h values)
  | deliver s values =>
    rw [List.append_nil]
    exact routing_of_standing (hub.standing_deliver s values)
  | unsubscribe s =>
    rw [List.append_nil]
    show (hub.unsubscribe s).2.routing = _
    unfold unsubscribe
    split
    · exact hub.routing_withdraw _ s
    · rfl
  | withdraw h s =>
    rw [List.append_nil]
    exact hub.routing_withdraw h s
  | unsubscribeAll h =>
    rw [List.append_nil]
    exact hub.routing_unsubscribeAll h
  | next s =>
    rw [List.append_nil]
    exact routing_of_standing (hub.standing_next s)

theorem route?_perform (op : Operation) {h : HandleId} {route : Route}
    (found : hub.route? h = some route) : (hub.perform op).2.route? h = some route := by
  rw [route?_eq] at found ⊢
  obtain ⟨known, -⟩ := List.getElem?_eq_some_iff.1 found
  rw [routing_perform, List.getElem?_append_left known, found]

/-- A subscription keeps its route too. -/
theorem subRoute?_perform (sound : hub.Sound) {op : Operation} {s : SubId} {route : Route}
    (idle : op.reads s = true → hub.Idle s) (found : hub.subRoute? s = some route) :
    (hub.perform op).2.subRoute? s = some route := by
  obtain ⟨h, own, home⟩ := Option.bind_eq_some_iff.1 found
  obtain ⟨sub, known, rfl⟩ := Option.map_eq_some_iff.1 own
  rw [subRoute?, handle?_of_found (getElem?_perform sound idle known), Operation.handle_effect,
    Option.bind_some]
  exact route?_perform op home

/-- A handle that exists after an operation existed before, or is the one asked for. -/
theorem routing_perform_new {op : Operation} {h : HandleId} {route : Route}
    (found : (hub.perform op).2.routing[h]? = some route) :
    hub.routing[h]? = some route ∨ op = .create route ∧ (hub.perform op).1 = .handle h := by
  rw [routing_perform, List.getElem?_append] at found
  split at found
  next => exact .inl found
  next beyond =>
    cases op with
    | create r =>
      change [r][h - hub.routing.length]? = some route at found
      rw [List.getElem?_singleton] at found
      split at found
      next last =>
        have same : h = hub.routing.length :=
          Nat.le_antisymm (Nat.le_of_sub_eq_zero last) (Nat.not_lt.1 beyond)
        cases found
        refine .inr ⟨rfl, ?_⟩
        rw [same, routing, List.length_map]
        rfl
      next => simp at found
    | _ => simp at found

/-- A subscription that exists after an operation existed before, or is the one asked for. -/
theorem getElem?_perform_new {op : Operation} {s : SubId} {sub : Subscription}
    (unknown : hub.subscriptions[s]? = none)
    (found : (hub.perform op).2.subscriptions[s]? = some sub) :
    ∃ h, op = .subscribe h ∧ s = hub.subscriptions.length ∧ sub = { handle := h } := by
  have stays (hub' : Hub) (same : hub'.subscriptions.length = hub.subscriptions.length) :
      hub'.subscriptions[s]? ≠ some sub := by
    rw [List.getElem?_eq_none_iff, ← same, ← List.getElem?_eq_none_iff] at unknown
    simp [unknown]
  cases op with
  | create route => exact absurd found (stays _ rfl)
  | subscribe h =>
    change (hub.subscribe h).2.subscriptions[s]? = some sub at found
    rw [getElem?_subscribe, unknown] at found
    by_cases last : s = hub.subscriptions.length
    · rw [if_pos last, Option.some.injEq] at found
      exact ⟨h, rfl, last, found.symm⟩
    · simp [last] at found
  | publish h values =>
    exact absurd found (stays _ (count_of_standing (hub.standing_publish h values)))
  | deliver t values =>
    exact absurd found (stays _ (count_of_standing (hub.standing_deliver t values)))
  | unsubscribe t =>
    change (hub.unsubscribe t).2.subscriptions[s]? = some sub at found
    rw [getElem?_unsubscribe, unknown] at found
    simp at found
  | withdraw h t =>
    change (hub.withdraw h t).2.subscriptions[s]? = some sub at found
    rw [getElem?_withdraw, unknown] at found
    simp at found
  | unsubscribeAll h =>
    change (hub.unsubscribeAll h).2.subscriptions[s]? = some sub at found
    rw [getElem?_unsubscribeAll, unknown] at found
    simp at found
  | next t =>
    exact absurd found (stays _ (count_of_standing (hub.standing_next t)))

end Hub

/-- **The hubs reached by sequences of events.** -/
inductive Run (start : Hub) : List Event → Hub → Prop
  /-- Nothing was done. -/
  | stay : Run start [] start
  /-- An operation follows on what was done before. -/
  | step {events : List Event} {hub : Hub} {op : Operation} : Run start events hub →
      hub.Permits op → Run start (events ++ [⟨op, (hub.perform op).1⟩]) (hub.perform op).2

/-- One run after another. -/
theorem Run.trans {start middle hub : Hub} {events later : List Event}
    (head : Run start events middle) (last : Run middle later hub) :
    Run start (events ++ later) hub := by
  induction last with
  | stay => rwa [List.append_nil]
  | step _ permitted ih =>
    rw [← List.append_assoc]
    exact ih.step permitted

/-- Do several operations in order. -/
def replay (hub : Hub) : List Operation → List Event × Hub
  | [] => ([], hub)
  | op :: ops =>
    let (answer, hub) := hub.perform op
    let (events, hub) := replay hub ops
    (⟨op, answer⟩ :: events, hub)

/-- Each of several operations is about what exists when it is done. -/
def PermitsEach (hub : Hub) : List Operation → Bool
  | [] => true
  | op :: ops => hub.Permits op && PermitsEach (hub.perform op).2 ops

theorem run_replay (hub : Hub) (ops : List Operation) (permitted : PermitsEach hub ops = true) :
    Run hub (replay hub ops).1 (replay hub ops).2 := by
  induction ops generalizing hub with
  | nil => exact .stay
  | cons op ops ih =>
    simp only [PermitsEach, Bool.and_eq_true, decide_eq_true_eq] at permitted
    exact Run.trans (Run.stay.step permitted.1) (ih _ permitted.2)

end SoundControl
