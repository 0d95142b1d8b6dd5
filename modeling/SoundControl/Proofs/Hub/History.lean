import SoundControl.Proofs.Hub.Operation

/-!
# Histories

What was published to a subscription is read off the events alone: everything through its handle or
directly, from its creation until something ends it.  The hub keeps none of this; it is compared
with what was read and what is still in the inbox.

* **`published`**, **`received`** — what a history says about a subscription.
* **`Subscription.queued`** — the values still in the inbox.
* **`Subscription.Tight`** — the end marker stands last, and only after the end.
* **`Subscription.Recorded`** — the subscription was created in the history, and is active if nothing
  ended it since.
* **`Faithful`** — a hub with such subscriptions only; **`Faithful.step`** — after an operation too.
-/

namespace SoundControl

/-! ## What a history says -/

namespace Event

/-- The handle of subscription `s`, if the event is its creation. -/
def begins? (s : SubId) : Event → Option HandleId
  | ⟨.subscribe h, .subscription t⟩ => if t = s then some h else none
  | _ => none

/-- The values that were read, if the event is a reading of subscription `s`. -/
def received? (s : SubId) : Event → Option (List Value)
  | ⟨.next t, .poll (.item values)⟩ => if t = s then some values else none
  | _ => none

end Event

/-- What was published to subscription `s` of handle `h` until something ended it. -/
def accepted (h : HandleId) (s : SubId) : List Event → List (List Value)
  | [] => []
  | e :: later =>
    if e.operation.ends h s then [] else (e.operation.values? h s).toList ++ accepted h s later

/-- **What was published to a subscription** between its creation and its end. -/
def published (s : SubId) : List Event → List (List Value)
  | [] => []
  | e :: later =>
    match e.begins? s with
    | some h => accepted h s later
    | none => published s later

/-- **What was read from a subscription,** by any reader. -/
def received (s : SubId) (events : List Event) : List (List Value) :=
  events.filterMap (Event.received? s)

/-- After an end nothing is accepted. -/
theorem accepted_append (h : HandleId) (s : SubId) (later : List Event) (e : Event) :
    accepted h s (later ++ [e]) = accepted h s later ++
      if later.any fun e => e.operation.ends h s then [] else (e.operation.values? h s).toList := by
  induction later with
  | nil =>
    simp only [List.nil_append, accepted, List.any_nil]
    split
    next ended => simp [Operation.values?_of_ends ended]
    next => simp
  | cons first later ih =>
    simp only [List.cons_append, accepted, List.any_cons]
    split
    next ended => simp [ended]
    next going => simp [going, ih]

theorem published_of_begins {s : SubId} {h : HandleId} {before later : List Event} {e : Event}
    (unborn : ∀ e ∈ before, e.begins? s = none) (begun : e.begins? s = some h) :
    published s (before ++ e :: later) = accepted h s later := by
  induction before with
  | nil => simp [published, begun]
  | cons e' before ih =>
    have earlier : e'.begins? s = none := unborn e' List.mem_cons_self
    simp only [List.cons_append, published, earlier]
    exact ih fun e member => unborn e (List.mem_cons_of_mem e' member)

theorem received_append (s : SubId) (events : List Event) (e : Event) :
    received s (events ++ [e]) = received s events ++ (e.received? s).toList := by
  rw [received, List.filterMap_append, received]
  cases read : e.received? s <;> simp [read]

/-! ## What an inbox holds -/

/-- The values of a delivery. -/
def Delivery.values? : Delivery → Option (List Value)
  | .values items => some items
  | .ended => none

namespace Subscription

/-- The values in the inbox. -/
def queued (sub : Subscription) : List (List Value) := sub.inbox.filterMap Delivery.values?

/-- **The inbox holds values and behind them, once the subscription has ended and until it was
read, one end marker.** -/
structure Tight (sub : Subscription) : Prop where
  /-- Values, and the end marker if it is due. -/
  inbox : sub.inbox =
    sub.queued.map Delivery.values ++ if sub.active || sub.finished then [] else [.ended]
  /-- The end marker is read last. -/
  finished : sub.finished = true → sub.active = false ∧ sub.inbox = []
  /-- Someone can read it. -/
  held : sub.held = true

variable {sub : Subscription}

/-- A new subscription. -/
theorem tight_new (h : HandleId) : ({ handle := h } : Subscription).Tight :=
  ⟨rfl, by simp, rfl⟩

theorem Tight.takes (tight : sub.Tight) : sub.takes = sub.active := by
  simp [Subscription.takes, tight.held]

theorem Tight.unfinished (tight : sub.Tight) (active : sub.active = true) :
    sub.finished = false := by
  cases finished : sub.finished with
  | false => rfl
  | true => simpa [active] using (tight.finished finished).1

theorem Tight.accept (tight : sub.Tight) (values : List Value) : (sub.accept values).Tight := by
  unfold Subscription.accept
  rw [tight.takes]
  split
  next active =>
    have inbox := tight.inbox
    simp only [active, Bool.true_or, if_true, List.append_nil] at inbox
    refine ⟨?_, ?_, tight.held⟩
    · unfold queued at inbox ⊢
      simp [active, Delivery.values?, ← inbox]
    · intro finished
      simp [tight.unfinished active] at finished
  next => exact tight

theorem Tight.close (tight : sub.Tight) : sub.close.Tight := by
  unfold Subscription.close
  split
  next active =>
    have inbox := tight.inbox
    simp only [active, Bool.true_or, if_true, List.append_nil] at inbox
    have unfinished := tight.unfinished active
    refine ⟨?_, ?_, tight.held⟩
    · unfold queued at inbox ⊢
      simp [unfinished, Delivery.values?, List.filterMap_cons, ← inbox]
    · intro finished
      simp [unfinished] at finished
  next => exact tight

/-- **What reading gives and leaves,** told by the values in the inbox. -/
theorem Tight.read (tight : sub.Tight) :
    (sub.head = match sub.queued with
      | values :: _ => .item values
      | [] => if sub.active then .pending else .ended) ∧
      sub.advance.queued = sub.queued.tail ∧ sub.advance.inbox = sub.inbox.tail ∧
      sub.advance.Tight := by
  have shape := tight.inbox
  unfold Subscription.head Subscription.advance
  cases finished : sub.finished with
  | true =>
    obtain ⟨ended, empty⟩ := tight.finished finished
    have : sub.queued = [] := by simp [queued, empty]
    simp [this, ended, empty, tight]
  | false =>
    cases inbox : sub.inbox with
    | nil =>
      have unread : sub.queued = [] := by simp [queued, inbox]
      have active : sub.active = true := by
        cases active : sub.active with
        | true => rfl
        | false => simp [inbox, unread, active, finished] at shape
      simp [unread, active, inbox, tight]
    | cons delivery rest =>
      cases delivery with
      | values values =>
        have queue : sub.queued = values :: rest.filterMap Delivery.values? := by
          simp [queued, inbox, Delivery.values?]
        rw [queue, inbox] at shape
        refine ⟨by simp [queue], by rw [queue]; rfl, by simp, ?_, by simp, tight.held⟩
        simpa [queued, finished] using shape
      | ended =>
        -- Values would stand before the end marker, so there are none.
        have queue : sub.queued = [] := by
          cases queue : sub.queued with
          | nil => rfl
          | cons values more => simp [inbox, queue] at shape
        rw [queue, inbox] at shape
        cases active : sub.active with
        | true => simp [active] at shape
        | false =>
          have last : rest = [] := by simpa [active, finished] using shape
          subst last
          exact ⟨by simp [queue], by rw [queue]; rfl, by simp, by simp [queued], by simp,
            tight.held⟩

end Subscription

namespace Operation

variable {sub : Subscription}

/-- What an operation puts into the inbox of subscription `s`: the end marker when it ends the
subscription, values when it publishes to it, and nothing once it has ended. -/
def entering (op : Operation) (s : SubId) (sub : Subscription) : List Delivery :=
  if !sub.active then []
  else if op.ends sub.handle s then [.ended]
  else (op.values? sub.handle s).toList.map .values

/-- **An inbox changes at its two ends:** a reading takes from the front, and everything else goes
in behind. -/
theorem inbox_effect (tight : sub.Tight) (op : Operation) (s : SubId) :
    (op.effect s sub).inbox =
      (if op.reads s then sub.inbox.tail else sub.inbox) ++ op.entering s sub := by
  unfold effect entering
  by_cases reads : op.reads s = true
  · -- A reading is neither a delivery nor an end, so nothing goes in.
    rw [if_pos reads, if_pos reads, tight.read.2.2.1, values?_of_reads reads, not_ends_of_reads reads]
    simp
  · rw [if_neg reads, if_neg reads]
    by_cases ended : op.ends sub.handle s = true
    · simp only [ended, if_true, Subscription.close]
      cases sub.active <;> simp
    · cases op.values? sub.handle s with
      | none => simp [ended]
      | some values =>
        simp only [ended, Subscription.accept, tight.takes]
        cases sub.active <;> simp

/-- What an operation leaves of the values in the inbox. -/
theorem queued_effect (tight : sub.Tight) (op : Operation) (s : SubId) :
    (op.effect s sub).queued =
      if op.reads s then sub.queued.tail
      else sub.queued ++ if sub.active then (op.values? sub.handle s).toList else [] := by
  by_cases reads : op.reads s = true
  · rw [if_pos reads, effect, if_pos reads]
    exact tight.read.2.1
  · rw [if_neg reads, Subscription.queued, inbox_effect tight, if_neg reads, List.filterMap_append]
    congr 1
    unfold entering
    cases sub.active with
    | false => rfl
    | true =>
      by_cases ended : op.ends sub.handle s = true
      · simp [ended, values?_of_ends ended, Delivery.values?]
      · cases op.values? sub.handle s <;> simp [ended, Delivery.values?]

theorem tight_effect (tight : sub.Tight) (op : Operation) (s : SubId) :
    (op.effect s sub).Tight := by
  unfold effect
  split
  · exact tight.read.2.2.2
  · split
    · exact tight.close
    · split
      · exact tight.accept _
      · exact tight

end Operation

/-! ## Hubs and their histories -/

namespace Hub

/-- The values in an inbox. -/
def queued (hub : Hub) (s : SubId) : List (List Value) :=
  match hub.subscriptions[s]? with
  | some sub => sub.queued
  | none => []

theorem queued_of_found {hub : Hub} {s : SubId} {sub : Subscription}
    (found : hub.subscriptions[s]? = some sub) : hub.queued s = sub.queued := by
  simp [queued, found]

end Hub

/-- **Subscription `s` was created in the history, and is active if nothing ended it since.** -/
def Subscription.Recorded (s : SubId) (events : List Event) (sub : Subscription) : Prop :=
  ∃ before later, events = before ++ ⟨.subscribe sub.handle, .subscription s⟩ :: later ∧
    (∀ e ∈ before, e.begins? s = none) ∧
    sub.active = !later.any fun e => e.operation.ends sub.handle s

/-- What a further event adds to the values published to a subscription. -/
theorem Subscription.Recorded.published_append {s : SubId} {events : List Event}
    {sub : Subscription} (recorded : sub.Recorded s events) (e : Event) :
    published s (events ++ [e]) = published s events ++
      if sub.active then (e.operation.values? sub.handle s).toList else [] := by
  obtain ⟨before, later, rfl, unborn, active⟩ := recorded
  have begun : Event.begins? s ⟨.subscribe sub.handle, .subscription s⟩ = some sub.handle := by
    simp [Event.begins?]
  rw [List.append_assoc, List.cons_append, published_of_begins unborn begun,
    published_of_begins unborn begun, accepted_append, active]
  cases later.any fun e => e.operation.ends sub.handle s <;> rfl

/-- **The hub agrees with the history.** -/
structure Faithful (events : List Event) (hub : Hub) : Prop where
  /-- Handles list their active subscriptions. -/
  sound : hub.Sound
  /-- End markers stand last. -/
  tight : ∀ (s : SubId) (sub : Subscription), hub.subscriptions[s]? = some sub → sub.Tight
  /-- Subscriptions were created, and ended, as the history says. -/
  recorded : ∀ (s : SubId) (sub : Subscription), hub.subscriptions[s]? = some sub → sub.Recorded s events
  /-- The history is about subscriptions that exist. -/
  unborn : ∀ e ∈ events, ∀ s, hub.subscriptions.length ≤ s →
    e.begins? s = none ∧ e.received? s = none

theorem faithful_empty (merges : List Merge) : Faithful [] { merges := merges } where
  sound := Hub.sound_empty.of_standing rfl
  tight s sub found := by simp at found
  recorded s sub found := by simp at found
  unborn e member := by simp at member

variable {events : List Event} {hub : Hub}

/-- Nothing was published to a subscription that was just created, -/
theorem Faithful.published_new (faithful : Faithful events hub) (h : HandleId) (e : Event)
    (begun : e.begins? hub.subscriptions.length = some h) :
    published hub.subscriptions.length (events ++ [e]) = [] :=
  published_of_begins (fun e member => (faithful.unborn e member _ (Nat.le_refl _)).1) begun

/-- nor to one that does not exist, -/
theorem Faithful.published_unknown (faithful : Faithful events hub) {s : SubId}
    (unknown : hub.subscriptions.length ≤ s) : published s events = [] := by
  have unborn : ∀ e ∈ events, e.begins? s = none := fun e member =>
    (faithful.unborn e member s unknown).1
  clear faithful
  induction events with
  | nil => rfl
  | cons e later ih =>
    rw [published, unborn e List.mem_cons_self]
    exact ih fun e' member => unborn e' (List.mem_cons_of_mem e member)

/-- and nothing was read from one that does not exist. -/
theorem Faithful.received_unknown (faithful : Faithful events hub) {s : SubId}
    (unknown : hub.subscriptions.length ≤ s) : received s events = [] := by
  rw [received, List.filterMap_eq_nil_iff]
  intro e member
  exact (faithful.unborn e member s unknown).2

/-- What is not a reading of a subscription reads nothing from it. -/
theorem Event.received?_of_not_reads {op : Operation} {s : SubId} (other : op.reads s = false)
    (answer : Answer) : Event.received? s ⟨op, answer⟩ = none := by
  unfold received?
  split
  next t values event =>
    have : op = .next t := congrArg Event.operation event
    subst this
    have : t ≠ s := by simpa [Operation.reads] using other
    rw [if_neg this]
  next => rfl

/-- Subscriptions are only ever added. -/
theorem Hub.length_le_perform (sound : hub.Sound) {op : Operation}
    (idle : ∀ s, op.reads s = true → hub.Idle s) :
    hub.subscriptions.length ≤ (hub.perform op).2.subscriptions.length := by
  rcases Nat.lt_or_ge (hub.perform op).2.subscriptions.length hub.subscriptions.length with less | le
  · have found := getElem?_perform sound (idle _) (List.getElem?_eq_getElem less)
    simp at found
  · exact le

/-- An operation does not begin or read what does not exist after it. -/
theorem Hub.unborn_perform (hub : Hub) {op : Operation} (permitted : hub.Permits op) {s : SubId}
    (unknown : hub.subscriptions.length ≤ s)
    (beyond : (hub.perform op).2.subscriptions.length ≤ s) :
    Event.begins? s ⟨op, (hub.perform op).1⟩ = none ∧
      Event.received? s ⟨op, (hub.perform op).1⟩ = none := by
  constructor
  · cases op with
    | subscribe h =>
      have grown : (hub.subscribe h).2.subscriptions.length = hub.subscriptions.length + 1 := by
        simp [Hub.subscribe]
      have : hub.subscriptions.length ≠ s := by
        change (hub.subscribe h).2.subscriptions.length ≤ s at beyond
        rw [grown] at beyond
        exact Nat.ne_of_lt beyond
      show (if hub.subscriptions.length = s then some h else none) = none
      rw [if_neg this]
    | _ => rfl
  · apply Event.received?_of_not_reads
    cases op with
    | next t =>
      have : t ≠ s := Nat.ne_of_lt (Nat.lt_of_lt_of_le permitted unknown)
      simpa [Operation.reads] using this
    | _ => rfl

/-- **An operation keeps the hub in agreement with the history.** -/
theorem Faithful.step (faithful : Faithful events hub) {op : Operation}
    (permitted : hub.Permits op) (idle : ∀ s, op.reads s = true → hub.Idle s) :
    Faithful (events ++ [⟨op, (hub.perform op).1⟩]) (hub.perform op).2 := by
  have known {s : SubId} {sub : Subscription} (found : hub.subscriptions[s]? = some sub) :=
    Hub.getElem?_perform faithful.sound (idle s) found
  constructor
  case sound => exact faithful.sound.perform permitted
  case tight =>
    intro s sub' found'
    cases found : hub.subscriptions[s]? with
    | some sub =>
      rw [known found, Option.some.injEq] at found'
      rw [← found']
      exact Operation.tight_effect (faithful.tight s sub found) op s
    | none =>
      -- It did not exist, so it was just created.
      obtain ⟨h, -, -, rfl⟩ := Hub.getElem?_perform_new found found'
      exact Subscription.tight_new h
  case recorded =>
    intro s sub' found'
    cases found : hub.subscriptions[s]? with
    | some sub =>
      rw [known found, Option.some.injEq] at found'
      obtain ⟨before, later, rfl, unborn, active⟩ := faithful.recorded s sub found
      refine ⟨before, later ++ [⟨op, (hub.perform op).1⟩], ?_, unborn, ?_⟩
      · rw [← found', Operation.handle_effect, List.append_assoc, List.cons_append]
      · rw [← found', Operation.active_effect, Operation.handle_effect, active, List.any_append]
        simp
    | none =>
      -- All that was done before came before its creation.
      obtain ⟨h, rfl, rfl, rfl⟩ := Hub.getElem?_perform_new found found'
      refine ⟨events, [], rfl, ?_, rfl⟩
      intro e member
      exact (faithful.unborn e member _ (Nat.le_refl _)).1
  case unborn =>
    intro e member s beyond
    have beyond' := Nat.le_trans (Hub.length_le_perform faithful.sound idle) beyond
    rcases List.mem_append.1 member with earlier | last
    · exact faithful.unborn e earlier s beyond'
    · rw [List.mem_singleton] at last
      subst last
      exact hub.unborn_perform permitted beyond' beyond

/-- What reading gives, told by the values in the inbox. -/
theorem Faithful.next_fst (faithful : Faithful events hub) {s : SubId} {sub : Subscription}
    (idle : hub.Idle s) (found : hub.subscriptions[s]? = some sub) :
    (hub.next s).1 = match sub.queued with
      | values :: _ => .item values
      | [] => if sub.active then .pending else .ended := by
  rw [Hub.next_of_idle idle, Hub.take_of_found found]
  exact (faithful.tight s sub found).read.1

/-- Reading gives the end if nothing is queued after the end. -/
theorem Faithful.next_ended (faithful : Faithful events hub) {s : SubId} {sub : Subscription}
    (idle : hub.Idle s) (found : hub.subscriptions[s]? = some sub) :
    (hub.next s).1 = .ended ↔ sub.active = false ∧ sub.queued = [] := by
  rw [faithful.next_fst idle found]
  cases sub.queued with
  | nil => cases sub.active <;> simp
  | cons values rest => simp

/-- A subscription that did not exist before an operation has no values after it. -/
theorem Faithful.born (faithful : Faithful events hub) {op : Operation}
    (permitted : hub.Permits op) (idle : ∀ s, op.reads s = true → hub.Idle s) {s : SubId}
    (unknown : hub.subscriptions[s]? = none) :
    received s (events ++ [⟨op, (hub.perform op).1⟩]) = [] ∧
      published s (events ++ [⟨op, (hub.perform op).1⟩]) = [] ∧
      (hub.perform op).2.queued s = [] := by
  have beyond : hub.subscriptions.length ≤ s := List.getElem?_eq_none_iff.1 unknown
  cases found : (hub.perform op).2.subscriptions[s]? with
  | none =>
    have faithful' := faithful.step permitted idle
    have beyond' := List.getElem?_eq_none_iff.1 found
    exact ⟨faithful'.received_unknown beyond', faithful'.published_unknown beyond',
      by simp [Hub.queued, found]⟩
  | some sub =>
    rw [Hub.queued_of_found found]
    obtain ⟨h, rfl, rfl, rfl⟩ := Hub.getElem?_perform_new unknown found
    refine ⟨?_, ?_, rfl⟩
    · rw [received_append, faithful.received_unknown beyond]
      rfl
    · exact faithful.published_new h _ (by simp [Event.begins?, Hub.perform, Hub.subscribe])

/-- **Values go in at the end of an inbox and out at its front:** an operation publishes what it adds
and reads what it takes. -/
theorem Faithful.moved (faithful : Faithful events hub) {op : Operation}
    (permitted : hub.Permits op) (idle : ∀ s, op.reads s = true → hub.Idle s) (s : SubId) :
    ∃ taken rest added, hub.queued s = taken ++ rest ∧ (hub.perform op).2.queued s = rest ++ added ∧
      received s (events ++ [⟨op, (hub.perform op).1⟩]) = received s events ++ taken ∧
      published s (events ++ [⟨op, (hub.perform op).1⟩]) = published s events ++ added := by
  cases found : hub.subscriptions[s]? with
  | none =>
    have beyond : hub.subscriptions.length ≤ s := List.getElem?_eq_none_iff.1 found
    obtain ⟨received, published, empty⟩ := faithful.born permitted idle found
    refine ⟨[], [], [], by simp [Hub.queued, found], empty, ?_, ?_⟩
    · rw [received, faithful.received_unknown beyond, List.append_nil]
    · rw [published, faithful.published_unknown beyond, List.append_nil]
  | some sub =>
    have tight := faithful.tight s sub found
    rw [Hub.queued_of_found found,
      Hub.queued_of_found (Hub.getElem?_perform faithful.sound (idle s) found),
      Operation.queued_effect tight, received_append,
      (faithful.recorded s sub found).published_append]
    by_cases reads : op.reads s = true
    · -- A reading takes the first of the values, if there are any, and publishes none.
      obtain rfl := Operation.eq_next_of_reads reads
      have answer : (hub.perform (.next s)).1 = .poll (hub.next s).1 := rfl
      rw [if_pos reads, answer, faithful.next_fst (idle s reads) found]
      cases queue : sub.queued with
      | nil =>
        refine ⟨[], [], [], rfl, rfl, ?_, ?_⟩
        · cases sub.active <;> rfl
        · simp [Operation.values?]
      | cons values rest =>
        refine ⟨[values], rest, [], rfl, (List.append_nil _).symm, ?_, ?_⟩
        · simp [Event.received?]
        · simp [Operation.values?]
    · -- Anything else takes none, and what goes in was published.
      have silent := Event.received?_of_not_reads (Bool.eq_false_iff.2 reads) (hub.perform op).1
      rw [if_neg reads, silent]
      exact ⟨[], sub.queued, _, rfl, rfl, rfl, rfl⟩

/-- **Agreement with the history depends on the standing,** apart from the inboxes. -/
theorem Faithful.of_standing (faithful : Faithful events hub) {hub' : Hub}
    (same : hub'.standing = hub.standing)
    (tight : ∀ (s : SubId) (sub : Subscription), hub'.subscriptions[s]? = some sub → sub.Tight) :
    Faithful events hub' where
  sound := faithful.sound.of_standing same
  tight := tight
  recorded s sub' found' := by
    have known : s < hub.subscriptions.length := by
      rw [← Hub.count_of_standing same]
      exact (List.getElem?_eq_some_iff.1 found').1
    have found := List.getElem?_eq_getElem known
    have handle : sub'.handle = hub.subscriptions[s].handle := by
      have := Hub.handle?_of_standing same s
      rwa [Hub.handle?_of_found found', Hub.handle?_of_found found, Option.some.injEq] at this
    have active : sub'.active = hub.subscriptions[s].active := by
      have := Hub.isActive_of_standing same s
      rwa [Hub.isActive_of_found found', Hub.isActive_of_found found] at this
    have recorded := faithful.recorded s _ found
    unfold Subscription.Recorded at recorded ⊢
    rwa [handle, active]
  unborn e member s unknown :=
    faithful.unborn e member s (by rwa [Hub.count_of_standing same] at unknown)

end SoundControl
