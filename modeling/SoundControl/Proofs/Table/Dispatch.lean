import Mathlib.Data.List.Flatten
import SoundControl.Proofs.Table.Filing

/-!
# Where a message goes

A message at a literal address finds its routes under that address, one at a pattern by a look at
all addresses, and the routes for every address are found apart from both.  All the same a message
reaches every served route that it belongs to, and reaches it once.

* **`Hub.unpacked?`** — what a handle makes of the arguments of a message.
* **`Table.getElem?_deliverEach`** — what a message to several handles makes of a subscription.
* **`Filed.mem_candidates`** — the handles that are looked at are those whose path is meant.
* **`Belongs`**, **`Dispatched`** — the routes that a message belongs to, and what becomes of it.
* **`Reachable.dispatch_reaches`** — that becomes of every message to a reached table.
-/

namespace SoundControl

open Address Wire

/-- Take values, if there are any. -/
def Subscription.acceptAny (values? : Option (List Value)) (sub : Subscription) : Subscription :=
  match values? with
  | some values => sub.accept values
  | none => sub

@[simp] theorem Subscription.handle_acceptAny (values? : Option (List Value))
    (sub : Subscription) : (sub.acceptAny values?).handle = sub.handle := by
  cases values? with
  | none => rfl
  | some values => exact sub.handle_accept values

theorem Subscription.acceptAny_of_not_takes {values? : Option (List Value)} {sub : Subscription}
    (not : ∀ values, values? = some values → sub.takes = false) : sub.acceptAny values? = sub := by
  cases values? with
  | none => rfl
  | some values => exact Subscription.accept_of_not_takes (not values rfl) values

/-- **What a handle makes of the arguments of a message:** the values that they stand for, if they
have its signature. -/
def Hub.unpacked? (hub : Hub) (arguments : List Argument) (h : HandleId) : Option (List Value) :=
  match hub.route? h with
  | none => none
  | some route =>
    if route.spec.accepts arguments then (route.spec.unpack arguments).toOption else none

namespace Table

variable {t : Table} {hub : Hub}

/-! ## A message to several handles -/

theorem unpacked?_eq_some_iff (hub : Hub) (arguments : List Argument) (h : HandleId)
    (values : List Value) :
    hub.unpacked? arguments h = some values ↔
      ∃ route, hub.route? h = some route ∧ route.spec.accepts arguments = true ∧
        route.spec.unpack arguments = .ok values := by
  unfold Hub.unpacked?
  cases hub.route? h with
  | none => simp
  | some route =>
    cases unpacked : route.spec.unpack arguments <;> simp [unpacked, Except.toOption]

theorem deliver_eq (hub : Hub) (h : HandleId) (arguments : List Argument) :
    deliver hub h arguments =
      match hub.unpacked? arguments h with
      | some values => (true, (hub.publish h values).2)
      | none => (false, hub) := by
  unfold deliver Hub.unpacked?
  cases hub.route? h with
  | none => rfl
  | some route =>
    dsimp only
    by_cases accepted : route.spec.accepts arguments = true
    · rw [if_pos accepted, if_pos accepted]
      cases route.spec.unpack arguments <;> rfl
    · rw [if_neg accepted, if_neg accepted]

/-- Whether a handle took a message. -/
theorem deliver_fst (hub : Hub) (h : HandleId) (arguments : List Argument) :
    (deliver hub h arguments).1 = (hub.unpacked? arguments h).isSome := by
  rw [deliver_eq]
  cases hub.unpacked? arguments h <;> rfl

theorem standing_deliver (hub : Hub) (h : HandleId) (arguments : List Argument) :
    (deliver hub h arguments).2.standing = hub.standing := by
  rw [deliver_eq]
  cases hub.unpacked? arguments h with
  | none => rfl
  | some values => exact hub.standing_publish h values

/-- Handles keep their routes, so they make the same of later messages. -/
theorem unpacked?_deliver (hub : Hub) (h : HandleId) (arguments : List Argument) :
    (deliver hub h arguments).2.unpacked? = hub.unpacked? := by
  have same := Hub.routing_of_standing (standing_deliver hub h arguments)
  funext arguments g
  rw [Hub.unpacked?, Hub.unpacked?, Hub.route?_eq, same, ← Hub.route?_eq]

/-- What a message to a handle makes of a subscription. -/
theorem getElem?_deliver (sound : hub.Sound) {s : SubId} {sub : Subscription}
    (found : hub.subscriptions[s]? = some sub) (h : HandleId) (arguments : List Argument) :
    (deliver hub h arguments).2.subscriptions[s]? =
      some (if sub.handle = h then sub.acceptAny (hub.unpacked? arguments h) else sub) := by
  rw [deliver_eq]
  cases hub.unpacked? arguments h with
  | none => simpa [Subscription.acceptAny] using found
  | some values => exact sound.publish_of_found found h values

theorem deliverEach_cons (hub : Hub) (h : HandleId) (handles : List HandleId)
    (arguments : List Argument) :
    deliverEach hub (h :: handles) arguments =
      ((deliverEach (deliver hub h arguments).2 handles arguments).1 +
          (if (hub.unpacked? arguments h).isSome then 1 else 0),
        (deliverEach (deliver hub h arguments).2 handles arguments).2) := by
  rw [← deliver_fst hub h arguments]
  exact tally_cons (fun hub h => deliver hub h arguments) hub h handles

theorem standing_deliverEach (hub : Hub) (handles : List HandleId) (arguments : List Argument) :
    (deliverEach hub handles arguments).2.standing = hub.standing := by
  induction handles generalizing hub with
  | nil => rfl
  | cons h handles ih => rw [deliverEach_cons, ih, standing_deliver]

/-- **How many handles took a message.** -/
theorem deliverEach_fst (hub : Hub) (handles : List HandleId) (arguments : List Argument) :
    (deliverEach hub handles arguments).1 =
      (handles.filter fun h => (hub.unpacked? arguments h).isSome).length := by
  rw [← List.countP_eq_length_filter]
  induction handles generalizing hub with
  | nil => rfl
  | cons h handles ih => rw [deliverEach_cons, ih, unpacked?_deliver, List.countP_cons]

/-- A message that no handle takes changes nothing. -/
theorem deliverEach_of_none (hub : Hub) {handles : List HandleId} {arguments : List Argument}
    (refused : ∀ h ∈ handles, hub.unpacked? arguments h = none) :
    (deliverEach hub handles arguments).2 = hub := by
  induction handles with
  | nil => rfl
  | cons h handles ih =>
    have same : (deliver hub h arguments).2 = hub := by
      rw [deliver_eq, refused h List.mem_cons_self]
    rw [deliverEach_cons, same]
    exact ih fun g listed => refused g (List.mem_cons_of_mem h listed)

/-- **What a message to several handles makes of a subscription:** it takes the values that its
handle makes of the arguments. -/
theorem getElem?_deliverEach (sound : hub.Sound) {s : SubId} {sub : Subscription}
    (found : hub.subscriptions[s]? = some sub) {handles : List HandleId} (nodup : handles.Nodup)
    (arguments : List Argument) :
    (deliverEach hub handles arguments).2.subscriptions[s]? =
      some (if sub.handle ∈ handles then sub.acceptAny (hub.unpacked? arguments sub.handle)
        else sub) := by
  induction handles generalizing hub sub with
  | nil => simpa [deliverEach] using found
  | cons h handles ih =>
    obtain ⟨fresh, nodup⟩ := List.nodup_cons.1 nodup
    have sound' := sound.of_standing (standing_deliver hub h arguments)
    rw [deliverEach_cons, ih sound' (getElem?_deliver sound found h arguments) nodup,
      unpacked?_deliver]
    by_cases own : sub.handle = h
    · -- The other handles are different ones.
      subst own
      simp [fresh]
    · simp [own]

/-! ## The handles that are looked at -/

/-- A handle that is looked at is at an address that is meant, or is for every address. -/
theorem mem_candidates (keys : (t.byAddress.map Prod.fst).Nodup) (path : Path) (h : HandleId) :
    h ∈ t.candidates path ↔
      (∃ entry ∈ t.byAddress, path.covers entry.1 = true ∧ h ∈ entry.2) ∨ h ∈ t.anyPath := by
  unfold candidates
  split
  next address literal =>
    have path : path = .single (.literal address) := by
      unfold Path.asLiteral? at literal
      split at literal
      · cases literal
        rfl
      · simp at literal
    rw [List.mem_append, mem_atAddress keys, path]
    simp [Path.covers, Atom.covers]
  next => simp [List.mem_flatMap, and_assoc]

theorem atAddress_sublist (t : Table) (address : String) :
    (t.atAddress address).Sublist (t.byAddress.flatMap (·.2)) := by
  unfold atAddress
  split
  next handles found =>
    have listed := List.mem_map_of_mem (f := Prod.snd) (List.mem_of_find?_eq_some found)
    rw [List.flatMap_def]
    exact List.sublist_flatten_of_mem listed
  next => exact List.nil_sublist _

/-- Every handle is looked at at most as often as it is served. -/
theorem candidates_sublist (t : Table) (path : Path) : (t.candidates path).Sublist t.handles := by
  unfold candidates
  split
  · exact (t.atAddress_sublist _).append_right _
  · exact (List.filter_sublist.flatMap _).append_right _

/-- **The handles that are looked at are the served ones whose path is meant.** -/
theorem Filed.mem_candidates (filed : t.Filed hub) (path : Path) (h : HandleId) :
    h ∈ t.candidates path ↔
      h ∈ t.handles ∧ ∃ route, hub.route? h = some route ∧
        (route.path = .any ∨ path.contains route.path = true) := by
  rw [Table.mem_candidates filed.keys, mem_handles]
  constructor
  · rintro (⟨entry, listed, meant, member⟩ | member)
    · obtain ⟨route, found, literal⟩ := filed.literal entry listed h member
      refine ⟨.inl ⟨entry, listed, member⟩, route, found, .inr ?_⟩
      rw [literal]
      exact meant
    · obtain ⟨route, found, anywhere⟩ := filed.anywhere h member
      exact ⟨.inr member, route, found, .inl anywhere⟩
  · rintro ⟨⟨entry, listed, member⟩ | member, route, found, meant⟩
    · obtain ⟨route', found', literal⟩ := filed.literal entry listed h member
      rw [found, Option.some.injEq] at found'
      subst found'
      rw [literal] at meant
      exact .inl ⟨entry, listed, meant.resolve_left (by simp), member⟩
    · exact .inr member

/-- Served handles have routes, one after the other. -/
theorem Filed.map_some_routes (filed : t.Filed hub) {handles : List HandleId}
    (served : handles ⊆ t.handles) :
    (handles.filterMap hub.route?).map some = handles.map hub.route? := by
  induction handles with
  | nil => rfl
  | cons h handles ih =>
    obtain ⟨own, others⟩ := List.cons_subset.1 served
    obtain ⟨route, found, -⟩ := filed.place own
    rw [List.filterMap_cons_some found, List.map_cons, List.map_cons, found, ih others]

/-- Served handles have as many routes, all of them different. -/
theorem Filed.routes_of_handles (filed : t.Filed hub) {handles : List HandleId}
    (served : handles.Sublist t.handles) :
    (handles.filterMap hub.route?).Nodup ∧
      (handles.filterMap hub.route?).length = handles.length := by
  have same := filed.map_some_routes served.subset
  constructor
  · have distinct := filed.distinct.sublist (served.map hub.route?)
    rw [← same] at distinct
    exact distinct.of_map _
  · have lengths := congrArg List.length same
    rwa [List.length_map, List.length_map] at lengths

/-! ## A message to a table -/

/-- **A message belongs to a route:** it is served, its path is meant, and the arguments have its
signature and stand for these values. -/
structure Belongs (lookup : Route → Option HandleId) (path : Path) (arguments : List Argument)
    (route : Route) (values : List Value) : Prop where
  /-- A handle serves the route. -/
  served : (lookup route).isSome = true
  /-- The route is for every address, or for one that is meant. -/
  meant : route.path = .any ∨ path.contains route.path = true
  /-- The arguments have the signature. -/
  accepted : route.spec.accepts arguments = true
  /-- The arguments stand for the values. -/
  unpacked : route.spec.unpack arguments = .ok values

/-- **What becomes of a message** whose address can be read. -/
structure Dispatched (hub : Hub) (lookup : Route → Option HandleId) (address : String)
    (path : Path) (arguments : List Argument) (outcome : Except Failure Nat × Hub) : Prop where
  /-- The answer is how many routes it belongs to, at least one. -/
  answer : ∃ reached : List Route, reached.Nodup ∧
    (∀ route, route ∈ reached ↔ ∃ values, Belongs lookup path arguments route values) ∧
    outcome.1 = if reached = [] then .error (.unrouted address) else .ok reached.length
  /-- A subscription of such a route takes the values once, if it is active and can be read. -/
  taken : ∀ (s : SubId) (sub : Subscription) (route : Route) (values : List Value),
    hub.subscriptions[s]? = some sub → sub.active = true → sub.held = true →
    lookup route = some sub.handle → Belongs lookup path arguments route values →
    outcome.2.subscriptions[s]? = some { sub with inbox := sub.inbox ++ [.values values] }
  /-- Any other subscription stays as it is. -/
  kept : ∀ (s : SubId) (sub : Subscription), hub.subscriptions[s]? = some sub →
    (sub.active = true → sub.held = true → ∀ route values, lookup route = some sub.handle →
      ¬ Belongs lookup path arguments route values) →
    outcome.2.subscriptions[s]? = some sub
  /-- Subscriptions neither begin nor end. -/
  standing : outcome.2.standing = hub.standing
  /-- A message that belongs nowhere changes nothing. -/
  missed : (∀ route values, ¬ Belongs lookup path arguments route values) → outcome.2 = hub

/-- **The handles that take a message are those that serve the routes it belongs to.** -/
theorem Filed.takes_iff (filed : t.Filed hub) (path : Path) (arguments : List Argument)
    (h : HandleId) (values : List Value) :
    (h ∈ t.candidates path ∧ hub.unpacked? arguments h = some values) ↔
      ∃ route, t.get? hub route = some h ∧
        Belongs (t.get? hub) path arguments route values := by
  rw [filed.mem_candidates, unpacked?_eq_some_iff]
  constructor
  · rintro ⟨⟨served, route, found, meant⟩, route', found', accepted, unpacked⟩
    rw [found, Option.some.injEq] at found'
    subst found'
    have looked := (filed.get?_eq_some_iff route h).2 ⟨served, found⟩
    exact ⟨route, looked, by rw [looked, Option.isSome_some], meant, accepted, unpacked⟩
  · rintro ⟨route, looked, belongs⟩
    obtain ⟨served, found⟩ := (filed.get?_eq_some_iff route h).1 looked
    exact ⟨⟨served, route, found, belongs.meant⟩, route, found, belongs.accepted, belongs.unpacked⟩

/-- The routes that a message belongs to are as many as the handles that take it. -/
theorem Filed.exists_reached (filed : t.Filed hub) (path : Path) (arguments : List Argument) :
    ∃ reached : List Route, reached.Nodup ∧
      reached.length = (deliverEach hub (t.candidates path) arguments).1 ∧
      ∀ route, route ∈ reached ↔
        ∃ values, Belongs (t.get? hub) path arguments route values := by
  have takes := filed.takes_iff path arguments
  have taking : ((t.candidates path).filter fun h =>
      (hub.unpacked? arguments h).isSome).Sublist t.handles :=
    List.filter_sublist.trans (t.candidates_sublist path)
  obtain ⟨distinct, count⟩ := filed.routes_of_handles taking
  refine ⟨_, distinct, ?_, fun route => ?_⟩
  · rw [count, deliverEach_fst]
  rw [List.mem_filterMap]
  constructor
  · rintro ⟨h, chosen, found⟩
    obtain ⟨candidate, unpacks⟩ := List.mem_filter.1 chosen
    obtain ⟨values, unpacked⟩ := Option.isSome_iff_exists.1 unpacks
    obtain ⟨route', looked, belongs⟩ := (takes h values).1 ⟨candidate, unpacked⟩
    -- The route that it belongs to is the one that the handle has.
    have found' := ((filed.get?_eq_some_iff route' h).1 looked).2
    rw [found, Option.some.injEq] at found'
    exact ⟨values, found' ▸ belongs⟩
  · rintro ⟨values, belongs⟩
    obtain ⟨h, looked⟩ := Option.isSome_iff_exists.1 belongs.served
    obtain ⟨candidate, unpacked⟩ := (takes h values).2 ⟨route, looked, belongs⟩
    have found := ((filed.get?_eq_some_iff route h).1 looked).2
    exact ⟨h, List.mem_filter.2 ⟨candidate, by rw [unpacked, Option.isSome_some]⟩, found⟩

/-- **A message to a filed table.** -/
theorem Filed.dispatched (sound : hub.Sound) (filed : t.Filed hub) {address : String}
    {path : Path} (parsed : Path.parse address = .ok path) (arguments : List Argument) :
    Dispatched hub (t.get? hub) address path arguments (t.dispatch hub address arguments) := by
  have takes := filed.takes_iff path arguments
  have nodup : (t.candidates path).Nodup :=
    (filed.distinct.of_map _).sublist (t.candidates_sublist path)
  have outcome : t.dispatch hub address arguments =
      (if (deliverEach hub (t.candidates path) arguments).1 = 0 then .error (.unrouted address)
        else .ok (deliverEach hub (t.candidates path) arguments).1,
        (deliverEach hub (t.candidates path) arguments).2) := by
    rw [dispatch, parsed]
  rw [outcome]
  constructor
  case answer =>
    obtain ⟨reached, distinct, count, mem_reached⟩ := filed.exists_reached path arguments
    refine ⟨reached, distinct, mem_reached, ?_⟩
    show (if _ then _ else _) = _
    rw [← count]
    simp only [List.length_eq_zero_iff]
  case taken =>
    intro s sub route values found active held looked belongs
    obtain ⟨candidate, unpacked⟩ := (takes sub.handle values).2 ⟨route, looked, belongs⟩
    have able : sub.takes = true := by rw [Subscription.takes, active, held, Bool.and_self]
    show (deliverEach hub (t.candidates path) arguments).2.subscriptions[s]? = _
    rw [getElem?_deliverEach sound found nodup, if_pos candidate, unpacked, Subscription.acceptAny,
      Subscription.accept, if_pos able]
  case kept =>
    intro s sub found other
    show (deliverEach hub (t.candidates path) arguments).2.subscriptions[s]? = _
    rw [getElem?_deliverEach sound found nodup]
    split
    next candidate =>
      rw [Subscription.acceptAny_of_not_takes]
      intro values unpacked
      obtain ⟨route, looked, belongs⟩ := (takes sub.handle values).1 ⟨candidate, unpacked⟩
      -- Its handle takes the message, so it must be the subscription that does not.
      rw [Subscription.takes, Bool.and_eq_false_iff]
      by_contra able
      simp only [not_or, Bool.not_eq_false] at able
      exact other able.1 able.2 route values looked belongs
    next => rfl
  case standing => exact standing_deliverEach hub _ arguments
  case missed =>
    intro nowhere
    refine deliverEach_of_none hub fun h candidate => Option.eq_none_iff_forall_ne_some.2 ?_
    intro values unpacked
    obtain ⟨route, -, belongs⟩ := (takes h values).1 ⟨candidate, unpacked⟩
    exact nowhere route values belongs

/-- A message begins and ends no subscription. -/
theorem standing_dispatch (t : Table) (hub : Hub) (address : String) (arguments : List Argument) :
    (t.dispatch hub address arguments).2.standing = hub.standing := by
  unfold dispatch
  split
  · rfl
  · exact standing_deliverEach hub _ arguments

/-- What a packet of one message does is what the message does. -/
theorem dispatchPacket_message (t : Table) (hub : Hub) (m : MessagePacket) :
    (t.dispatchPacket hub (.message m)).2 = (t.dispatch hub m.address m.arguments).2 := by
  rw [dispatchPacket]
  split <;> next outcome => rw [outcome]

/-- Looking up a route does not depend on the order of the addresses. -/
theorem Filed.get?_reorder (filed : t.Filed hub) {order : List (String × List HandleId)}
    (same : order.Perm t.byAddress) :
    ({ t with byAddress := order } : Table).get? hub = t.get? hub := by
  funext route
  refine Option.ext fun h => ?_
  rw [(filed.reorder same).get?_eq_some_iff, filed.get?_eq_some_iff, (handles_reorder same).mem_iff]

/-- What a message does through any table can happen to the handles of a table. -/
theorem Reachable.dispatched (reachable : t.Reachable hub) (other : Table) (address : String)
    (arguments : List Argument) : t.Reachable (other.dispatch hub address arguments).2 := by
  have each (handles : List HandleId) : t.Reachable (deliverEach hub handles arguments).2 := by
    induction handles generalizing hub with
    | nil => exact reachable
    | cons h handles ih =>
      rw [deliverEach_cons]
      refine ih ?_
      rw [deliver_eq]
      cases unpacked : hub.unpacked? arguments h with
      | none => exact reachable
      | some values =>
        obtain ⟨route, found, -⟩ := (unpacked?_eq_some_iff hub arguments h values).1 unpacked
        rw [Hub.route?, Option.map_eq_some_iff] at found
        obtain ⟨handle, found, -⟩ := found
        have known : h < hub.handles.length := (List.getElem?_eq_some_iff.1 found).1
        exact reachable.step (.perform (.publish h values) known)
  unfold dispatch
  split
  · exact reachable
  · exact each _

/-- **A message to a reached table reaches the routes it belongs to,** and each of them once,
whatever the order in which the addresses are gone through.  One whose address cannot be read is
refused. -/
theorem Reachable.dispatch_reaches (reachable : t.Reachable hub)
    {order : List (String × List HandleId)} (same : order.Perm t.byAddress) (address : String)
    (arguments : List Argument) :
    match Path.parse address with
    | .error fault => ({ t with byAddress := order } : Table).dispatch hub address arguments =
        (.error (.refused (.malformedAddress address fault)), hub)
    | .ok path => Dispatched hub (t.get? hub) address path arguments
        (({ t with byAddress := order } : Table).dispatch hub address arguments) := by
  obtain ⟨sound, filed⟩ := reachable.filed
  split
  next fault faulty => rw [dispatch, faulty]
  next path parsed =>
    rw [← filed.get?_reorder same]
    exact (filed.reorder same).dispatched sound parsed arguments

/-- Three of four routes take an integer that is sent to both of their addresses; the fourth asks
for a text. -/
theorem dispatch_to_two_addresses :
    let hub := (replay {} [.create ⟨.single (.literal "/a"), .typed .int32 []⟩,
      .create ⟨.single (.literal "/b"), .typed .string []⟩,
      .create ⟨.single (.literal "/b"), .typed .int32 []⟩, .create .everything, .subscribe 0,
      .subscribe 1, .subscribe 2, .subscribe 2, .subscribe 3]).2
    let t : Table := ⟨[("/a", [0]), ("/b", [1, 2])], [3]⟩
    let order := t.byAddress.reverse
    let outcome := (Table.mk order t.anyPath).dispatch hub "/\x7ba,b\x7d" [.int 7]
    (∃ path, Path.parse "/\x7ba,b\x7d" = .ok path ∧
      Dispatched hub (t.get? hub) "/\x7ba,b\x7d" path [.int 7] outcome) ∧
    outcome.1 = .ok 3 ∧
    outcome.2.subscriptions.map Subscription.inbox =
      [[.values [.int 7]], [], [.values [.int 7]], [.values [.int 7]], [.values [.int 7]]] := by
  intro hub t order outcome
  have reachable : t.Reachable hub :=
    ((((Reachable.empty.run (run_replay _ _ (by decide))).serve (h := 0) rfl rfl).serve (h := 1)
      rfl rfl).serve (h := 2) rfl rfl).serve (h := 3) rfl rfl
  exact ⟨⟨_, rfl, reachable.dispatch_reaches (t.byAddress.reverse_perm) "/\x7ba,b\x7d" [.int 7]⟩,
    rfl, rfl⟩

end Table

end SoundControl
