import Mathlib.Logic.Function.Basic
import SoundControl.Proofs.Route.Order
import SoundControl.Proofs.Table.Dispatch

/-! # A table is a map from routes to handles

Where a route is looked up depends on its path, and the lists that it may be on come and go with the
routes that they hold.  Seen from outside a table is nothing but a map: to each route that is served it
gives one handle, whichever handle of that route is asked about.

* **`Registry`**, **`Registry.after`** — the map, and what a call makes of it.
* **`Table.Mirrors`** — a table that holds the handles of a map, each where its route says.
* **`Table.Called`** — what a call does, told by the map alone.
* **`Table.Calls`**, **`Calls.refines`** — tables reached by calls, and the maps that they mirror. -/

namespace SoundControl

open Address Wire

namespace Table

/-- **A call on a table.** -/
inductive Call where
  /-- A handle's route is taken up. -/
  | serve (h : HandleId) (route : Route)
  /-- A route is given up. -/
  | withdraw (route : Route)
  /-- Every route is given up. -/
  | clear
  /-- A route is looked up. -/
  | get (route : Route)
  /-- A message is dispatched. -/
  | dispatch (address : String) (arguments : List Argument)

namespace Call

/-- The route that is taken up is that of the handle. -/
def Known (hub : Hub) : Call → Prop
  | .serve h route => hub.route? h = some route
  | _ => True

/-- Whether something is put into inboxes. -/
def delivers : Call → Bool
  | .dispatch _ _ => true
  | _ => false

end Call

/-- **The answer to a call.** -/
inductive Answer where
  /-- The handle that serves the route. -/
  | served (result : Except Failure HandleId)
  /-- Whether the route was served. -/
  | withdrawn (was : Bool)
  /-- Nothing is served. -/
  | cleared
  /-- The handle that serves the route, if one does. -/
  | found (h : Option HandleId)
  /-- To how many routes the message went. -/
  | dispatched (result : Except Failure Nat)

/-- **What is answered to a call,** and what it makes of a table and its handles. -/
def call (t : Table) (hub : Hub) : Call → Answer × Table × Hub
  | .serve h route =>
    match t.serve hub h route with
    | .error failure => (.served (.error failure), t, hub)
    | .ok (served, t) => (.served (.ok served), t, hub)
  | .withdraw route =>
    let (was, t, hub) := t.withdraw hub route
    (.withdrawn was, t, hub)
  | .clear =>
    let (t, hub) := t.clear hub
    (.cleared, t, hub)
  | .get route => (.found (t.get? hub route), t, hub)
  | .dispatch address arguments =>
    let (result, hub) := t.dispatch hub address arguments
    (.dispatched result, t, hub)

end Table

/-! ## Maps from routes to handles -/

/-- **The handle of each route that is served.** -/
abbrev Registry := Route → Option HandleId

namespace Registry

/-- No route is served. -/
def empty : Registry := fun _ => none

/-- **What a call makes of a map.** Only a route without a handle is given one, and only a route
that can be served. -/
def after (m : Registry) : Table.Call → Registry
  | .serve h route =>
    if route.path.isPattern || (m route).isSome then m else Function.update m route (some h)
  | .withdraw route => Function.update m route none
  | .clear => empty
  | .get _ | .dispatch _ _ => m

/-- **The answer to a call.** How many routes a message goes to is another matter. -/
def Answers (m : Registry) : Table.Call → Table.Answer → Prop
  | .serve h route, answer =>
    answer = .served (if route.path.isPattern then .error (.unservable route)
      else .ok ((m route).getD h))
  | .withdraw route, answer => answer = .withdrawn (m route).isSome
  | .clear, answer => answer = .cleared
  | .get route, answer => answer = .found (m route)
  | .dispatch _ _, answer => ∃ result, answer = .dispatched result

/-- The map without some of its routes. -/
def without (m : Registry) (routes : List Route) : Registry := fun route =>
  if route ∈ routes then none else m route

theorem without_nil (m : Registry) : m.without [] = m := by
  funext q
  simp [without]

theorem without_after (m : Registry) (route : Route) (routes : List Route) :
    (m.after (.withdraw route)).without routes = m.without (route :: routes) := by
  funext q
  by_cases own : q = route <;> simp [without, after, own]

/-- **The handles whose subscriptions a call ends:** those that it takes off the map. -/
def Ends (m : Registry) (h : HandleId) : Table.Call → Prop
  | .withdraw route => m route = some h
  | .clear => ∃ route, m route = some h
  | _ => False

end Registry

namespace Table

variable {t : Table} {hub hub' : Hub} {m : Registry}

/-- **A table mirrors a map:** its handles are those of the map, each where its route says, and no
address is kept without handles. -/
structure Mirrors (t : Table) (hub : Hub) (m : Registry) : Prop extends t.Filed hub where
  /-- An address that is kept has handles. -/
  occupied : ∀ entry ∈ t.byAddress, entry.2 ≠ []
  /-- The handles are those of the map. -/
  registered : ∀ route h, m route = some h ↔ h ∈ t.handles ∧ hub.route? h = some route

/-- **What a call on a table does,** told by the map that it mirrors. -/
structure Called (t : Table) (hub : Hub) (m : Registry) (call : Call)
    (outcome : Answer × Table × Hub) : Prop where
  /-- The answer is that of the map. -/
  answer : m.Answers call outcome.1
  /-- The table mirrors what becomes of the map. -/
  mirrors : outcome.2.1.Mirrors outcome.2.2 (m.after call)
  /-- Nothing changes if the map does not. -/
  unchanged : m.after call = m → call.delivers = false → outcome.2 = (t, hub)
  /-- Nothing is left of a table that is cleared. -/
  emptied : call = .clear → outcome.2.1 = {}
  /-- The subscriptions of the handles that are taken off the map have ended. -/
  ended : ∀ (s : SubId) (sub : Subscription), hub.subscriptions[s]? = some sub →
    m.Ends sub.handle call → outcome.2.2.subscriptions[s]? = some sub.close
  /-- The others are as they were. -/
  kept : ∀ (s : SubId) (sub : Subscription), hub.subscriptions[s]? = some sub →
    ¬m.Ends sub.handle call → call.delivers = false →
    outcome.2.2.subscriptions[s]? = some sub
  /-- A message leaves the table alone, and begins and ends no subscription. -/
  delivered : call.delivers = true → outcome.2.1 = t ∧ outcome.2.2.standing = hub.standing

/-! ## Tables that mirror a map -/

namespace Mirrors

/-- Looking up a route is looking it up in the map. -/
theorem get?_eq (mirrors : t.Mirrors hub m) : t.get? hub = m := by
  funext route
  refine Option.ext fun h => ?_
  rw [mirrors.get?_eq_some_iff, mirrors.registered]

/-- No pattern and no union is served. -/
theorem plain (mirrors : t.Mirrors hub m) {route : Route} {h : HandleId}
    (found : m route = some h) : route.path.isPattern = false := by
  obtain ⟨served, same⟩ := (mirrors.registered route h).1 found
  obtain ⟨route', found', plain, -⟩ := mirrors.place served
  obtain rfl : route = route' := by simpa [same] using found'
  exact plain

/-- A table that mirrors the empty map is empty. -/
theorem eq_empty (mirrors : t.Mirrors hub Registry.empty) : t = {} := by
  have nobody : ∀ h, h ∉ t.handles := by
    intro h served
    obtain ⟨route, found, -⟩ := mirrors.place served
    exact absurd ((mirrors.registered route h).2 ⟨served, found⟩) (by simp [Registry.empty])
  obtain ⟨entries, anyPath⟩ := t
  congr
  · -- An entry would have a handle.
    refine List.eq_nil_iff_forall_not_mem.2 fun entry listed => ?_
    obtain ⟨h, member⟩ := List.exists_mem_of_ne_nil _ (mirrors.occupied entry listed)
    exact nobody h ((mem_handles h).2 (.inl ⟨entry, listed, member⟩))
  · exact List.eq_nil_iff_forall_not_mem.2 fun h member => nobody h ((mem_handles h).2 (.inr member))

/-- Handles keep their routes, so the table mirrors the same map. -/
theorem congr (mirrors : t.Mirrors hub m)
    (same : ∀ h route, hub.route? h = some route → hub'.route? h = some route) :
    t.Mirrors hub' m where
  toFiled := mirrors.toFiled.congr same
  occupied := mirrors.occupied
  registered route h := by
    rw [mirrors.registered]
    refine and_congr_right fun served => ⟨same h route, fun found => ?_⟩
    obtain ⟨route', found', -⟩ := mirrors.place served
    rw [same h route' found'] at found
    rw [found', found]

/-- The order of the addresses does not matter. -/
theorem reorder (mirrors : t.Mirrors hub m) {order : List (String × List HandleId)}
    (same : order.Perm t.byAddress) : ({ t with byAddress := order } : Table).Mirrors hub m where
  toFiled := mirrors.toFiled.reorder same
  occupied entry listed := mirrors.occupied entry (same.mem_iff.1 listed)
  registered route h := by rw [mirrors.registered, (handles_reorder same).mem_iff]

end Mirrors

/-! ## The routes in order -/

theorem insertSorted_perm (r : Route) (routes : List Route) :
    (insertSorted r routes).Perm (r :: routes) := by
  induction routes with
  | nil => rfl
  | cons q routes ih =>
    rw [insertSorted]
    split
    · rfl
    · exact (ih.cons q).trans (.swap r q routes)

theorem routes_perm (t : Table) (hub : Hub) :
    (t.routes hub).Perm (t.handles.filterMap hub.route?) := by
  rw [routes]
  induction t.handles.filterMap hub.route? with
  | nil => rfl
  | cons r routes ih => exact (insertSorted_perm r _).trans (ih.cons r)

/-- A route put into its place. -/
theorem pairwise_insertSorted (r : Route) {routes : List Route}
    (sorted : routes.Pairwise fun q q' => (compare q q').isLE) :
    (insertSorted r routes).Pairwise fun q q' => (compare q q').isLE := by
  induction routes with
  | nil => exact List.pairwise_singleton _ _
  | cons q routes ih =>
    obtain ⟨least, others⟩ := List.pairwise_cons.1 sorted
    rw [insertSorted]
    split
    next before =>
      refine List.pairwise_cons.2 ⟨fun q' listed => ?_, sorted⟩
      rcases List.mem_cons.1 listed with rfl | listed
      · exact before
      · exact Std.TransOrd.isLE_trans before (least q' listed)
    next behind =>
      refine List.pairwise_cons.2 ⟨fun q' listed => ?_, ih others⟩
      rcases List.mem_cons.1 ((insertSorted_perm r routes).mem_iff.1 listed) with rfl | listed
      · rw [Std.OrientedOrd.eq_swap]
        cases order : compare q' q <;> simp [order] at behind ⊢
      · exact least q' listed

theorem pairwise_routes (t : Table) (hub : Hub) :
    (t.routes hub).Pairwise fun q q' => (compare q q').isLE := by
  rw [routes]
  induction t.handles.filterMap hub.route? with
  | nil => exact .nil
  | cons r routes ih => exact pairwise_insertSorted r ih

namespace Mirrors

/-- **The routes are those of the map,** each listed once and in order, and counted. -/
theorem routes_enumerate (mirrors : t.Mirrors hub m) :
    t.length = (t.routes hub).length ∧
      (t.routes hub).Pairwise (fun r q => compare r q = .lt) ∧
      ∀ route, route ∈ t.routes hub ↔ (m route).isSome := by
  obtain ⟨distinct, count⟩ := mirrors.routes_of_handles (List.Sublist.refl t.handles)
  have perm := t.routes_perm hub
  refine ⟨by rw [perm.length_eq, count, length], ?_, fun route => ?_⟩
  · have nodup : (t.routes hub).Nodup := perm.nodup_iff.2 distinct
    refine (nodup.and (t.pairwise_routes hub)).imp fun {r q} ⟨other, before⟩ => ?_
    cases order : compare r q with
    | lt => rfl
    | eq => exact absurd (Std.LawfulEqOrd.eq_of_compare order) other
    | gt => simp [order] at before
  · rw [perm.mem_iff, List.mem_filterMap, Option.isSome_iff_exists]
    simp only [mirrors.registered]

end Mirrors

/-! ## Calls one by one -/

theorem occupied_setAddress (address : String) (handles : List HandleId)
    {entries : List (String × List HandleId)} (occupied : ∀ entry ∈ entries, entry.2 ≠ []) :
    ∀ entry ∈ setAddress address handles entries, entry.2 ≠ [] := by
  induction entries with
  | nil =>
    unfold setAddress
    split
    next => simp
    next nonempty => simpa using nonempty
  | cons first rest ih =>
    obtain ⟨here, others⟩ := List.forall_mem_cons.1 occupied
    unfold setAddress
    split
    · split
      next => exact others
      next nonempty => exact List.forall_mem_cons.2 ⟨by simpa using nonempty, others⟩
    · exact List.forall_mem_cons.2 ⟨here, ih others⟩

namespace Mirrors

/-- Replacing a list leaves no address without handles. -/
theorem occupied_setSlot (mirrors : t.Mirrors hub m) (path : Path) (handles : List HandleId) :
    ∀ entry ∈ (t.setSlot path handles).byAddress, entry.2 ≠ [] := by
  unfold setSlot
  split
  next address _ => exact occupied_setAddress address handles mirrors.occupied
  next => exact mirrors.occupied

/-- A call that changes nothing. -/
theorem called_of_unchanged (mirrors : t.Mirrors hub m) {call : Call} {answer : Answer}
    (answers : m.Answers call answer) (same : m.after call = m) (stays : call ≠ .clear)
    (silent : call.delivers = false) (nobody : ∀ h, ¬m.Ends h call) :
    Called t hub m call (answer, t, hub) where
  answer := answers
  mirrors := by rwa [same]
  unchanged _ _ := rfl
  emptied cleared := absurd cleared stays
  ended s sub _ ends := absurd ends (nobody sub.handle)
  kept s sub found _ _ := found
  delivered loud := by simp [silent] at loud

/-- **A route without a handle is given the one it is taken up with.** -/
theorem serve_absent (mirrors : t.Mirrors hub m) {h : HandleId} {route : Route}
    (known : hub.route? h = some route) (plain : route.path.isPattern = false)
    (absent : m route = none) : (t.setSlot route.path (t.slot route.path ++ [h])).Mirrors hub
      (Function.update m route (some h)) where
  toFiled := by
    have taken : t.serve hub h route =
        .ok (h, t.setSlot route.path (t.slot route.path ++ [h])) := by
      rw [serve, plain, if_neg (by simp), mirrors.get?_eq, absent]
    exact mirrors.toFiled.serve known taken
  occupied := mirrors.occupied_setSlot _ _
  registered q g := by
    rw [(t.setSlot_append_perm route.path h).mem_iff, List.mem_append, List.mem_singleton]
    by_cases own : q = route
    · subst own
      rw [Function.update_self]
      constructor
      · rintro ⟨⟩
        exact ⟨.inr rfl, known⟩
      · rintro ⟨served | rfl, found⟩
        · rw [(mirrors.registered q g).2 ⟨served, found⟩] at absent
          contradiction
        · rfl
    · rw [Function.update_of_ne own, mirrors.registered]
      refine and_congr_left fun found => ⟨.inl, fun listed => listed.resolve_right ?_⟩
      rintro rfl
      exact own (Option.some.inj (found.symm.trans known))

/-- **Taking up a route.** -/
theorem called_serve (mirrors : t.Mirrors hub m) {h : HandleId} {route : Route}
    (known : hub.route? h = some route) :
    Called t hub m (.serve h route) (t.call hub (.serve h route)) := by
  by_cases plain : route.path.isPattern
  · have outcome : t.call hub (.serve h route) =
        (.served (.error (.unservable route)), t, hub) := by simp [call, serve, plain]
    rw [outcome]
    exact mirrors.called_of_unchanged (by simp [Registry.Answers, plain])
      (by simp [Registry.after, plain]) (by simp) rfl (by simp [Registry.Ends])
  cases found : m route with
  | some served =>
    have outcome : t.call hub (.serve h route) = (.served (.ok served), t, hub) := by
      simp [call, serve, plain, mirrors.get?_eq, found]
    rw [outcome]
    exact mirrors.called_of_unchanged (by simp [Registry.Answers, plain, found])
      (by simp [Registry.after, found]) (by simp) rfl (by simp [Registry.Ends])
  | none =>
    have outcome : t.call hub (.serve h route) =
        (.served (.ok h), t.setSlot route.path (t.slot route.path ++ [h]), hub) := by
      simp [call, serve, plain, mirrors.get?_eq, found]
    have grown : m.after (.serve h route) = Function.update m route (some h) := by
      simp [Registry.after, plain, found]
    rw [outcome]
    constructor
    case answer => simp [Registry.Answers, plain, found]
    case mirrors =>
      rw [grown]
      exact mirrors.serve_absent known (by simpa using plain) found
    case unchanged =>
      -- The map has changed at the route.
      intro same
      rw [← same, grown, Function.update_self] at found
      contradiction
    case emptied => simp
    case ended => simp [Registry.Ends]
    case kept => exact fun s sub listed _ _ => listed
    case delivered => simp [Call.delivers]

/-- **A handle that is given up is taken off the map,** and only that one. -/
theorem withdraw_present (mirrors : t.Mirrors hub m) {h : HandleId} {route : Route}
    (found : m route = some h) :
    (t.setSlot route.path ((t.slot route.path).erase h)).Mirrors (hub.unsubscribeAll h).2
      (Function.update m route none) := by
  obtain ⟨filed, shrunk⟩ := mirrors.erase (by rw [mirrors.get?_eq, found])
  obtain ⟨served, known⟩ := (mirrors.registered route h).1 found
  -- A handle is on the lists once, so it is on none when it is taken off.
  have remains : ∀ g, g ∈ (t.setSlot route.path ((t.slot route.path).erase h)).handles ↔
      g ∈ t.handles ∧ g ≠ h := by
    have fresh := (List.nodup_cons.1 (shrunk.nodup_iff.2 (mirrors.distinct.of_map _))).1
    intro g
    rw [← shrunk.mem_iff, List.mem_cons]
    refine ⟨fun later => ⟨.inr later, ?_⟩, fun ⟨listed, other⟩ => listed.resolve_left other⟩
    rintro rfl
    exact fresh later
  refine congr ⟨filed, mirrors.occupied_setSlot _ _, fun q g => ?_⟩ fun g q same => ?_
  · rw [remains]
    by_cases own : q = route
    · subst own
      rw [Function.update_self]
      -- Another handle of the route would have been on the lists beside this one.
      refine ⟨nofun, fun ⟨⟨listed, other⟩, same⟩ => ?_⟩
      exact absurd (mirrors.eq_of_route listed served (same.trans known.symm)) other
    · rw [Function.update_of_ne own, mirrors.registered, and_right_comm]
      refine (and_iff_left_of_imp fun ⟨_, same⟩ => ?_).symm
      rintro rfl
      exact own (Option.some.inj (same.symm.trans known))
  · rwa [Hub.route?_eq, Hub.routing_unsubscribeAll, ← Hub.route?_eq]

/-- **Giving up a route.** -/
theorem called_withdraw (sound : hub.Sound) (mirrors : t.Mirrors hub m) (route : Route) :
    Called t hub m (.withdraw route) (t.call hub (.withdraw route)) := by
  cases found : m route with
  | none =>
    have outcome : t.call hub (.withdraw route) = (.withdrawn false, t, hub) := by
      simp [call, withdraw, mirrors.get?_eq, found]
    rw [outcome]
    refine mirrors.called_of_unchanged (by simp [Registry.Answers, found]) ?_ (by simp) rfl
      (by simp [Registry.Ends, found])
    rw [Registry.after, ← found, Function.update_eq_self]
  | some h =>
    have outcome : t.call hub (.withdraw route) = (.withdrawn true,
        t.setSlot route.path ((t.slot route.path).erase h), (hub.unsubscribeAll h).2) := by
      simp [call, withdraw, mirrors.get?_eq, found]
    rw [outcome]
    constructor
    case answer => simp [Registry.Answers, found]
    case mirrors => exact mirrors.withdraw_present found
    case unchanged =>
      -- The map has changed at the route.
      intro same
      rw [← same, Registry.after, Function.update_self] at found
      contradiction
    case emptied => simp
    case ended =>
      intro s sub listed ends
      obtain rfl : h = sub.handle := Option.some.inj (found.symm.trans ends)
      rw [sound.unsubscribeAll_of_found listed, if_pos rfl]
    case kept =>
      intro s sub listed others _
      have other : sub.handle ≠ h := fun own => others (by rw [own]; exact found)
      rw [sound.unsubscribeAll_of_found listed, if_neg other]
    case delivered => simp [Call.delivers]

/-- **Routes given up one after the other.** -/
theorem withdrawEach (routes : List Route) (sound : hub.Sound) (mirrors : t.Mirrors hub m) :
    let after := routes.foldl (fun (t, hub) route => (t.withdraw hub route).2) (t, hub)
    after.1.Mirrors after.2 (m.without routes) ∧
      ∀ (s : SubId) (sub : Subscription), hub.subscriptions[s]? = some sub →
        after.2.subscriptions[s]? =
          some (if ∃ route ∈ routes, m route = some sub.handle then sub.close else sub) := by
  induction routes generalizing t hub m with
  | nil => exact ⟨by rwa [Registry.without_nil], by simp⟩
  | cons route routes ih =>
    have one := mirrors.called_withdraw sound route
    obtain ⟨emptied, others⟩ := ih (mirrors.toFiled.withdraw sound route).1 one.mirrors
    refine ⟨by rwa [Registry.without_after] at emptied, fun s sub found => ?_⟩
    by_cases own : m route = some sub.handle
    · -- It has ended, and ending it again changes nothing.
      refine (others s _ (one.ended s sub found own)).trans ?_
      rw [Subscription.close_close, ite_self, if_pos ⟨route, List.mem_cons_self, own⟩]
    · refine (others s _ (one.kept s sub found own rfl)).trans ?_
      have same : (∃ q ∈ routes, m.after (.withdraw route) q = some sub.handle) ↔
          ∃ q ∈ route :: routes, m q = some sub.handle := by
        rw [List.exists_mem_cons_iff, or_iff_right own]
        refine exists_congr fun q => and_congr_right fun _ => ?_
        by_cases here : q = route
        · simp [Registry.after, here, own]
        · simp [Registry.after, here]
      simp only [same]

/-- **Giving up every route.** -/
theorem called_clear (sound : hub.Sound) (mirrors : t.Mirrors hub m) :
    Called t hub m .clear (t.call hub .clear) := by
  obtain ⟨emptied, others⟩ := withdrawEach (t.routes hub) sound mirrors
  obtain ⟨-, -, mem_routes⟩ := mirrors.routes_enumerate
  have listed (h : HandleId) : (∃ route ∈ t.routes hub, m route = some h) ↔ m.Ends h .clear := by
    refine exists_congr fun route => and_iff_right_of_imp fun found => ?_
    rw [mem_routes, found, Option.isSome_some]
  have nothing : m.without (t.routes hub) = Registry.empty := by
    funext route
    simp [Registry.without, Registry.empty, mem_routes]
  rw [nothing] at emptied
  constructor
  case answer => rfl
  case mirrors => exact emptied
  case unchanged =>
    rintro same -
    obtain rfl : t = {} := eq_empty (same ▸ mirrors)
    rfl
  case emptied => exact fun _ => emptied.eq_empty
  case ended =>
    intro s sub found ends
    exact (others s sub found).trans (by rw [if_pos ((listed _).2 ends)])
  case kept =>
    intro s sub found others' _
    exact (others s sub found).trans (by rw [if_neg (mt (listed _).1 others')])
  case delivered => simp [Call.delivers]

/-- A route is looked up. -/
theorem called_get (mirrors : t.Mirrors hub m) (route : Route) :
    Called t hub m (.get route) (t.call hub (.get route)) := by
  refine mirrors.called_of_unchanged ?_ rfl (by simp) rfl (by simp [Registry.Ends])
  rw [mirrors.get?_eq]
  rfl

/-- A message is dispatched. -/
theorem called_dispatch (mirrors : t.Mirrors hub m) (address : String) (arguments : List Argument) :
    Called t hub m (.dispatch address arguments) (t.call hub (.dispatch address arguments)) := by
  have same := t.standing_dispatch hub address arguments
  constructor
  case answer => exact ⟨_, rfl⟩
  case mirrors =>
    refine mirrors.congr fun h route found => ?_
    show Hub.route? (t.dispatch hub address arguments).2 h = some route
    rwa [Hub.route?_of_standing same]
  case unchanged => simp [Call.delivers]
  case emptied => simp
  case ended => simp [Registry.Ends]
  case kept => simp [Call.delivers]
  case delivered => exact fun _ => ⟨rfl, same⟩

end Mirrors

/-! ## Tables reached by calls -/

/-- **Tables reached by calls,** and the maps that the same calls lead to.  Anything else may happen to
the handles in between, and the addresses of a table are in no particular order. -/
inductive Calls : Table → Hub → Registry → Prop
  /-- Nothing is served. -/
  | empty : Calls {} {} Registry.empty
  /-- Something else happens. -/
  | step {t : Table} {hub hub' : Hub} {m : Registry} : Calls t hub m → hub.Step hub' →
      Calls t hub' m
  /-- A call is made. -/
  | call {t : Table} {hub : Hub} {m : Registry} (call : Call) : Calls t hub m → call.Known hub →
      Calls (t.call hub call).2.1 (t.call hub call).2.2 (m.after call)
  /-- The addresses are gone through in another order. -/
  | reorder {t : Table} {hub : Hub} {m : Registry} {order : List (String × List HandleId)} :
      Calls t hub m → order.Perm t.byAddress → Calls { t with byAddress := order } hub m

/-- **What a call does to a table that mirrors a map.** -/
theorem Mirrors.called (sound : hub.Sound) (mirrors : t.Mirrors hub m) {call : Call}
    (known : call.Known hub) : Called t hub m call (t.call hub call) := by
  cases call with
  | serve h route => exact mirrors.called_serve known
  | withdraw route => exact mirrors.called_withdraw sound route
  | clear => exact mirrors.called_clear sound
  | get route => exact mirrors.called_get route
  | dispatch address arguments => exact mirrors.called_dispatch address arguments

/-- A call leaves every handle with the subscriptions that it lists. -/
theorem sound_call (sound : hub.Sound) (filed : t.Filed hub) (call : Call) :
    (t.call hub call).2.2.Sound := by
  cases call with
  | serve h route =>
    rw [Table.call]
    split <;> exact sound
  | withdraw route => exact (filed.withdraw sound route).1
  | clear => exact (filed.withdrawEach _ sound).1
  | get route => exact sound
  | dispatch address arguments => exact sound.of_standing (t.standing_dispatch hub address arguments)

/-- **A table reached by calls mirrors the map.** -/
theorem Calls.mirrors (calls : Calls t hub m) : hub.Sound ∧ t.Mirrors hub m := by
  induction calls with
  | empty =>
    refine ⟨Hub.sound_empty, ⟨?_, by simp, by simp [Registry.empty, handles]⟩⟩
    constructor <;> simp [handles]
  | step _ taken ih => exact ⟨taken.sound ih.1, ih.2.congr fun _ _ found => taken.route? found⟩
  | call call _ known ih =>
    exact ⟨sound_call ih.1 ih.2.toFiled call, (ih.2.called ih.1 known).mirrors⟩
  | reorder _ same ih => exact ⟨ih.1, ih.2.reorder same⟩

/-- Calls and any run of operations on the handles. -/
theorem Calls.run (calls : Calls t hub m) {events : List Event} {hub' : Hub}
    (run : Run hub events hub') : Calls t hub' m := by
  induction run with
  | stay => exact calls
  | step _ permitted ih => exact ih.step (.perform _ permitted)

/-- A reached table is reached after a call. -/
theorem Reachable.call (reachable : t.Reachable hub) {call : Call} (known : call.Known hub) :
    (t.call hub call).2.1.Reachable (t.call hub call).2.2 := by
  cases call with
  | serve h route =>
    rw [Table.call]
    split
    next => exact reachable
    next served t' taken => exact reachable.serve known taken
  | withdraw route => exact reachable.withdraw route
  | clear => exact reachable.clear
  | get route => exact reachable
  | dispatch address arguments => exact reachable.dispatched t address arguments

/-- **A reached table is reached by calls.** -/
theorem Reachable.exists_calls (reachable : t.Reachable hub) : ∃ m, Calls t hub m := by
  induction reachable with
  | empty => exact ⟨_, .empty⟩
  | step _ taken ih =>
    obtain ⟨m, calls⟩ := ih
    exact ⟨m, calls.step taken⟩
  | @serve t t' hub h served route _ known filed ih =>
    obtain ⟨m, calls⟩ := ih
    have outcome : t.call hub (.serve h route) = (.served (.ok served), t', hub) := by
      rw [Table.call, filed]
    have taken := calls.call (.serve h route) known
    rw [outcome] at taken
    exact ⟨_, taken⟩
  | withdraw route _ ih =>
    obtain ⟨m, calls⟩ := ih
    exact ⟨_, calls.call (.withdraw route) trivial⟩
  | clear _ ih =>
    obtain ⟨m, calls⟩ := ih
    exact ⟨_, calls.call .clear trivial⟩
  | reorder _ same ih =>
    obtain ⟨m, calls⟩ := ih
    exact ⟨m, calls.reorder same⟩

/-- **A table is a map from routes to handles.** In every state that calls lead to, its handles are
those of the map, where their routes say; no pattern is served; and the routes are listed in order,
each once, and counted.  What a further call does is told by the map. -/
theorem Calls.refines (calls : Calls t hub m) :
    t.Mirrors hub m ∧
    (∀ route h, m route = some h → route.path.isPattern = false) ∧
    (t.length = (t.routes hub).length ∧ (t.routes hub).Pairwise (fun r q => compare r q = .lt) ∧
      ∀ route, route ∈ t.routes hub ↔ (m route).isSome) ∧
    ∀ call : Call, call.Known hub → Called t hub m call (t.call hub call) := by
  obtain ⟨sound, mirrors⟩ := calls.mirrors
  exact ⟨mirrors, fun _ _ found => mirrors.plain found, mirrors.routes_enumerate,
    fun _ known => mirrors.called sound known⟩

/-- Of two handles of one route the first is served and answers for the second, and giving up the
route ends the first one's subscription alone. -/
theorem Calls.refines_equal_routes :
    let route : Route := ⟨.single (.literal "/a"), .typed .int32 []⟩
    let hub := (replay {} [.create route, .create route, .subscribe 0, .subscribe 1]).2
    let t : Table := ⟨[("/a", [0])], []⟩
    let m := Registry.empty.after (.serve 0 route)
    Calls t hub m ∧ t.routes hub = [route] ∧
    t.call hub (.serve 1 route) = (.served (.ok 0), t, hub) ∧
    (t.call hub (.withdraw route)).1 = .withdrawn true ∧
    (t.call hub (.withdraw route)).2.1 = {} ∧
    (t.call hub (.withdraw route)).2.2.subscriptions[0]? =
      some { handle := 0, inbox := [.ended], active := false } ∧
    (t.call hub (.withdraw route)).2.2.subscriptions[1]? = some { handle := 1 } := by
  intro route hub t m
  have made : Calls {} hub Registry.empty := Calls.empty.run (run_replay _ _ (by decide))
  have calls : Calls t hub m := made.call (.serve 0 route) rfl
  have served : m route = some 0 := rfl
  obtain ⟨-, -, -, called⟩ := Calls.refines calls
  have again := called (.serve 1 route) rfl
  have away := called (.withdraw route) trivial
  refine ⟨calls, rfl, ?_, away.answer, ?_, ?_, ?_⟩
  · exact Prod.ext again.answer (again.unchanged rfl rfl)
  · rfl
  · exact away.ended 0 _ rfl served
  · exact away.kept 1 _ rfl (by simp [Registry.Ends, served]) rfl

end Table

end SoundControl
