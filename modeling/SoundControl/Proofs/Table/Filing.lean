import Mathlib.Data.List.Nodup
import SoundControl.Proofs.Hub.Operation
import SoundControl.Table

/-!
# Where routes are filed

A route is looked up under its literal address, or on the list of the routes for every address.  So
a served handle must be where its route says, and be the only one there with that route.

* **`Table.Filed`** — it is, for every served handle.
* **`Table.get?_eq_some_iff`** — looking up a route finds the served handle that has it.
* **`Hub.Step`**, **`Table.Reachable`** — tables and hubs reached by any operations.
* **`Table.Reachable.filed`** — they are filed.
-/

namespace SoundControl

open Address Wire

namespace Table

variable {t : Table} {hub hub' : Hub}

/-- **Every served handle is where its route says,** and no two of them serve equal routes. -/
structure Filed (t : Table) (hub : Hub) : Prop where
  /-- An address has one list. -/
  keys : (t.byAddress.map Prod.fst).Nodup
  /-- The list of an address is of routes with that address. -/
  literal : ∀ entry ∈ t.byAddress, ∀ h ∈ entry.2,
    ∃ route, hub.route? h = some route ∧ route.path = .single (.literal entry.1)
  /-- The other list is of routes for every address. -/
  anywhere : ∀ h ∈ t.anyPath, ∃ route, hub.route? h = some route ∧ route.path = .any
  /-- The routes are different. -/
  distinct : (t.handles.map hub.route?).Nodup

/-! ## The list of an address -/

@[simp] theorem atAddress_nil (anyPath : List HandleId) (address : String) :
    ({ byAddress := [], anyPath := anyPath } : Table).atAddress address = [] := rfl

theorem atAddress_cons (key : String) (handles : List HandleId)
    (rest : List (String × List HandleId)) (anyPath : List HandleId) (address : String) :
    ({ byAddress := (key, handles) :: rest, anyPath := anyPath } : Table).atAddress address =
      if key = address then handles
      else ({ byAddress := rest, anyPath := anyPath } : Table).atAddress address := by
  unfold atAddress
  by_cases here : key = address <;> simp [here]

/-- With one list for an address, a handle at the address is one of an entry with that key. -/
theorem mem_atAddress (keys : (t.byAddress.map Prod.fst).Nodup) (address : String)
    (h : HandleId) :
    h ∈ t.atAddress address ↔ ∃ handles, (address, handles) ∈ t.byAddress ∧ h ∈ handles := by
  obtain ⟨entries, anyPath⟩ := t
  induction entries with
  | nil => simp
  | cons entry rest ih =>
    obtain ⟨key, old⟩ := entry
    obtain ⟨fresh, keys⟩ := List.nodup_cons.1 keys
    rw [atAddress_cons]
    by_cases here : key = address
    · subst here
      rw [if_pos rfl]
      constructor
      · exact fun member => ⟨old, List.mem_cons_self, member⟩
      · rintro ⟨handles, listed, member⟩
        rcases List.mem_cons.1 listed with same | later
        · cases same
          exact member
        · exact absurd (List.mem_map_of_mem later) fresh
    · rw [if_neg here, ih keys]
      simp [Ne.symm here]

/-- What is in the new lists and what was in the list that is replaced make up what was in the old
lists and the new one. -/
theorem setAddress_perm (address : String) (handles anyPath : List HandleId)
    (entries : List (String × List HandleId)) :
    ((setAddress address handles entries).flatMap (·.2) ++
      ({ byAddress := entries, anyPath := anyPath } : Table).atAddress address).Perm
      (entries.flatMap (·.2) ++ handles) := by
  induction entries with
  | nil => cases handles <;> simp [setAddress]
  | cons entry rest ih =>
    obtain ⟨key, old⟩ := entry
    rw [atAddress_cons]
    unfold setAddress
    by_cases here : key = address
    · have replaced : (if handles.isEmpty then rest else (address, handles) :: rest).flatMap
          (·.2) = handles ++ rest.flatMap (·.2) := by
        cases handles <;> simp
      rw [if_pos here, if_pos here, replaced, List.flatMap_cons]
      -- The old list and the new one change places.
      refine List.perm_append_comm.trans ?_
      rw [List.append_assoc]
      exact List.perm_append_comm.append_left old
    · rw [if_neg here, if_neg here, List.flatMap_cons, List.flatMap_cons, List.append_assoc,
        List.append_assoc]
      exact ih.append_left old

theorem mem_setAddress {address : String} {handles : List HandleId}
    {entries : List (String × List HandleId)} {entry : String × List HandleId}
    (member : entry ∈ setAddress address handles entries) :
    entry = (address, handles) ∨ entry ∈ entries := by
  induction entries with
  | nil =>
    unfold setAddress at member
    split at member
    · simp at member
    · exact .inl (List.mem_singleton.1 member)
  | cons first rest ih =>
    obtain ⟨key, old⟩ := first
    unfold setAddress at member
    split at member
    · split at member
      · exact .inr (List.mem_cons_of_mem _ member)
      · rcases List.mem_cons.1 member with new | later
        · exact .inl new
        · exact .inr (List.mem_cons_of_mem _ later)
    · rcases List.mem_cons.1 member with same | later
      · exact .inr (same ▸ List.mem_cons_self)
      · exact (ih later).imp id (List.mem_cons_of_mem _)

theorem keys_setAddress {address : String} {handles : List HandleId}
    {entries : List (String × List HandleId)} (keys : (entries.map Prod.fst).Nodup) :
    ((setAddress address handles entries).map Prod.fst).Nodup := by
  induction entries with
  | nil =>
    unfold setAddress
    split <;> simp
  | cons first rest ih =>
    obtain ⟨key, old⟩ := first
    obtain ⟨fresh, keys⟩ := List.nodup_cons.1 keys
    unfold setAddress
    split
    next here =>
      split
      · exact keys
      · subst here
        exact List.nodup_cons.2 ⟨fresh, keys⟩
    next other =>
      refine List.nodup_cons.2 ⟨?_, ih keys⟩
      intro member
      obtain ⟨entry, listed, same⟩ := List.mem_map.1 member
      rcases mem_setAddress listed with rfl | earlier
      · exact other same.symm
      · exact fresh (same ▸ List.mem_map_of_mem earlier)

/-! ## The place of a route -/

/-- A path that is no pattern is that of all addresses or a literal one. -/
theorem any_or_literal {path : Path} (plain : path.isPattern = false) :
    path = .any ∨ ∃ address, path = .single (.literal address) := by
  cases path with
  | any => exact .inl rfl
  | single atom =>
    cases atom with
    | literal address => exact .inr ⟨address, rfl⟩
    | pattern p => simp [Path.isPattern, Atom.isPattern] at plain
  | several atoms => simp [Path.isPattern] at plain

theorem slot_any (t : Table) : t.slot .any = t.anyPath := rfl

theorem slot_literal (t : Table) (address : String) :
    t.slot (.single (.literal address)) = t.atAddress address := rfl

theorem mem_handles (h : HandleId) :
    h ∈ t.handles ↔ (∃ entry ∈ t.byAddress, h ∈ entry.2) ∨ h ∈ t.anyPath := by
  rw [handles, List.mem_append, List.mem_flatMap]

/-- Replacing a list exchanges its handles. -/
theorem setSlot_perm (t : Table) (path : Path) (handles : List HandleId) :
    ((t.setSlot path handles).handles ++ t.slot path).Perm (t.handles ++ handles) := by
  have apart (a b c : List HandleId) : ((a ++ b) ++ c).Perm ((a ++ c) ++ b) := by
    rw [List.append_assoc, List.append_assoc]
    exact List.perm_append_comm.append_left a
  unfold setSlot slot Table.handles
  split
  next address _ =>
    have swapped := setAddress_perm address handles t.anyPath t.byAddress
    exact (apart _ _ _).trans ((swapped.append_right _).trans (apart _ _ _))
  next => exact apart _ _ _

/-- A handle behind those of a list is one more. -/
theorem setSlot_append_perm (t : Table) (path : Path) (h : HandleId) :
    (t.setSlot path (t.slot path ++ [h])).handles.Perm (t.handles ++ [h]) := by
  have swapped := setSlot_perm t path (t.slot path ++ [h])
  refine (List.perm_append_right_iff (t.slot path)).1 (swapped.trans ?_)
  rw [List.append_assoc]
  exact List.perm_append_comm.append_left _

namespace Filed

/-- A served handle has a route and is on the list of the route's path. -/
theorem place (filed : t.Filed hub) {h : HandleId} (served : h ∈ t.handles) :
    ∃ route, hub.route? h = some route ∧ route.path.isPattern = false ∧
      h ∈ t.slot route.path := by
  rcases (mem_handles h).1 served with ⟨entry, listed, member⟩ | member
  · obtain ⟨route, found, path⟩ := filed.literal entry listed h member
    refine ⟨route, found, by simp [path, Path.isPattern, Atom.isPattern], ?_⟩
    rw [path, slot_literal, mem_atAddress filed.keys]
    exact ⟨entry.2, listed, member⟩
  · obtain ⟨route, found, path⟩ := filed.anywhere h member
    exact ⟨route, found, by simp [path, Path.isPattern], by rwa [path, slot_any]⟩

/-- What is on the list of a path is served. -/
theorem served (filed : t.Filed hub) {path : Path} {h : HandleId} (member : h ∈ t.slot path) :
    h ∈ t.handles := by
  rw [mem_handles]
  unfold slot at member
  split at member
  · obtain ⟨handles, listed, member⟩ := (mem_atAddress filed.keys _ h).1 member
    exact .inl ⟨_, listed, member⟩
  · exact .inr member

/-- Two served handles with one route are the same. -/
theorem eq_of_route (filed : t.Filed hub) {g h : HandleId} (served : g ∈ t.handles)
    (served' : h ∈ t.handles) (same : hub.route? g = hub.route? h) : g = h :=
  List.inj_on_of_nodup_map filed.distinct served served' same

/-- **Looking up a route finds the served handle that has it.** -/
theorem get?_eq_some_iff (filed : t.Filed hub) (route : Route) (h : HandleId) :
    t.get? hub route = some h ↔ h ∈ t.handles ∧ hub.route? h = some route := by
  unfold get?
  constructor
  · intro found
    have same := List.find?_some found
    exact ⟨filed.served (List.mem_of_find?_eq_some found), by simpa using same⟩
  · rintro ⟨served, same⟩
    obtain ⟨route', found, -, listed⟩ := filed.place served
    rw [same, Option.some.injEq] at found
    subst found
    -- Something is found where `h` is, and equal routes are those of one handle.
    cases looked : (t.slot route.path).find? fun h => hub.route? h = some route with
    | none =>
      rw [List.find?_eq_none] at looked
      exact absurd same (by simpa using looked h listed)
    | some g =>
      have same' : hub.route? g = some route := by simpa using List.find?_some looked
      have served' := filed.served (List.mem_of_find?_eq_some looked)
      rw [filed.eq_of_route served' served (same'.trans same.symm)]

/-- One handle serves one route. -/
theorem route_unique (filed : t.Filed hub) {route other : Route} {h : HandleId}
    (served : t.get? hub route = some h) (served' : t.get? hub other = some h) :
    route = other := by
  have found := ((filed.get?_eq_some_iff route h).1 served).2
  have found' := ((filed.get?_eq_some_iff other h).1 served').2
  exact Option.some.inj (found.symm.trans found')

end Filed

/-! ## Operations on the table -/

/-- **Replacing the list of a path** by handles whose routes have that path. -/
theorem Filed.setSlot (filed : t.Filed hub) {path : Path} {handles : List HandleId}
    (plain : path.isPattern = false)
    (fits : ∀ h ∈ handles, ∃ route, hub.route? h = some route ∧ route.path = path)
    (distinct : ((t.setSlot path handles).handles.map hub.route?).Nodup) :
    (t.setSlot path handles).Filed hub := by
  rcases any_or_literal plain with rfl | ⟨address, rfl⟩
  · exact ⟨filed.keys, filed.literal, fits, distinct⟩
  · refine ⟨keys_setAddress filed.keys, ?_, filed.anywhere, distinct⟩
    intro entry listed h member
    rcases mem_setAddress listed with rfl | earlier
    · exact fits h member
    · exact filed.literal entry earlier h member

theorem Filed.route_of_slot (filed : t.Filed hub) {path : Path} (plain : path.isPattern = false)
    {h : HandleId} (member : h ∈ t.slot path) :
    ∃ route, hub.route? h = some route ∧ route.path = path := by
  rcases any_or_literal plain with rfl | ⟨address, rfl⟩
  · exact filed.anywhere h member
  · obtain ⟨handles, listed, member⟩ := (mem_atAddress filed.keys address h).1 member
    exact filed.literal _ listed h member

/-- **Taking up a route files its handle,** unless an equal route is served. -/
theorem Filed.serve (filed : t.Filed hub) {h served : HandleId} {route : Route} {t' : Table}
    (found : hub.route? h = some route) (taken : t.serve hub h route = .ok (served, t')) :
    t'.Filed hub := by
  unfold Table.serve at taken
  split at taken
  next => simp at taken
  next servable =>
    have plain : route.path.isPattern = false := by simpa using servable
    split at taken
    next => cases taken; exact filed
    next absent =>
      cases taken
      have grown := t.setSlot_append_perm route.path h
      refine filed.setSlot plain ?_ ?_
      · intro g member
        rcases List.mem_append.1 member with earlier | last
        · exact filed.route_of_slot plain earlier
        · rw [List.mem_singleton] at last
          exact ⟨route, last ▸ found, rfl⟩
      · rw [(grown.map hub.route?).nodup_iff, List.map_append, List.nodup_append]
        refine ⟨filed.distinct, by simp, ?_⟩
        rintro r earlier r' last rfl
        -- A handle with the new route would have been found.
        obtain ⟨g, listed, same⟩ := List.mem_map.1 earlier
        obtain rfl : r = some route := by simpa [found] using last
        rw [(filed.get?_eq_some_iff route g).2 ⟨listed, same⟩] at absent
        simp at absent

/-- **Giving up a route** takes its handle off its list. -/
theorem Filed.erase (filed : t.Filed hub) {h : HandleId} {route : Route}
    (found : t.get? hub route = some h) :
    (t.setSlot route.path ((t.slot route.path).erase h)).Filed hub ∧
      (h :: (t.setSlot route.path ((t.slot route.path).erase h)).handles).Perm t.handles := by
  obtain ⟨served, same⟩ := (filed.get?_eq_some_iff route h).1 found
  obtain ⟨route', found', plain, listed⟩ := filed.place served
  rw [same, Option.some.injEq] at found'
  subst found'
  have swapped := setSlot_perm t route.path ((t.slot route.path).erase h)
  -- The list of the route is its handle and the others, which are exchanged for the others.
  have shrunk : (h :: (t.setSlot route.path ((t.slot route.path).erase h)).handles).Perm t.handles := by
    have parts : (t.slot route.path).Perm (h :: (t.slot route.path).erase h) :=
      List.perm_cons_erase listed
    refine (List.perm_append_right_iff ((t.slot route.path).erase h)).1 ?_
    refine List.Perm.trans ?_ swapped
    refine List.Perm.trans ?_ (parts.symm.append_left _)
    exact List.perm_middle.symm
  refine ⟨filed.setSlot plain ?_ ?_, shrunk⟩
  · intro g member
    exact filed.route_of_slot plain (List.mem_of_mem_erase member)
  · have all := ((shrunk.map hub.route?).nodup_iff).2 filed.distinct
    exact (List.nodup_cons.1 all).2

/-- Handles keep their routes, so what is filed stays filed. -/
theorem Filed.congr (filed : t.Filed hub)
    (same : ∀ h route, hub.route? h = some route → hub'.route? h = some route) :
    t.Filed hub' where
  keys := filed.keys
  literal entry listed h member := by
    obtain ⟨route, found, path⟩ := filed.literal entry listed h member
    exact ⟨route, same h route found, path⟩
  anywhere h member := by
    obtain ⟨route, found, path⟩ := filed.anywhere h member
    exact ⟨route, same h route found, path⟩
  distinct := by
    have agree : t.handles.map hub'.route? = t.handles.map hub.route? := by
      refine List.map_congr_left fun h served => ?_
      obtain ⟨route, found, -⟩ := filed.place served
      rw [found, same h route found]
    rw [agree]
    exact filed.distinct

/-- The same handles are served in another order. -/
theorem handles_reorder {order : List (String × List HandleId)} (same : order.Perm t.byAddress) :
    ({ t with byAddress := order } : Table).handles.Perm t.handles :=
  (same.flatMap_right _).append_right _

/-- The order of the addresses does not matter. -/
theorem Filed.reorder (filed : t.Filed hub) {order : List (String × List HandleId)}
    (same : order.Perm t.byAddress) : ({ t with byAddress := order } : Table).Filed hub where
  keys := ((same.map Prod.fst).nodup_iff).2 filed.keys
  literal entry listed := filed.literal entry (same.mem_iff.1 listed)
  anywhere := filed.anywhere
  distinct := (((handles_reorder same).map hub.route?).nodup_iff).2 filed.distinct

/-- **Giving up a route leaves the others where they are.** -/
theorem Filed.withdraw (sound : hub.Sound) (filed : t.Filed hub) (route : Route) :
    (t.withdraw hub route).2.2.Sound ∧
      (t.withdraw hub route).2.1.Filed (t.withdraw hub route).2.2 := by
  unfold Table.withdraw
  split
  next => exact ⟨sound, filed⟩
  next h found =>
    refine ⟨sound.unsubscribeAll h, (filed.erase found).1.congr ?_⟩
    intro g route found
    rw [Hub.route?_eq, Hub.routing_unsubscribeAll, ← Hub.route?_eq]
    exact found

theorem Filed.withdrawEach (routes : List Route) (sound : hub.Sound) (filed : t.Filed hub) :
    let after := routes.foldl (fun (t, hub) route => (t.withdraw hub route).2) (t, hub)
    after.2.Sound ∧ after.1.Filed after.2 := by
  induction routes generalizing t hub with
  | nil => exact ⟨sound, filed⟩
  | cons route routes ih =>
    obtain ⟨sound, filed⟩ := filed.withdraw sound route
    exact ih sound filed

end Table

/-! ## Reached tables -/

namespace Hub

variable {hub hub' : Hub}

/-- **What else happens to the handles and subscriptions** of a table. -/
inductive Step (hub : Hub) : Hub → Prop
  /-- An operation is done. -/
  | perform (op : Operation) : hub.Permits op → Step hub (hub.perform op).2
  /-- Inboxes are given up. -/
  | retain (ids : List SubId) : Step hub (hub.retain ids)
  /-- A merged stream is made. -/
  | addMerge : Step hub hub.addMerge.2
  /-- A merged stream takes up a member. -/
  | attach (m : MergeId) (s : SubId) : Step hub (hub.attach m s).2
  /-- A merged stream gives up a member. -/
  | detach (m : MergeId) (s : SubId) : Step hub (hub.detach m s).2
  /-- A merged stream is read. -/
  | pollMerge (m : MergeId) : Step hub (hub.pollMerge m).2
  /-- A merged stream is given up. -/
  | closeMerge (m : MergeId) : Step hub (hub.closeMerge m)

/-- A step is an operation, or leaves the standing as it is. -/
theorem Step.perform_or_standing (step : hub.Step hub') :
    (∃ op, hub.Permits op ∧ hub' = (hub.perform op).2) ∨ hub'.standing = hub.standing := by
  cases step with
  | perform op permitted => exact .inl ⟨op, permitted, rfl⟩
  | retain ids => exact .inr (hub.standing_retain ids)
  | addMerge => exact .inr hub.standing_addMerge
  | attach m s => exact .inr (hub.standing_attach m s)
  | detach m s => exact .inr (hub.standing_detachIn m s _)
  | pollMerge m => exact .inr (hub.standing_pollIn m _)
  | closeMerge m => exact .inr (hub.standing_closeMerge m)

theorem Step.sound (step : hub.Step hub') (sound : hub.Sound) : hub'.Sound := by
  rcases step.perform_or_standing with ⟨op, permitted, rfl⟩ | same
  · exact sound.perform permitted
  · exact sound.of_standing same

/-- **A handle keeps its route.** -/
theorem Step.route? (step : hub.Step hub') {h : HandleId} {route : Route}
    (found : hub.route? h = some route) : hub'.route? h = some route := by
  rcases step.perform_or_standing with ⟨op, -, rfl⟩ | same
  · exact route?_perform op found
  · rwa [route?_of_standing same]

end Hub

namespace Table

variable {t : Table} {hub : Hub}

/-- **Tables reached by taking up and giving up routes,** with anything else happening to their
handles in between.  The addresses of a table are in no particular order. -/
inductive Reachable : Table → Hub → Prop
  /-- Nothing is served. -/
  | empty : Reachable {} {}
  /-- Something else happens. -/
  | step {t : Table} {hub hub' : Hub} : Reachable t hub → hub.Step hub' → Reachable t hub'
  /-- A route is taken up. -/
  | serve {t t' : Table} {hub : Hub} {h served : HandleId} {route : Route} : Reachable t hub →
      hub.route? h = some route → t.serve hub h route = .ok (served, t') → Reachable t' hub
  /-- A route is given up. -/
  | withdraw {t : Table} {hub : Hub} (route : Route) : Reachable t hub →
      Reachable (t.withdraw hub route).2.1 (t.withdraw hub route).2.2
  /-- Every route is given up. -/
  | clear {t : Table} {hub : Hub} : Reachable t hub → Reachable (t.clear hub).1 (t.clear hub).2
  /-- The addresses are gone through in another order. -/
  | reorder {t : Table} {hub : Hub} {order : List (String × List HandleId)} : Reachable t hub →
      order.Perm t.byAddress → Reachable { t with byAddress := order } hub

/-- **In a reached table every served handle is where its route says.** -/
theorem Reachable.filed (reachable : t.Reachable hub) : hub.Sound ∧ t.Filed hub := by
  induction reachable with
  | empty =>
    refine ⟨Hub.sound_empty, ?_⟩
    constructor <;> simp [handles]
  | step _ taken ih => exact ⟨taken.sound ih.1, ih.2.congr fun _ _ found => taken.route? found⟩
  | serve _ found taken ih => exact ⟨ih.1, ih.2.serve found taken⟩
  | withdraw route _ ih => exact ih.2.withdraw ih.1 route
  | clear _ ih => exact ih.2.withdrawEach _ ih.1
  | reorder _ same ih => exact ⟨ih.1, ih.2.reorder same⟩

/-- A table is reached by any run of operations on its handles. -/
theorem Reachable.run (reachable : t.Reachable hub) {events : List Event} {hub' : Hub}
    (run : Run hub events hub') : t.Reachable hub' := by
  induction run with
  | stay => exact reachable
  | step _ permitted ih => exact ih.step (.perform _ permitted)

end Table

end SoundControl
