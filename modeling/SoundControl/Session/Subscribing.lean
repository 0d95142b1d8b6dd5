import SoundControl.Session.Basic

/-!
# Subscribing in a session

What can be done to named route handles, subscriptions, groups and merged streams.

* **`Session.StoredRoute`** — a handle that was given a name.
* **`Session.addRoute`**, **`Session.subscribe`**, **`Session.publish`** — handles and subscriptions.
* **`Session.Operand`**, **`Session.uniteGroups`** — groups from their parts.
* **`Session.openMerge`**, **`Session.pollMerge`**, **`Session.drainMerge`** — merged streams.
-/

namespace SoundControl

namespace Session

/-! ## Routes -/

/-- **A handle that was given a name.** -/
structure StoredRoute where
  /-- Its route. -/
  route : Route
  /-- The names that bore the handle before, in order. -/
  sharing : List String

/-- Give a name to a handle. -/
def storeRoute (name : String) (h : HandleId) : Action StoredRoute := do
  let sharing := namesWhere (· == h) (← get).routes
  modify fun s => { s with routes := assign name h s.routes }
  return ⟨← routeOf h, sharing⟩

/-- A named handle of a new route. -/
def addRoute (name : String) (route : Route) : Action StoredRoute := do
  storeRoute name (← onHub (·.addHandle route))

/-- Another name for a handle. -/
def cloneRoute (name source : String) : Action StoredRoute := do
  storeRoute name (← routeNamed source)

/-- A named handle of the route of two others. -/
def uniteRoutes (name a b : String) : Action (Except Error StoredRoute) := do
  match (← routeOf (← routeNamed a)).union (← routeOf (← routeNamed b)) with
  | .error e => return .error e
  | .ok route => return .ok (← addRoute name route)

/-- Whether two names share a handle. -/
def shareHandle (a b : String) : Action Bool := do return (← routeNamed a) == (← routeNamed b)

/-- How many subscribers a handle has. -/
def subscriberCount (name : String) : Action Nat := do
  return ((← hub).subscribers (← routeNamed name)).length

/-- Put values into the inbox of every subscriber of a handle. -/
def publish (name : String) (values : List Value) : Action Nat := do
  let h ← routeNamed name
  onHub (·.publish h values)

/-- End every subscription of a handle. -/
def unsubscribeAll (name : String) : Action Nat := do
  let h ← routeNamed name
  onHub (·.unsubscribeAll h)

/-! ## Subscriptions -/

/-- A named subscription to a handle. -/
def subscribe (name route : String) : Action SubId := do
  let h ← routeNamed route
  let s ← onHub (·.subscribe h)
  modify fun session => { session with subs := assign name s session.subs }
  return s

/-- End a subscription as one of a handle. -/
def withdrawSub (route sub : String) : Action Bool := do
  let h ← routeNamed route
  let s ← subNamed sub
  onHub (·.withdraw h s)

/-- End a subscription. -/
def unsubscribe (sub : String) : Action Bool := do
  let s ← subNamed sub
  onHub (·.unsubscribe s)

/-- Put values into one inbox. -/
def deliver (sub : String) (values : List Value) : Action Bool := do
  let s ← subNamed sub
  onHub (·.deliver s values)

/-- The next values of a subscription. -/
def next (sub : String) : Action (Poll (List Value)) := do
  let s ← subNamed sub
  onHub (·.next s)

/-- The values of a subscription that are there, and whether its end was reached. -/
def collect (sub : String) : Action (List (List Value) × Bool) := do
  let s ← subNamed sub
  onHub (·.collectAll s)

/-! ## Groups -/

/-- Give a name to a group; its size. -/
def storeGroup (name : String) (group : Group) : Action Nat := do
  modify fun s => { s with groups := assign name group s.groups }
  return group.length

/-- A named group of subscriptions. -/
def group (name : String) (subs : List String) : Action Nat := do
  storeGroup name (Group.ofList (← subsNamed subs))

/-- **A part of a group.** -/
inductive Operand where
  /-- A subscription. -/
  | sub (name : String)
  /-- A group. -/
  | group (name : String)
  /-- A handle, which is subscribed to. -/
  | route (name : String)
  deriving DecidableEq, Repr

/-- The members that a part stands for. -/
def operandMembers : Operand → Action Group
  | .sub name => return [← subNamed name]
  | .group name => groupNamed name
  | .route name => do
    let h ← routeNamed name
    return [← onHub (·.subscribe h)]

/-- A named group of the members of two parts. -/
def uniteGroups (name : String) (a b : Operand) : Action Nat := do
  let left ← operandMembers a
  let right ← operandMembers b
  storeGroup name (Group.union left right)

/-- More members for a group. -/
def extendGroup (name : String) (subs : List String) : Action Nat := do
  storeGroup name (Group.union (← groupNamed name) (← subsNamed subs))

/-- A member more; whether it is new. -/
def insertMember (name sub : String) : Action Bool := do
  let g ← groupNamed name
  let s ← subNamed sub
  let _ ← storeGroup name (Group.insert s g)
  return !g.contains s

/-- A member less; whether it was one. -/
def eraseMember (name sub : String) : Action Bool := do
  let g ← groupNamed name
  let s ← subNamed sub
  let _ ← storeGroup name (g.erase s)
  return g.contains s

/-- A named new subscription as a member. -/
def subscribeMember (name sub route : String) : Action Nat := do
  let g ← groupNamed name
  storeGroup name (Group.insert (← subscribe sub route) g)

/-- Put values into the inbox of every member. -/
def publishGroup (name : String) (values : List Value) : Action Nat := do
  let g ← groupNamed name
  onHub fun hub => Group.publish g hub values

/-- End every member. -/
def unsubscribeGroup (name : String) : Action Nat := do
  let g ← groupNamed name
  onHub (Group.unsubscribe g)

/-- What there is to say about a group. -/
structure GroupReport where
  /-- How many members. -/
  length : Nat
  /-- Names of the members. -/
  members : List String
  /-- Their distinct routes. -/
  routes : List Route
  /-- How many have not ended. -/
  active : Nat
  /-- Names of handles whose route a member subscribes to. -/
  holding : List String

/-- What there is to say about a group. -/
def reportGroup (name : String) : Action GroupReport := do
  let g ← groupNamed name
  let s ← get
  let hub := s.station.hub
  return {
    length := g.length
    members := namesWhere g.contains s.subs
    routes := Group.routes g hub
    active := (g.filter hub.isActive).length
    holding := namesWhere (fun h => (hub.route? h).any (Group.hasRoute g hub)) s.routes }

/-! ## Merged streams -/

/-- Give a name to a merged stream; one that bore it is given up. -/
def storeMerge (name : String) (m : MergeId) : Action Unit := do
  match (← get).merges.lookup name with
  | some old => onHub fun hub => ((), hub.closeMerge old)
  | none => pure ()
  modify fun s => { s with merges := assign name m s.merges }

/-- A named merged stream of the members of a group. -/
def openMerge (name group : String) : Action Nat := do
  let g ← groupNamed group
  let m ← onHub (·.mergeOf g)
  storeMerge name m
  return ((← hub).members m).length

/-- Take up a member. -/
def attach (merge sub : String) : Action Bool := do
  let m ← mergeNamed merge
  let s ← subNamed sub
  onHub (·.attach m s)

/-- Give up a member. -/
def detach (merge sub : String) : Action Bool := do
  let m ← mergeNamed merge
  let s ← subNamed sub
  onHub (·.detach m s)

/-- The next values of a merged stream, with the route of the member they come from. -/
def pollMerge (merge : String) : Action (Poll (Route × List Value)) := do
  let m ← mergeNamed merge
  match ← onHub (·.pollMerge m) with
  | .item item => return .item (item.route, item.values)
  | .ended => return .ended
  | .pending => return .pending

/-- Items of a merged stream in order of their routes, those of one route as they came. -/
def inRouteOrder (items : List Yield) : List (Route × List Value) :=
  (items.map fun item => (item.route, item.values)).mergeSort fun a b => (compare a.1 b.1).isLE

/-- The values of a merged stream that are there, and whether its end was reached. -/
def drainMerge (merge : String) : Action (List (Route × List Value) × Bool) := do
  let m ← mergeNamed merge
  let (items, ended) ← onHub (·.drainAll m)
  return (inRouteOrder items, ended)

/-- What there is to say about a merged stream. -/
structure MergeReport where
  /-- How many members. -/
  length : Nat
  /-- Whether neither members nor values are left. -/
  terminated : Bool
  /-- How many values have been read already, which is the least that is still to come. -/
  ready : Nat
  /-- The most that is still to come, if members do not add to it. -/
  upper : Option Nat
  /-- Names of the members. -/
  members : List String

/-- What there is to say about a merged stream. -/
def reportMerge (merge : String) : Action MergeReport := do
  let m ← mergeNamed merge
  let s ← get
  let hub := s.station.hub
  return {
    length := (hub.members m).length
    terminated := hub.isTerminated m
    ready := (hub.ready m).length
    upper := if (hub.members m).isEmpty then some (hub.ready m).length else none
    members := namesWhere (hub.members m).contains s.subs }

/-- A named merged stream without members. -/
def openEmptyMerge (name : String) : Action MergeReport := do
  storeMerge name (← onHub (·.addMerge))
  reportMerge name

end Session

end SoundControl
