import SoundControl.Config.Settings
import SoundControl.Station

/-!
# Sessions

A session is a station with names for its parts, a link to the server, and a second link, the tap,
whose packets are kept for whoever asks for them.

* **`Session`** — the station, the links and the names.
* **`Session.Action`** — something done in a session; it fails on a name that nothing bears.
* **`Session.perform`** — an action, after which subscriptions that nothing bears are given up.
-/

namespace SoundControl

/-- **A station with names for its parts.** -/
structure Session where
  /-- The server and what it feeds. -/
  station : Station
  /-- The link to the server. -/
  serverLink : Link := {}
  /-- The link to the tap. -/
  tapLink : Link := {}
  /-- The packets sent to the tap. -/
  tap : Channel := {}
  /-- Whether the server goes on by itself while it is waited for, and so cannot be pumped. -/
  selfPaced : Bool := false
  /-- Names of route handles. -/
  routes : List (String × HandleId) := []
  /-- Names of subscriptions. -/
  subs : List (String × SubId) := []
  /-- Names of groups. -/
  groups : List (String × Group) := []
  /-- Names of merged streams. -/
  merges : List (String × MergeId) := []

namespace Session

/-- A name that nothing bears. -/
structure UnknownName where
  /-- The name. -/
  name : String
  deriving DecidableEq, Repr

/-- **Something done in a session.** -/
abbrev Action := StateT Session (Except UnknownName)

/-- A session with a server that has not been started. -/
def fresh : Session := { station := { server := { name := ({} : Config.ServerSettings).name } } }

/-- A session with a server of its own that runs already, at its own pace. -/
def running : Session :=
  { station := { server := { name := "test-server", phase := .running } }, selfPaced := true }

/-! ## Names -/

/-- Give a name to something, taking it from what bore it. -/
def assign {α : Type} (name : String) (a : α) (names : List (String × α)) : List (String × α) :=
  (name, a) :: names.filter (·.1 != name)

/-- What bears a name. -/
def resolve {α : Type} (names : List (String × α)) (name : String) : Action α :=
  match names.lookup name with
  | some a => return a
  | none => throw ⟨name⟩

/-- The names of what satisfies a condition, in order. -/
def namesWhere {α : Type} (p : α → Bool) (names : List (String × α)) : List String :=
  ((names.filter fun n => p n.2).map (·.1)).mergeSort fun a b => decide (a ≤ b)

/-- The handle of a name. -/
def routeNamed (name : String) : Action HandleId := do resolve (← get).routes name

/-- The subscription of a name. -/
def subNamed (name : String) : Action SubId := do resolve (← get).subs name

/-- The subscriptions of names. -/
def subsNamed (names : List String) : Action (List SubId) := names.mapM subNamed

/-- The group of a name. -/
def groupNamed (name : String) : Action Group := do resolve (← get).groups name

/-- The merged stream of a name. -/
def mergeNamed (name : String) : Action MergeId := do resolve (← get).merges name

/-! ## Parts of the state -/

/-- The hub. -/
def hub : Action Hub := do return (← get).station.hub

/-- The server. -/
def server : Action Server := do return (← get).station.server

/-- Change the hub, with an answer. -/
def onHub {α : Type} (f : Hub → α × Hub) : Action α := do
  let (a, hub) := f (← hub)
  modify fun s => { s with station := { s.station with hub } }
  return a

/-- Change the station, with an answer. -/
def onStation {α : Type} (f : Station → α × Station) : Action α := do
  let (a, station) := f (← get).station
  modify fun s => { s with station }
  return a

/-- Change the server and the hub. -/
def onServer (f : Server → Hub → Server × Hub) : Action Unit :=
  onStation fun station =>
    let (server, hub) := f station.server station.hub
    ((), { server, hub })

/-- The route of a handle. -/
def routeOf (h : HandleId) : Action Route := do return ((← hub).route? h).getD .everything

/-- The route of a subscription. -/
def subRouteOf (s : SubId) : Action Route := do return (← hub).subRoute s

/-- **Do something, and then give up the subscriptions that are neither named nor in a named group
nor members of a merged stream.** -/
def perform {α : Type} (action : Action α) : Action α := do
  let a ← action
  let s ← get
  let named := s.subs.map (·.2) ++ s.groups.flatMap (·.2)
  onHub fun hub => ((), hub.retain named)
  return a

end Session

end SoundControl
