import SoundControl.Hub.Merge

/-!
# Groups of subscriptions

A group is a set of subscriptions, in order of creation, handled together.

* **`Group`** — the set; **`Group.insert`**, **`Group.erase`**, **`Group.union`** change it.
* **`Group.routes`** — the distinct routes of the members, in order.
* **`Group.publish`**, **`Group.unsubscribe`** — done to every member, counting those it took.
-/

namespace SoundControl

/-- **A set of subscriptions,** ascending. -/
abbrev Group := List SubId

namespace Group

/-- Put a subscription into its place. -/
def insert (s : SubId) : Group → Group
  | [] => [s]
  | t :: ts => if s < t then s :: t :: ts else if s = t then t :: ts else t :: insert s ts

/-- The group of the listed subscriptions. -/
def ofList (ids : List SubId) : Group := ids.foldl (fun group s => insert s group) []

/-- The members of either group. -/
def union (a b : Group) : Group := b.foldl (fun group s => insert s group) a

/-- Whether every member of `b` is in `a`. -/
def includes (a b : Group) : Bool := b.all a.contains

/-- Put a route into its place, once. -/
def insertRoute (r : Route) : List Route → List Route
  | [] => [r]
  | q :: qs =>
    match compare r q with
    | .lt => r :: q :: qs
    | .eq => q :: qs
    | .gt => q :: insertRoute r qs

/-- **The distinct routes of the members,** in order. -/
def routes (group : Group) (hub : Hub) : List Route :=
  (group.filterMap hub.subRoute?).foldl (fun routes r => insertRoute r routes) []

/-- Whether a member subscribes to a route. -/
def hasRoute (group : Group) (hub : Hub) (route : Route) : Bool :=
  group.any fun s => hub.subRoute? s = some route

/-- **Put values into every member's inbox;** how many took them. -/
def publish (group : Group) (hub : Hub) (values : List Value) : Nat × Hub :=
  hub.deliverEach group values

/-- **End every member;** how many had not ended. -/
def unsubscribe (group : Group) (hub : Hub) : Nat × Hub :=
  group.foldl (fun (count, hub) s =>
    let (ended, hub) := hub.unsubscribe s
    (if ended then count + 1 else count, hub)) (0, hub)

/-- A text about the route of a subscription; nothing for one that does not exist. -/
def routeText (hub : Hub) (s : SubId) (text : Route → String) : String :=
  match hub.subRoute? s with
  | some route => text route
  | none => ""

/-- A subscription as shown to people, with `ID` for its number. -/
def memberTitle (hub : Hub) (s : SubId) : String := "Sub#ID(" ++ routeText hub s Route.text ++ ")"

/-- A subscription as shown in a list of its group, with `ID` for its number. -/
def memberText (hub : Hub) (s : SubId) : String :=
  "Sub \x7b id: ID, route: " ++ routeText hub s Route.quotedText ++ ", active: " ++
    toString (hub.isActive s) ++ " \x7d"

/-- The group with its members in braces. -/
def text (group : Group) (hub : Hub) : String :=
  "\x7b" ++ String.intercalate ", " (group.map (memberText hub)) ++ "\x7d"

end Group

end SoundControl
