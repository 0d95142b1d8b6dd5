import SoundControl.Server

/-!
# Stations

A station is a server at work together with the subscriptions that it feeds.  Whoever waits for
values lets the server do what it can: values that are there are taken at once, and if more are
wanted the server advances, after which nothing comes any more.

* **`Station`** — a server and a hub.
* **`Station.advance`**, **`Station.stop`** — let the server go on, or end it.
* **`Station.collectSome`**, **`Station.collectToEnd`** — values of a subscription, waiting once.
* **`Station.collectMerged`** — values of a merged stream, waiting once.
* **`Station.waitRunning`** — whether the server comes to run, or not to.
-/

namespace SoundControl

/-- **A server with the subscriptions it feeds.** -/
structure Station where
  /-- The server. -/
  server : Server
  /-- The handles, subscriptions and merged streams. -/
  hub : Hub := {}

namespace Station

/-- Let the server do what it can. -/
def advance (station : Station) : Station :=
  let (server, hub) := station.server.advance station.hub
  { server, hub }

/-- Ask the server to stop, and let it. -/
def stop (station : Station) : Station :=
  { station with server := station.server.requestStop }.advance

/-- **At most `n` value lists of a subscription;** fewer if its end is reached or, once the server
has advanced, no more are there. -/
def collectSome (station : Station) (s : SubId) (n : Nat) : List (List Value) × Station :=
  let ((items, ended), hub) := station.hub.collect s n
  let station := { station with hub }
  if ended || n ≤ items.length then (items, station)
  else
    let station := station.advance
    let ((more, _), hub) := station.hub.collect s (n - items.length)
    (items ++ more, { station with hub })

/-- **All value lists of a subscription up to its end;** none if the end is not there once the
server has advanced, and what was read is lost. -/
def collectToEnd (station : Station) (s : SubId) : Option (List (List Value)) × Station :=
  let ((items, ended), hub) := station.hub.collectAll s
  let station := { station with hub }
  if ended then (some items, station)
  else
    let station := station.advance
    let ((more, ended), hub) := station.hub.collectAll s
    (if ended then some (items ++ more) else none, { station with hub })

/-- **At most `n` value lists of a merged stream;** fewer if its end is reached or, once the server
has advanced, no more are there. -/
def collectMerged (station : Station) (m : MergeId) (n : Nat) :
    List Yield × Station :=
  let ((items, ended), hub) := station.hub.drain m n
  let station := { station with hub }
  if ended || n ≤ items.length then (items, station)
  else
    let station := station.advance
    let ((more, _), hub) := station.hub.drain m (n - items.length)
    (items ++ more, { station with hub })

/-- **Whether the server runs, or does not, as expected:** at once, or when it has advanced. Without
patience the question is not even asked. -/
def waitRunning (station : Station) (expected patient : Bool) : Bool × Station :=
  if !patient then (false, station)
  else if station.server.isRunning = expected then (true, station)
  else
    let station := station.advance
    (station.server.isRunning = expected, station)

end Station

end SoundControl
