import SoundControl.Message
import SoundControl.Proofs.TypeSpec.Guessing
import SoundControl.Proofs.Table.Dispatch

/-!
# Arguments that are accepted and cannot be unpacked

Two kinds of arguments have no type: colors and arrays.  A signature that lists types accepts
neither, so what it accepts it unpacks.  A signature for any arguments accepts both and unpacks
neither: a message with such an argument can be built for it, and is not delivered there.

* **`Argument.isTyped`** — arguments that have a type.
* **`TypeSpec.unpack_eq_ok_iff`** — what a signature unpacks: what it accepts, and has types.
* **`TypeSpec.accepts_iff_unpacks_iff`** — when it unpacks just what it accepts.
* **`Message.unpacks_iff`** — the messages that can be unpacked.
* **`Table.Reachable.dispatch_to_accepting`** — what becomes of a message where it is accepted.
* **`Table.unpacks_where_typed`** — all of it together.
-/

namespace SoundControl

open Address Wire

/-- **The argument has a type.** Colors and arrays have none. -/
def Wire.Argument.isTyped : Argument → Bool
  | .color _ | .array _ => false
  | _ => true

/-! ## Single arguments -/

namespace Tag

variable {tag : Tag} {argument : Argument}

theorem exists_ofArgument_iff : (∃ found, ofArgument argument = .ok found) ↔ argument.isTyped := by
  cases argument <;> simp [ofArgument, Argument.isTyped]

/-- A type unpacks what it accepts, and nothing else. -/
theorem unpack_eq_ok_iff {value : Value} :
    tag.unpack argument = .ok value ↔ tag.accepts argument ∧ value = valueOf argument := by
  rw [unpack]
  split
  next accepted => simp [accepted, eq_comm]
  next refused => simp [refused]

end Tag

/-! ## Lists of arguments -/

namespace TypeSpec

variable {spec : TypeSpec} {arguments : List Argument} {values : List Value}

/-- Arguments have a signature if each of them has a type. -/
theorem exists_ofArguments_iff :
    (∃ found, ofArguments arguments = .ok found) ↔ ∀ a ∈ arguments, a.isTyped := by
  simp only [← Tag.exists_ofArgument_iff]
  rw [← exists_mapM_ok_iff]
  constructor
  · rintro ⟨found, inferred⟩
    obtain ⟨types, listed, -⟩ := map_eq_ok_iff.1 inferred
    exact ⟨types, listed⟩
  · rintro ⟨types, listed⟩
    exact ⟨ofTags types, map_eq_ok_iff.2 ⟨types, listed, rfl⟩⟩

/-- A signature that lists types accepts what it unpacks. -/
theorem accepts_of_unpack (concrete : spec ≠ anyArgs)
    (unpacked : spec.unpack arguments = .ok values) : spec.accepts arguments := by
  rw [unpack_eq_convertEach concrete, convertEach_eq_ok_iff, ← mapM_eq_ok_iff] at unpacked
  obtain ⟨same, each⟩ := unpacked
  have passed := exists_mapM_ok_iff.1 ⟨values, each⟩
  rw [accepts_iff_forall₂ concrete, List.forall₂_iff_zip]
  refine ⟨same.symm, fun {tag argument} listed => ?_⟩
  obtain ⟨value, unpacked⟩ := passed (tag, argument) listed
  exact (Tag.unpack_eq_ok_iff.1 unpacked).1

/-- A signature that lists types unpacks what it accepts, and nothing else. -/
theorem unpack_listed_iff (concrete : spec ≠ anyArgs) : spec.unpack arguments = .ok values ↔
    spec.accepts arguments ∧ values = arguments.map Tag.valueOf := by
  constructor
  · intro unpacked
    have accepted := accepts_of_unpack concrete unpacked
    rw [unpack_of_accepts concrete accepted, Except.ok.injEq] at unpacked
    exact ⟨accepted, unpacked.symm⟩
  · rintro ⟨accepted, rfl⟩
    exact unpack_of_accepts concrete accepted

/-- A signature for any arguments unpacks those that have types, and nothing else. -/
theorem unpack_any_iff : anyArgs.unpack arguments = .ok values ↔
    (∀ a ∈ arguments, a.isTyped) ∧ values = arguments.map Tag.valueOf := by
  rw [unpack_anyArgs_iff, ← exists_ofArguments_iff]
  constructor
  · rintro ⟨spec, inferred, unpacked⟩
    obtain ⟨concrete, -⟩ := accepts_of_ofArguments inferred
    exact ⟨⟨spec, inferred⟩, ((unpack_listed_iff concrete).1 unpacked).2⟩
  · rintro ⟨⟨spec, inferred⟩, rfl⟩
    obtain ⟨concrete, accepted⟩ := accepts_of_ofArguments inferred
    exact ⟨spec, inferred, unpack_of_accepts concrete accepted⟩

/-- **What a signature unpacks** is what it accepts, as the values that the arguments stand for; a
signature for any arguments unpacks it only if each argument has a type. -/
theorem unpack_eq_ok_iff : spec.unpack arguments = .ok values ↔
    (spec.accepts arguments ∧ (spec = anyArgs → ∀ a ∈ arguments, a.isTyped)) ∧
      values = arguments.map Tag.valueOf := by
  by_cases concrete : spec = anyArgs
  · subst concrete
    rw [unpack_any_iff]
    simp [accepts]
  · rw [unpack_listed_iff concrete]
    simp [concrete]

theorem exists_unpack_iff : (∃ values, spec.unpack arguments = .ok values) ↔
    spec.accepts arguments ∧ (spec = anyArgs → ∀ a ∈ arguments, a.isTyped) := by
  simp only [unpack_eq_ok_iff, exists_and_left, exists_eq, and_true]

/-- **A signature accepts just what it unpacks,** unless it takes any arguments and one of these has
no type. -/
theorem accepts_iff_unpacks_iff :
    (spec.accepts arguments ↔ ∃ values, spec.unpack arguments = .ok values) ↔
      (spec = anyArgs → ∀ a ∈ arguments, a.isTyped) := by
  rw [exists_unpack_iff, iff_self_and]
  -- Any arguments are accepted.
  exact ⟨fun unpacks wild => unpacks (by simp [wild, accepts]) wild, fun unpacks _ => unpacks⟩

end TypeSpec

/-! ## Messages -/

/-- A message of arguments has been accepted by the signature of its route. -/
theorem Message.ofArguments_eq_ok_iff {route : Route} {arguments : List Argument} {m : Message} :
    ofArguments route arguments = .ok m ↔ route.spec.accepts arguments ∧ m = ⟨route, arguments⟩ := by
  rw [ofArguments]
  split
  next accepted => simp [accepted, eq_comm]
  next refused => simp [refused]

/-- **A message of arguments can be unpacked,** unless its route takes any arguments and one of its
own has no type. -/
theorem Message.unpacks_iff {route : Route} {arguments : List Argument} {m : Message}
    (built : ofArguments route arguments = .ok m) : (∃ values, m.unpack = .ok values) ↔
      (route.spec = .anyArgs → ∀ a ∈ arguments, a.isTyped) := by
  obtain ⟨accepted, rfl⟩ := ofArguments_eq_ok_iff.1 built
  rw [unpack, TypeSpec.exists_unpack_iff]
  exact and_iff_right accepted

/-! ## Delivery -/

namespace Table

variable {t : Table} {hub : Hub} {address : String} {path : Path} {arguments : List Argument}

/-- **What becomes of a message where it is accepted.** A subscription that can take it takes the
values of the arguments once, unless its route takes any arguments and one of these has no type. -/
theorem Reachable.dispatch_to_accepting (reachable : t.Reachable hub)
    {order : List (String × List HandleId)} (same : order.Perm t.byAddress)
    (parsed : Path.parse address = .ok path) {s : SubId} {sub : Subscription} {route : Route}
    (found : hub.subscriptions[s]? = some sub) (active : sub.active) (held : sub.held)
    (served : t.get? hub route = some sub.handle)
    (meant : route.path = .any ∨ path.contains route.path)
    (accepted : route.spec.accepts arguments) :
    (({ t with byAddress := order } : Table).dispatch hub address arguments).2.subscriptions[s]? =
      some (if route.spec = .anyArgs → ∀ a ∈ arguments, a.isTyped
        then { sub with inbox := sub.inbox ++ [.values (arguments.map Tag.valueOf)] } else sub) := by
  have reaches := reachable.dispatch_reaches same address arguments
  rw [parsed] at reaches
  split
  next typed =>
    have unpacked := TypeSpec.unpack_eq_ok_iff.2 ⟨⟨accepted, typed⟩, rfl⟩
    have belongs : Belongs (t.get? hub) path arguments route (arguments.map Tag.valueOf) :=
      ⟨Option.isSome_of_eq_some served, meant, accepted, unpacked⟩
    exact reaches.taken s sub route _ found active held served belongs
  next untyped =>
    refine reaches.kept s sub found fun _ _ other values served' belongs => ?_
    -- A handle serves one route, so the message would have to be unpacked there.
    obtain rfl := reachable.filed.2.route_unique served served'
    exact untyped (TypeSpec.unpack_eq_ok_iff.1 belongs.unpacked).1.2

/-- **Accepted arguments are unpacked where they have types.** A signature accepts just what it
unpacks, unless it takes any arguments and one of these has no type; what it unpacks are the values
that the arguments stand for.  So it is with a message that is built of arguments for a route with
this signature, and with such a route of a reached table that a message means: where it accepts the
arguments, a subscription takes them once, or, if it takes any arguments and one has no type, stays
as it is. -/
theorem unpacks_where_typed (spec : TypeSpec) (arguments : List Argument) :
    ((spec.accepts arguments ↔ ∃ values, spec.unpack arguments = .ok values) ↔
      (spec = .anyArgs → ∀ a ∈ arguments, a.isTyped)) ∧
    (∀ values : List Value, spec.unpack arguments = .ok values ↔
      (spec.accepts arguments ∧ (spec = .anyArgs → ∀ a ∈ arguments, a.isTyped)) ∧
        values = arguments.map Tag.valueOf) ∧
    (∀ (route : Route) (m : Message), route.spec = spec →
      Message.ofArguments route arguments = .ok m →
        ((∃ values, m.unpack = .ok values) ↔ (spec = .anyArgs → ∀ a ∈ arguments, a.isTyped))) ∧
    ∀ (t : Table) (hub : Hub) (order : List (String × List HandleId)) (address : String)
      (path : Path), t.Reachable hub → order.Perm t.byAddress → Path.parse address = .ok path →
      ∀ (s : SubId) (sub : Subscription) (route : Route), hub.subscriptions[s]? = some sub →
        sub.active → sub.held → t.get? hub route = some sub.handle → route.spec = spec →
        (route.path = .any ∨ path.contains route.path) → spec.accepts arguments →
        (({ t with byAddress := order } : Table).dispatch hub address
          arguments).2.subscriptions[s]? =
            some (if spec = .anyArgs → ∀ a ∈ arguments, a.isTyped
              then { sub with inbox := sub.inbox ++ [.values (arguments.map Tag.valueOf)] }
              else sub) := by
  refine ⟨TypeSpec.accepts_iff_unpacks_iff, fun _ => TypeSpec.unpack_eq_ok_iff, ?_, ?_⟩
  · rintro route m rfl built
    exact Message.unpacks_iff built
  · rintro t hub order address path reachable same parsed s sub route found active held served rfl
      meant accepted
    exact reachable.dispatch_to_accepting same parsed found active held served meant accepted

/-- A route for everything takes an integer and nothing more; a message of both is built for it. -/
theorem everything_takes_types :
    let hub := (replay {} [.create .everything, .subscribe 0]).2
    let t : Table := ⟨[], [0]⟩
    let arguments : List Argument := [.int 7, .nil]
    (∃ values, Message.unpack ⟨.everything, arguments⟩ = .ok values) ∧
    ∃ sub : Subscription, hub.subscriptions[0]? = some sub ∧
      (t.dispatch hub "/x" arguments).2.subscriptions[0]? =
        some { sub with inbox := sub.inbox ++ [.values [.int 7, .nil]] } := by
  intro hub t arguments
  obtain ⟨-, -, messages, delivered⟩ := unpacks_where_typed .anyArgs arguments
  have typed : TypeSpec.anyArgs = .anyArgs → ∀ a ∈ arguments, a.isTyped := fun _ => by decide
  have reachable : t.Reachable hub :=
    (Reachable.empty.run (run_replay _ _ (by decide))).serve (h := 0) rfl rfl
  refine ⟨(messages .everything _ rfl rfl).2 typed, _, rfl, ?_⟩
  have taken := delivered t hub t.byAddress "/x" (.single (.literal "/x")) reachable (.refl _)
    rfl 0 _ .everything rfl rfl rfl rfl rfl (.inl rfl) rfl
  rw [if_pos typed] at taken
  exact taken

/-- An array is accepted as any arguments and cannot be unpacked: a message of it is built and
cannot be read, and one that is dispatched is said to have no route and changes nothing. -/
theorem array_accepted_and_not_unpacked :
    let hub := (replay {} [.create .everything, .subscribe 0]).2
    let t : Table := ⟨[], [0]⟩
    let arguments : List Argument := [.array [.int 1]]
    Route.everything.spec.accepts arguments ∧
    (¬∃ values, Route.everything.spec.unpack arguments = .ok values) ∧
    (∃ m, Message.ofArguments .everything arguments = .ok m ∧ ¬∃ values, m.unpack = .ok values) ∧
    t.dispatch hub "/x" arguments = (.error (.unrouted "/x"), hub) := by
  intro hub t arguments
  have refused : ¬∃ values, Route.everything.spec.unpack arguments = .ok values := by
    rintro ⟨values, unpacked⟩
    contradiction
  exact ⟨rfl, refused, ⟨⟨.everything, arguments⟩, rfl, refused⟩, rfl⟩

end Table

end SoundControl
