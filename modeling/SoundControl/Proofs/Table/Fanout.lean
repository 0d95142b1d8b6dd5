import SoundControl.Proofs.Address.Containment
import SoundControl.Proofs.Address.Printable
import SoundControl.Proofs.Table.Bundled
import SoundControl.Proofs.Table.Decoding

/-! # A message to a union

A message to a union is sent once for each member of the union, and each of its packets is dispatched
by itself.  A served route gets a copy for every member that contains its address: one, unless two
patterns of the union both match it.

* **`Path.copies`** — how many members of a path contain another path.
* **`Path.Normal.copies_literal`** — one if and only if no two patterns match the address.
* **`Table.Reachable.dispatchEach_taken`**, **`Table.Reachable.dispatchEach_kept`** — packets to
  several atoms, where they belong and where they do not.
* **`Table.Reachable.union_fanout`** — what becomes of a message to a union. -/

namespace SoundControl

open Address Wire

/-! ## Members that contain an address -/

namespace Address

/-- **How many members of `p` contain `q`.** -/
def Path.copies (p q : Path) : Nat := p.atoms.countP fun atom => (Path.single atom).contains q

namespace Path

variable {p : Path} {address : String}

/-- A member contains a literal if it covers the address. -/
theorem single_contains_literal (atom : Atom) (address : String) :
    (single atom).contains (single (.literal address)) = atom.covers address := rfl

theorem contains_literal_iff (notAny : p.isAny = false) :
    p.contains (single (.literal address)) = true ↔ ∃ atom ∈ p.atoms, atom.covers address = true :=
  covers_iff_exists_atom notAny

/-- A path contains a literal if and only if a member does. -/
theorem copies_literal_pos_iff (notAny : p.isAny = false) :
    0 < p.copies (single (.literal address)) ↔ p.contains (single (.literal address)) = true := by
  rw [copies, List.countP_pos_iff, contains_literal_iff notAny]
  simp only [single_contains_literal]

/-- A list without repetitions has at most one item if all its items are equal. -/
theorem length_le_one_iff {α : Type} {items : List α} (distinct : items.Nodup) :
    items.length ≤ 1 ↔ ∀ a ∈ items, ∀ b ∈ items, a = b := by
  match items with
  | [] => simp
  | [a] => simp
  | a :: b :: rest =>
    have apart : a ≠ b := fun same => (List.nodup_cons.1 distinct).1 (same ▸ List.mem_cons_self)
    refine iff_of_false (by simp) fun equal => apart ?_
    exact equal a List.mem_cons_self b (List.mem_cons_of_mem a List.mem_cons_self)

/-- **At most one member of a normal form contains an address,** if no two of its patterns match it.
A literal member is never matched by a pattern beside it. -/
theorem Normal.copies_literal (normal : p.Normal) :
    p.copies (single (.literal address)) ≤ 1 ↔
      ∀ a b, .pattern a ∈ p.atoms → .pattern b ∈ p.atoms → a.covers address = true →
        b.covers address = true → a = b := by
  have distinct := normal.reduced.ascending.nodup
  rw [copies, List.countP_eq_length_filter, length_le_one_iff (distinct.filter _)]
  simp only [List.mem_filter, single_contains_literal]
  constructor
  · intro equal a b listed listed' covered covered'
    have same := equal (.pattern a) ⟨listed, covered⟩ (.pattern b) ⟨listed', covered'⟩
    exact Atom.pattern.inj same
  · rintro equal (text | a) ⟨listed, covered⟩ (text' | b) ⟨listed', covered'⟩
    · -- Both cover the address because they are it.
      obtain rfl : text = address := by simpa [Atom.covers] using covered
      obtain rfl : text' = text := by simpa [Atom.covers] using covered'
      rfl
    · obtain rfl : text = address := by simpa [Atom.covers] using covered
      exact absurd ⟨b, listed', covered'⟩ (normal.reduced.apart text listed)
    · obtain rfl : text' = address := by simpa [Atom.covers] using covered'
      exact absurd ⟨a, listed, covered⟩ (normal.reduced.apart text' listed')
    · exact congrArg Atom.pattern (equal a b listed listed' covered covered')

end Path

end Address

/-! ## Packets to several atoms -/

/-- **The packet of a message to one atom.** -/
def Address.Atom.packet (arguments : List Argument) (atom : Atom) : Packet :=
  .message ⟨atom.source, arguments⟩

/-- A message has a packet for each atom of its path. -/
theorem Message.packets_eq {m : Message} (notAny : m.route.path.isAny = false) :
    m.packets = .ok (m.route.path.atoms.map (Atom.packet m.arguments)) := by
  have filled := Path.atoms_ne_nil notAny
  simp [packets, addresses, Route.addresses, Path.addresses, filled, Atom.packet]

namespace Table

variable {t : Table} {hub : Hub} {arguments : List Argument} {atom : Atom} {atoms : List Atom}
  {s : SubId} {sub : Subscription} {route : Route} {values : List Value} {address : String}

/-- A table without routes for every address serves literal paths only. -/
theorem Filed.literal_of_get? (filed : t.Filed hub) (plain : t.anyPath = []) {h : HandleId}
    (served : t.get? hub route = some h) : ∃ address, route.path = .single (.literal address) := by
  obtain ⟨listed, found⟩ := (filed.get?_eq_some_iff route h).1 served
  obtain ⟨entry, among, member⟩ | member := (mem_handles h).1 listed
  · obtain ⟨other, found', literal⟩ := filed.literal entry among h member
    obtain rfl : route = other := Option.some.inj (found.symm.trans found')
    exact ⟨entry.1, literal⟩
  · rw [plain] at member
    contradiction

/-- A packet to an atom is a message to what the atom means. -/
theorem Reachable.dispatched_to (reachable : t.Reachable hub)
    (parsed : Atom.parse atom.source = .ok atom) (arguments : List Argument) :
    ∃ outcome, Dispatched hub (t.get? hub) atom.source (.single atom) arguments outcome ∧
      (t.dispatchPacket hub (atom.packet arguments)).2 = outcome.2 ∧
      t.Reachable (t.dispatchPacket hub (atom.packet arguments)).2 ∧
      t.get? (t.dispatchPacket hub (atom.packet arguments)).2 = t.get? hub := by
  obtain ⟨sound, filed⟩ := reachable.filed
  have read : Path.parse atom.source = .ok (.single atom) := by
    rw [Path.parse, parsed]
    rfl
  refine ⟨_, filed.dispatched sound read arguments, t.dispatchPacket_message hub _, ?_, ?_⟩
  · rw [Atom.packet, dispatchPacket_message]
    exact reachable.dispatched t _ _
  · exact get?_of_standing t (t.standing_dispatchPacket hub _)

/-- **A packet to an atom, where it belongs:** a copy if the atom covers the address. -/
theorem Reachable.dispatchPacket_taken (reachable : t.Reachable hub)
    (parsed : Atom.parse atom.source = .ok atom) (found : hub.subscriptions[s]? = some sub)
    (active : sub.active = true) (held : sub.held = true)
    (served : t.get? hub route = some sub.handle) (literal : route.path = .single (.literal address))
    (unpacked : route.spec.unpack arguments = .ok values) :
    (t.dispatchPacket hub (atom.packet arguments)).2.subscriptions[s]? =
      some { sub with
        inbox := sub.inbox ++ List.replicate (if atom.covers address then 1 else 0) (.values values) } := by
  obtain ⟨outcome, dispatched, becomes, -⟩ := reachable.dispatched_to parsed arguments
  obtain ⟨accepted, -⟩ := TypeSpec.exists_unpack_iff.1 ⟨values, unpacked⟩
  rw [becomes]
  split
  next covered =>
    have belongs : Belongs (t.get? hub) (.single atom) arguments route values := by
      refine ⟨Option.isSome_of_eq_some served, .inr ?_, accepted, unpacked⟩
      rw [literal]
      exact covered
    exact dispatched.taken s sub route values found active held served belongs
  next missed =>
    rw [List.replicate_zero, List.append_nil]
    refine dispatched.kept s sub found fun _ _ other values served' belongs => ?_
    -- A handle serves one route.
    obtain rfl := reachable.filed.2.route_unique served served'
    have meant := belongs.meant
    rw [literal] at meant
    exact missed (meant.resolve_left nofun)

/-- **A packet to an atom, where it does not belong:** nothing. -/
theorem Reachable.dispatchPacket_kept (reachable : t.Reachable hub) (plain : t.anyPath = [])
    (parsed : Atom.parse atom.source = .ok atom) (found : hub.subscriptions[s]? = some sub)
    (other : sub.active = true → sub.held = true → ∀ route, t.get? hub route = some sub.handle →
      ¬((Path.single atom).contains route.path = true ∧ route.spec.accepts arguments = true)) :
    (t.dispatchPacket hub (atom.packet arguments)).2.subscriptions[s]? = some sub := by
  obtain ⟨outcome, dispatched, becomes, -⟩ := reachable.dispatched_to parsed arguments
  rw [becomes]
  refine dispatched.kept s sub found fun active held route values served belongs => ?_
  obtain ⟨-, filed⟩ := reachable.filed
  obtain ⟨address, literal⟩ := filed.literal_of_get? plain served
  have meant := belongs.meant.resolve_left (by rw [literal]; exact nofun)
  exact other active held route served ⟨meant, belongs.accepted⟩

/-- **Packets to several atoms, where they belong:** a copy for each that covers the address. -/
theorem Reachable.dispatchEach_taken (reachable : t.Reachable hub)
    (parsed : ∀ atom ∈ atoms, Atom.parse atom.source = .ok atom)
    (found : hub.subscriptions[s]? = some sub) (active : sub.active = true)
    (held : sub.held = true) (served : t.get? hub route = some sub.handle)
    (literal : route.path = .single (.literal address))
    (unpacked : route.spec.unpack arguments = .ok values) :
    (t.dispatchEach hub (atoms.map (Atom.packet arguments))).2.subscriptions[s]? =
      some { sub with
        inbox := sub.inbox ++ List.replicate (atoms.countP (·.covers address)) (.values values) } := by
  induction atoms generalizing hub sub with
  | nil => simpa [dispatchEach] using found
  | cons atom atoms ih =>
    obtain ⟨own, others⟩ := List.forall_mem_cons.1 parsed
    obtain ⟨-, -, -, later, routes⟩ := reachable.dispatched_to own arguments
    have taken := reachable.dispatchPacket_taken own found active held served literal unpacked
    rw [List.map_cons, dispatchEach_cons]
    -- The subscription goes on with what it took from the first packet.
    rw [ih later others taken active held (by rw [routes]; exact served), List.append_assoc,
      List.replicate_append_replicate, List.countP_cons, Nat.add_comm]

/-- **Packets to several atoms, where none belongs:** nothing. -/
theorem Reachable.dispatchEach_kept (reachable : t.Reachable hub) (plain : t.anyPath = [])
    (parsed : ∀ atom ∈ atoms, Atom.parse atom.source = .ok atom)
    (found : hub.subscriptions[s]? = some sub)
    (other : sub.active = true → sub.held = true → ∀ route, t.get? hub route = some sub.handle →
      ¬((∃ atom ∈ atoms, (Path.single atom).contains route.path = true) ∧
        route.spec.accepts arguments = true)) :
    (t.dispatchEach hub (atoms.map (Atom.packet arguments))).2.subscriptions[s]? = some sub := by
  induction atoms generalizing hub with
  | nil => simpa [dispatchEach] using found
  | cons atom atoms ih =>
    obtain ⟨own, others⟩ := List.forall_mem_cons.1 parsed
    obtain ⟨-, -, -, later, routes⟩ := reachable.dispatched_to own arguments
    have kept := reachable.dispatchPacket_kept plain own found
      fun active held route served belongs => other active held route served
        ⟨⟨atom, List.mem_cons_self, belongs.1⟩, belongs.2⟩
    rw [List.map_cons, dispatchEach_cons]
    refine ih later others kept fun active held route served belongs => ?_
    rw [routes] at served
    obtain ⟨⟨atom, listed, contained⟩, accepted⟩ := belongs
    exact other active held route served
      ⟨⟨atom, List.mem_cons_of_mem _ listed, contained⟩, accepted⟩

/-- **What becomes of a message to a union,** where all served paths are literal.  It has packets, and
when these are dispatched one after the other, a subscription that can take it, of a served route
whose path is contained and whose signature accepts and unpacks the arguments, takes a copy for each
member of the union that contains the path: at least one, and no more if and only if no two patterns
of the union match it.  A subscription of any other route, or one that can take nothing, stays as it
is. -/
theorem Reachable.union_fanout (reachable : t.Reachable hub) (plain : t.anyPath = []) {m : Message}
    {u : Path} (path : m.route.path = u) (built : u.Built) (apart : u.isAny = false) :
    ∃ packets, m.packets = .ok packets ∧
      (∀ (s : SubId) (sub : Subscription) (route : Route), hub.subscriptions[s]? = some sub →
        sub.active = true → sub.held = true → t.get? hub route = some sub.handle →
        u.contains route.path = true → route.spec.accepts m.arguments = true →
        (route.spec = .anyArgs → ∀ a ∈ m.arguments, a.isTyped = true) →
        (t.dispatchInTurn hub packets).2.subscriptions[s]? =
            some { sub with
              inbox := sub.inbox ++
                List.replicate (u.copies route.path) (.values (m.arguments.map Tag.valueOf)) } ∧
          1 ≤ u.copies route.path ∧
          (u.copies route.path = 1 ↔ ∀ a b, .pattern a ∈ u.atoms → .pattern b ∈ u.atoms →
            (Path.single (.pattern a)).contains route.path = true →
            (Path.single (.pattern b)).contains route.path = true → a = b)) ∧
      ∀ (s : SubId) (sub : Subscription), hub.subscriptions[s]? = some sub →
        (sub.active = true → sub.held = true → ∀ route, t.get? hub route = some sub.handle →
          ¬(u.contains route.path = true ∧ route.spec.accepts m.arguments = true)) →
        (t.dispatchInTurn hub packets).2.subscriptions[s]? = some sub := by
  subst path
  obtain ⟨-, filed⟩ := reachable.filed
  have parsed : ∀ atom ∈ m.route.path.atoms, Atom.parse atom.source = .ok atom :=
    fun _ listed => built.parse_atom listed
  refine ⟨_, Message.packets_eq apart, ?_, ?_⟩
  · intro s sub route found active held served contained accepted typed
    obtain ⟨address, literal⟩ := filed.literal_of_get? plain served
    have unpacked := TypeSpec.unpack_eq_ok_iff.2 ⟨⟨accepted, typed⟩, rfl⟩
    rw [dispatchInTurn_eq,
      reachable.dispatchEach_taken parsed found active held served literal unpacked]
    rw [literal] at contained ⊢
    have one := (Path.copies_literal_pos_iff apart).2 contained
    have single : m.route.path.copies (.single (.literal address)) = 1 ↔
        m.route.path.copies (.single (.literal address)) ≤ 1 := by omega
    exact ⟨rfl, one, single.trans built.normal.copies_literal⟩
  · intro s sub found other
    rw [dispatchInTurn_eq]
    refine reachable.dispatchEach_kept plain parsed found fun active held route served belongs => ?_
    obtain ⟨address, literal⟩ := filed.literal_of_get? plain served
    refine other active held route served ⟨?_, belongs.2⟩
    rw [literal] at belongs ⊢
    exact (Path.contains_literal_iff apart).2 belongs.1

/-- A message to a pattern and a literal is taken once by the route that the pattern matches, and not
by a route that neither contains. -/
theorem union_fanout_of_pattern_and_literal :
    let served (text : String) : Route := ⟨.single (.literal text), .typed .int32 []⟩
    let hub := (replay {} [.create (served "/ab"), .create (served "/c"), .subscribe 0,
      .subscribe 1]).2
    let t : Table := ⟨[("/ab", [0]), ("/c", [1])], []⟩
    ∃ p : Pattern, p.source = "/a*" ∧
      let u : Path := .several ⟨[.literal "/b", .pattern p], Nat.le_refl 2⟩
      let m : Message := ⟨⟨u, .typed .int32 []⟩, [.int 7]⟩
      u.Built ∧ u.copies (served "/ab").path = 1 ∧ ∃ packets, m.packets = .ok packets ∧
        (t.dispatchInTurn hub packets).2.subscriptions[0]?.map Subscription.inbox =
          some [.values [.int 7]] ∧
        (t.dispatchInTurn hub packets).2.subscriptions[1]?.map Subscription.inbox = some [] := by
  intro served hub t
  let p : Pattern := ⟨"/a*", [.parts [.literal ['a'], .wildcard]], by rfl⟩
  refine ⟨p, rfl, ?_⟩
  intro u m
  have pattern : Path.parse "/a*" = .ok (.single (.pattern p)) := by rfl
  have literal : Path.parse "/b" = .ok (.single (.literal "/b")) := by rfl
  have built : u.Built := .union (.parsed pattern) (.parsed literal)
  have reachable : t.Reachable hub :=
    ((Reachable.empty.run (run_replay _ _ (by decide))).serve (h := 0) rfl rfl).serve (h := 1)
      rfl rfl
  obtain ⟨packets, made, taken, kept⟩ := reachable.union_fanout rfl (m := m) rfl built rfl
  obtain ⟨counted, -, once⟩ := taken 0 _ (served "/ab") rfl rfl rfl rfl (by rfl) rfl (by simp [served])
  have one : u.copies (served "/ab").path = 1 := by
    refine once.2 fun a b listed listed' _ _ => ?_
    obtain rfl : a = p := by simpa [m, u, Path.atoms] using listed
    obtain rfl : b = p := by simpa [m, u, Path.atoms] using listed'
    rfl
  have second := kept 1 _ rfl fun _ _ route looked belongs => by
    obtain ⟨listed, found⟩ := (reachable.filed.2.get?_eq_some_iff route _).1 looked
    obtain rfl : served "/c" = route := Option.some.inj found
    exact absurd belongs.1 (by decide)
  refine ⟨built, one, packets, made, ?_, ?_⟩
  · rw [counted, one]
    rfl
  · rw [second]
    rfl

/-- Two patterns that match one address: the route that is served there takes two copies. -/
theorem union_of_patterns_taken_twice :
    let served : Route := ⟨.single (.literal "/ab"), .typed .int32 []⟩
    let hub := (replay {} [.create served, .subscribe 0]).2
    let t : Table := ⟨[("/ab", [0])], []⟩
    ∃ (p q : Path) (packets : List Packet), Path.parse "/a*" = .ok p ∧ Path.parse "/*b" = .ok q ∧
      Message.packets ⟨⟨p.union q, .typed .int32 []⟩, [.int 1]⟩ = .ok packets ∧
      t.Reachable hub ∧ (p.union q).contains served.path = true ∧
      (t.dispatchInTurn hub packets).2.subscriptions.map Subscription.inbox =
        [[.values [.int 1], .values [.int 1]]] := by
  intro served hub t
  have reachable : t.Reachable hub :=
    (Reachable.empty.run (run_replay _ _ (by decide))).serve (h := 0) rfl rfl
  exact ⟨_, _, _, by rfl, by rfl, by rfl, reachable, by rfl, by rfl⟩

end Table

end SoundControl
