import SoundControl.Proofs.Address.NormalForm
import SoundControl.Proofs.Table.Dispatch
import SoundControl.Transport

/-! # A bundle is its messages one after the other

A bundle is walked three times: to make a packet of it, in which a message to several addresses
becomes several; to dispatch that packet; and, by whoever wrote it, from its first message to the last.
All three meet the same messages in the same order.  What goes wrong with one message when a bundle
is made goes wrong with the bundle, and what goes wrong when it is dispatched is its own affair.

* **`Bundle.messages`** — the messages of a bundle, however deep, in the order of writing.
* **`Table.dispatchInTurn`** — packets dispatched one after the other.
* **`Item.packets_follow`** — the packets of an item are those of its messages, as far as dispatch goes.
* **`Table.Misses`** — a message that belongs to no served route.
* **`Bundle.dispatched_inTurn`** — bundles, and the messages in them. -/

namespace SoundControl

open Address Wire

namespace Item

mutual

/-- **The messages of an item** in the order of writing. -/
def messages : Item → List Message
  | .message m => [m]
  | .bundle _ items => messagesEach items

/-- The messages of items in order. -/
def messagesEach : List Item → List Message
  | [] => []
  | item :: items => messages item ++ messagesEach items

end

end Item

/-- **The messages of a bundle,** those of the bundles in it included, in the order of writing. -/
def Bundle.messages (b : Bundle) : List Message := Item.messagesEach b.items

namespace Table

variable {t : Table} {hub : Hub}

/-- **Packets one after the other;** to how many routes altogether. -/
def dispatchInTurn (t : Table) (hub : Hub) (packets : List Packet) : Nat × Hub :=
  packets.foldl (fun (count, hub) packet =>
    let (more, hub) := t.dispatchPacket hub packet
    (count + more, hub)) (0, hub)

/-! ## Packets in turn -/

theorem dispatchEach_cons (t : Table) (hub : Hub) (packet : Packet) (packets : List Packet) :
    t.dispatchEach hub (packet :: packets) =
      ((t.dispatchPacket hub packet).1 + (t.dispatchEach (t.dispatchPacket hub packet).2 packets).1,
        (t.dispatchEach (t.dispatchPacket hub packet).2 packets).2) := by
  rw [dispatchEach]

theorem dispatchEach_append (t : Table) (hub : Hub) (packets others : List Packet) :
    t.dispatchEach hub (packets ++ others) =
      ((t.dispatchEach hub packets).1 + (t.dispatchEach (t.dispatchEach hub packets).2 others).1,
        (t.dispatchEach (t.dispatchEach hub packets).2 others).2) := by
  induction packets generalizing hub with
  | nil => simp [dispatchEach]
  | cons packet packets ih => simp only [List.cons_append, dispatchEach_cons, ih, Nat.add_assoc]

/-- The packets of a bundle are dispatched in turn. -/
theorem dispatchInTurn_eq (t : Table) (hub : Hub) (packets : List Packet) :
    t.dispatchInTurn hub packets = t.dispatchEach hub packets := by
  -- What is counted before stands in front of what comes.
  suffices ahead : ∀ count : Nat, packets.foldl (fun (state : Nat × Hub) packet =>
      (state.1 + (t.dispatchPacket state.2 packet).1, (t.dispatchPacket state.2 packet).2))
        (count, hub) =
      (count + (t.dispatchEach hub packets).1, (t.dispatchEach hub packets).2) by
    simpa [dispatchInTurn] using ahead 0
  induction packets generalizing hub with
  | nil => simp [dispatchEach]
  | cons packet packets ih =>
    intro count
    rw [List.foldl_cons, ih, dispatchEach_cons, Nat.add_assoc]

end Table

/-! ## The packets of a bundle -/

namespace Item

/-- **Packets that stand for others:** they are dispatched alike, and cannot be made for the same
reason. -/
def Follow : Except Failure (List Packet) → Except Failure (List (List Packet)) → Prop
  | .ok packets, .ok sent => ∀ (t : Table) (hub : Hub),
      t.dispatchEach hub packets = t.dispatchEach hub sent.flatten
  | .error failure, .error other => failure = other
  | _, _ => False

/-- What stands for others, followed by what stands for others. -/
theorem Follow.append {packets others : Except Failure (List Packet)}
    {sent rest : Except Failure (List (List Packet))} (front : Follow packets sent)
    (back : Follow others rest) :
    Follow (do return (← packets) ++ (← others)) (do return (← sent) ++ (← rest)) := by
  cases packets <;> cases sent
  case ok.ok packets sent =>
    cases others <;> cases rest
    case ok.ok others rest =>
      intro t hub
      rw [List.flatten_append, Table.dispatchEach_append, Table.dispatchEach_append, front, back]
    case error.error => exact back
    all_goals exact back.elim
  case error.error => exact front
  all_goals exact front.elim

mutual

/-- **The packets of an item are those of its messages,** as far as dispatch goes. -/
theorem packets_follow : (item : Item) → Follow item.packets (item.messages.mapM Message.packets)
  | .message m => by
    rw [packets, messages, List.mapM_cons, List.mapM_nil]
    cases m.packets with
    | error failure => rfl
    | ok packets =>
      intro t hub
      simp
  | .bundle timeTag items => by
    have each := packetsEach_follow items
    -- The bundle is one packet, and dispatching it is dispatching what it holds.
    rw [packets, messages]
    revert each
    cases packetsEach items <;> cases (messagesEach items).mapM Message.packets
    case ok.ok packets sent =>
      intro each t hub
      rw [Table.dispatchEach_cons, Table.dispatchPacket, each]
      simp [Table.dispatchEach]
    all_goals exact id

/-- The packets of items are those of their messages. -/
theorem packetsEach_follow : (items : List Item) →
    Follow (packetsEach items) ((messagesEach items).mapM Message.packets)
  | [] => fun t hub => rfl
  | item :: items => by
    rw [packetsEach, messagesEach, List.mapM_append]
    exact (packets_follow item).append (packetsEach_follow items)

end

end Item

/-! ## Bundles that cannot be sent -/

/-- Only the path of all addresses has no texts, since a union has members. -/
theorem Address.Path.addresses_eq_nil_iff {path : Path} : path.addresses = [] ↔ path.isAny := by
  cases all : path.isAny with
  | true => simp [Path.eq_any_of_isAny all, Path.addresses, Path.atoms]
  | false => simp [Path.addresses, Path.atoms_ne_nil all]

/-- A message has packets unless it goes to every address. -/
theorem Message.exists_packets_error_iff {m : Message} :
    (∃ failure, m.packets = .error failure) ↔ m.route.path.isAny := by
  rw [← Path.addresses_eq_nil_iff, packets, addresses, Route.addresses]
  cases m.route.path.addresses <;> simp

/-- **A bundle follows its messages:** its packet is dispatched like theirs in turn, and cannot be
made for the reason that the first of them cannot. -/
theorem Bundle.packet_follows (b : Bundle) :
    (∃ failure, b.packet = .error failure ∧ b.messages.mapM Message.packets = .error failure) ∨
      ∃ packet sent, b.packet = .ok packet ∧ b.messages.mapM Message.packets = .ok sent ∧
        ∀ (t : Table) (hub : Hub),
          t.dispatchPacket hub packet = t.dispatchInTurn hub sent.flatten := by
  have follow := Item.packetsEach_follow b.items
  rw [packet, messages]
  revert follow
  cases Item.packetsEach b.items <;> cases (Item.messagesEach b.items).mapM Message.packets
  case ok.ok packets sent =>
    intro follow
    refine .inr ⟨_, sent, rfl, rfl, fun t hub => ?_⟩
    rw [Table.dispatchPacket, follow, Table.dispatchInTurn_eq]
  case error.error failure other =>
    intro follow
    exact .inl ⟨failure, rfl, congrArg Except.error follow.symm⟩
  all_goals exact False.elim

/-- **A bundle cannot be made** exactly if one of its messages goes to every address. -/
theorem Bundle.exists_packet_error_iff {b : Bundle} :
    (∃ failure, b.packet = .error failure) ↔ ∃ m ∈ b.messages, m.route.path.isAny := by
  have unaddressed : (∃ m ∈ b.messages, m.route.path.isAny) ↔
      ∃ failure, b.messages.mapM Message.packets = .error failure := by
    rw [exists_mapM_error_iff]
    exact exists_congr fun m => and_congr_right fun _ => Message.exists_packets_error_iff.symm
  rw [unaddressed]
  obtain ⟨failure, made, sent⟩ | ⟨packet, sent, made, each, -⟩ := b.packet_follows
  · simp [made, sent]
  · simp [made, each]

/-- Nothing is sent of a bundle that cannot be made. -/
theorem Link.sendBundle_of_error {b : Bundle} {failure : Failure} (made : b.packet = .error failure)
    (link : Link) (channel : Channel) : link.sendBundle channel b = (.error failure, channel) := by
  rw [sendBundle, made]
  rfl

/-! ## Messages that belong nowhere -/

namespace Table

variable {t : Table} {hub hub' : Hub}

/-- **A message belongs nowhere:** its address cannot be read, or no served route takes it. -/
def Misses (t : Table) (hub : Hub) (m : MessagePacket) : Prop :=
  ∀ path, Path.parse m.address = .ok path →
    ∀ route values, ¬Belongs (t.get? hub) path m.arguments route values

mutual

/-- What is dispatched begins and ends no subscription. -/
theorem standing_dispatchPacket (t : Table) (hub : Hub) : (packet : Packet) →
    (t.dispatchPacket hub packet).2.standing = hub.standing
  | .message m => by rw [dispatchPacket_message, standing_dispatch]
  | .bundle _ items => by
    rw [dispatchPacket]
    exact standing_dispatchEach t hub items

theorem standing_dispatchEach (t : Table) (hub : Hub) : (packets : List Packet) →
    (t.dispatchEach hub packets).2.standing = hub.standing
  | [] => by rw [dispatchEach]
  | packet :: packets => by
    rw [dispatchEach_cons, standing_dispatchEach t _ packets, standing_dispatchPacket t hub packet]

end

/-- Handles keep their routes while messages are dispatched. -/
theorem get?_of_standing (t : Table) (same : hub'.standing = hub.standing) :
    t.get? hub' = t.get? hub := by
  funext route
  simp only [get?, Hub.route?_eq, Hub.routing_of_standing same]

/-- A message that belongs nowhere changes nothing and counts for nothing. -/
theorem Filed.dispatchPacket_of_misses (sound : hub.Sound) (filed : t.Filed hub) {m : MessagePacket}
    (misses : t.Misses hub m) : t.dispatchPacket hub (.message m) = (0, hub) := by
  have failed : ∃ failure, t.dispatch hub m.address m.arguments = (.error failure, hub) := by
    cases parsed : Path.parse m.address with
    | error fault => exact ⟨_, by rw [dispatch, parsed]⟩
    | ok path =>
      have nowhere := misses path parsed
      have dispatched := filed.dispatched sound parsed m.arguments
      obtain ⟨reached, -, mem_reached, answer⟩ := dispatched.answer
      obtain rfl : reached = [] := by
        refine List.eq_nil_iff_forall_not_mem.2 fun route listed => ?_
        obtain ⟨values, belongs⟩ := (mem_reached route).1 listed
        exact nowhere route values belongs
      exact ⟨_, Prod.ext answer (dispatched.missed nowhere)⟩
  obtain ⟨failure, failed⟩ := failed
  rw [dispatchPacket, failed]

/-- **Messages that belong nowhere may as well be left out.** -/
theorem Filed.dispatchEach_filter (sound : hub.Sound) (filed : t.Filed hub) {idle : Packet → Bool}
    {packets : List Packet} (missing : ∀ packet ∈ packets, idle packet = true →
      ∃ m, packet = .message m ∧ t.Misses hub m) :
    t.dispatchEach hub (packets.filter (!idle ·)) = t.dispatchEach hub packets := by
  induction packets generalizing hub with
  | nil => rfl
  | cons packet packets ih =>
    obtain ⟨own, others⟩ := List.forall_mem_cons.1 missing
    have same := t.standing_dispatchPacket hub packet
    -- What is dispatched in between does not change what a later message belongs to.
    have later : (t.dispatchPacket hub packet).2.Sound ∧ t.Filed (t.dispatchPacket hub packet).2 :=
      ⟨sound.of_standing same, filed.congr fun h route found => by
        rwa [Hub.route?_of_standing same]⟩
    have rest := ih later.1 later.2 (by simpa only [Misses, get?_of_standing t same] using others)
    rw [dispatchEach_cons]
    cases leave : idle packet with
    | false => rw [List.filter_cons_of_pos (by simp [leave]), dispatchEach_cons, rest]
    | true =>
      obtain ⟨m, rfl, misses⟩ := own leave
      rw [List.filter_cons_of_neg (by simp [leave]), filed.dispatchPacket_of_misses sound misses,
        ih sound filed others, Nat.zero_add]

end Table

/-! ## Bundles and their messages -/

/-- **A bundle is the same as its messages one after the other.** It cannot be made exactly if one of
them goes to every address, and then nothing is sent.  Otherwise its packet is dispatched to any
table like the packets of its messages in turn, in the order of writing, and in a reached table it
makes no difference to leave out some that belong nowhere. -/
theorem Bundle.dispatched_inTurn (b : Bundle) :
    ((∃ failure, b.packet = .error failure) ↔ ∃ m ∈ b.messages, m.route.path.isAny) ∧
    (∀ failure, b.packet = .error failure → ∀ (link : Link) (channel : Channel),
      link.sendBundle channel b = (.error failure, channel)) ∧
    ∀ packet, b.packet = .ok packet → ∃ sent, b.messages.mapM Message.packets = .ok sent ∧
      ∀ (t : Table) (hub : Hub),
        t.dispatchPacket hub packet = t.dispatchInTurn hub sent.flatten ∧
        (t.Reachable hub → ∀ idle : Packet → Bool,
          (∀ packet ∈ sent.flatten, idle packet = true →
            ∃ m, packet = .message m ∧ t.Misses hub m) →
          t.dispatchInTurn hub (sent.flatten.filter (!idle ·)) = t.dispatchPacket hub packet) := by
  refine ⟨Bundle.exists_packet_error_iff, fun failure made => Link.sendBundle_of_error made,
    fun packet made => ?_⟩
  obtain ⟨failure, failed, -⟩ | ⟨packet', sent, made', each, alike⟩ := b.packet_follows
  · rw [made] at failed
    contradiction
  · obtain rfl : packet = packet' := by simpa [made] using made'
    refine ⟨sent, each, fun t hub => ⟨alike t hub, fun reachable idle missing => ?_⟩⟩
    obtain ⟨sound, filed⟩ := reachable.filed
    rw [alike, Table.dispatchInTurn_eq, Table.dispatchInTurn_eq,
      filed.dispatchEach_filter sound missing]

/-- Of a message to two addresses and two in a bundle behind it, the first and the last are taken;
beside a message to every address none would be sent. -/
theorem Bundle.dispatched_inTurn_nested :
    let address (text : String) : Route := ⟨.single (.literal text), .typed .int32 []⟩
    let both : Route := ⟨.several ⟨[.literal "/a", .literal "/b"], Nat.le_refl 2⟩, .typed .int32 []⟩
    let b : Bundle := ⟨.immediate, [.message ⟨both, [.int 1]⟩,
      .bundle .immediate [.message ⟨address "/c", [.int 2]⟩, .message ⟨address "/b", [.int 3]⟩]]⟩
    let packet : Packet := .bundle .immediate [.message ⟨"/a", [.int 1]⟩, .message ⟨"/b", [.int 1]⟩,
      .bundle .immediate [.message ⟨"/c", [.int 2]⟩, .message ⟨"/b", [.int 3]⟩]]
    let spoiled : Bundle := b.extend [.message ⟨.everything, []⟩]
    let hub := (replay {} [.create (address "/a"), .create (address "/b"), .subscribe 0,
      .subscribe 1]).2
    let t : Table := ⟨[("/a", [0]), ("/b", [1])], []⟩
    let kept : List Packet := [.message ⟨"/a", [.int 1]⟩, .message ⟨"/b", [.int 1]⟩,
      .message ⟨"/b", [.int 3]⟩]
    (b.packet = .ok packet ∧ t.dispatchInTurn hub kept = t.dispatchPacket hub packet ∧
      (t.dispatchPacket hub packet).1 = 3 ∧
      (t.dispatchPacket hub packet).2.subscriptions.map Subscription.inbox =
        [[.values [.int 1]], [.values [.int 1], .values [.int 3]]]) ∧
    ∃ failure, spoiled.packet = .error failure ∧
      ∀ (link : Link) (channel : Channel),
        link.sendBundle channel spoiled = (.error failure, channel) := by
  intro address both b packet spoiled hub t kept
  have reachable : t.Reachable hub :=
    ((Table.Reachable.empty.run (run_replay _ _ (by decide))).serve (h := 0) rfl rfl).serve (h := 1)
      rfl rfl
  constructor
  · have made : b.packet = .ok packet := rfl
    obtain ⟨sent, each, inTurn⟩ := (Bundle.dispatched_inTurn b).2.2 packet made
    obtain rfl : [[.message ⟨"/a", [.int 1]⟩, .message ⟨"/b", [.int 1]⟩], [.message ⟨"/c", [.int 2]⟩],
      [.message ⟨"/b", [.int 3]⟩]] = sent := Except.ok.inj each
    -- Both served routes are for other addresses.
    have nowhere : t.Misses hub ⟨"/c", [.int 2]⟩ := by
      intro path parsed route values belongs
      obtain rfl : .single (.literal "/c") = path := Except.ok.inj parsed
      obtain ⟨h, looked⟩ := Option.isSome_iff_exists.1 belongs.served
      obtain ⟨listed, found⟩ := (reachable.filed.2.get?_eq_some_iff route h).1 looked
      have listed : h = 0 ∨ h = 1 := by simpa [t, Table.handles] using listed
      rcases listed with rfl | rfl
      · obtain rfl : address "/a" = route := Option.some.inj found
        exact absurd belongs.meant (by decide)
      · obtain rfl : address "/b" = route := Option.some.inj found
        exact absurd belongs.meant (by decide)
    refine ⟨made, ?_, rfl, rfl⟩
    refine (inTurn t hub).2 reachable (fun packet =>
      packet.casesOn (fun m => m.address == "/c") fun _ _ => false) ?_
    simpa using nowhere
  · obtain ⟨failure, made⟩ := (Bundle.dispatched_inTurn spoiled).1.2
      ⟨⟨.everything, []⟩, by
        simp [spoiled, Bundle.messages, Bundle.extend, b, Item.messagesEach, Item.messages], rfl⟩
    exact ⟨failure, made, (Bundle.dispatched_inTurn spoiled).2.1 failure made⟩

end SoundControl
