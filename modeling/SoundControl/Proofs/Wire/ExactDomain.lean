import Mathlib.Data.List.TakeWhile
import SoundControl.Proofs.Wire.RoundTrip

/-! # Which packets are read back

A packet is read back as it was written in exactly the cases in which its texts and blobs can be told
from the bytes around them.  What makes the other cases fail is a count of bytes: every argument that
is read takes the bytes that are written for it, and a blob whose length is a multiple of four takes
four more, which nothing that follows gives back.  Bundles do not matter, because the packets in them
are told apart by their lengths.

* **`MessagePacket.Readable`**, **`Packet.messages`** — the condition, and the messages it is about.
* **`Cursor.Past`** — how many bytes lie between two places in a datagram.
* **`Cursor.read_argument`**, **`readArguments_tagCharsEach`** — the bytes that are taken for arguments.
* **`readPacket_readable`** — a message that is read back is readable.
* **`decode_encode_eq_ok_iff`** — a packet is read back if and only if its messages are readable. -/

namespace SoundControl.Wire

open Number Text Time

/-! ## Readable messages -/

/-- **Whether a message can be told from its bytes:** its address is one, no text ends early, and no
blob ends at a multiple of four. -/
structure MessagePacket.Readable (m : MessagePacket) : Prop where
  /-- The address starts with a slash. -/
  slash : m.address.toList.head? = some '/'
  /-- The address has no zero character. -/
  whole : '\x00' ∉ m.address.toList
  /-- Nor has a text, in any brackets. -/
  texts : ∀ s, .string s ∈ Argument.leavesEach m.arguments → '\x00' ∉ s.toList
  /-- No blob, in any brackets, is a multiple of four bytes long. -/
  blobs : ∀ content, .blob content ∈ Argument.leavesEach m.arguments → content.length % 4 ≠ 0

/-- Legible texts and blobs do not end early, nor at a multiple of four. -/
theorem MessagePacket.Readable.of_legible {m : MessagePacket}
    (slash : m.address.toList.head? = some '/') (whole : '\x00' ∉ m.address.toList)
    (legible : ∀ leaf ∈ Argument.leavesEach m.arguments, leaf.Legible) : m.Readable where
  slash := slash
  whole := whole
  texts _ listed := legible _ listed
  blobs _ listed := (legible _ listed).1

mutual

/-- The messages of a packet, those of bundles included. -/
def Packet.messages : Packet → List MessagePacket
  | .message m => [m]
  | .bundle _ items => Packet.messagesEach items

/-- The messages of several packets in order. -/
def Packet.messagesEach : List Packet → List MessagePacket
  | [] => []
  | p :: ps => Packet.messages p ++ Packet.messagesEach ps

end

/-! ## How far a reading goes -/

/-- **`c'` is `count` bytes behind `c`.** -/
structure Cursor.Past (c c' : Cursor) (count : Nat) : Prop where
  /-- That much further from the start of the datagram. -/
  offset : c'.offset = c.offset + count
  /-- That much less to be read. -/
  length : c'.bytes.length + count = c.bytes.length

namespace Cursor

variable {c c' c'' : Cursor}

theorem Past.refl (c : Cursor) : c.Past c 0 := ⟨rfl, rfl⟩

theorem Past.trans {m n : Nat} (head : c.Past c' m) (last : c'.Past c'' n) :
    c.Past c'' (m + n) where
  offset := by rw [last.offset, head.offset, Nat.add_assoc]
  length := by rw [← head.length, ← last.length]; omega

/-- As many bytes are taken as are asked for. -/
theorem past_take {count : Nat} {front : List UInt8} (read : c.take count = .ok (front, c')) :
    front.length = count ∧ c.Past c' count := by
  unfold take at read
  split at read
  next enough =>
    cases read
    exact ⟨List.length_take_of_le enough, rfl, by simp [Nat.sub_add_cancel enough]⟩
  next => simp at read

theorem past_number {width n : Nat} (read : c.number width = .ok (n, c')) : c.Past c' width := by
  obtain ⟨⟨front, rest⟩, taken, same⟩ := bind_eq_ok_iff.1 read
  cases same
  exact (past_take taken).2

theorem past_skipGap (read : c.skipGap = .ok c') : c.Past c' (gap c.offset) := by
  obtain ⟨⟨front, rest⟩, taken, same⟩ := bind_eq_ok_iff.1 read
  cases same
  exact (past_take taken).2

/-- **A text that is read** has no zero character, and takes the bytes that are written for it. -/
theorem past_text {s : String} (aligned : c.offset % 4 = 0) (read : c.text = .ok (s, c')) :
    '\x00' ∉ s.toList ∧ c.Past c' (encodeText s).length := by
  obtain ⟨⟨front, behind⟩, taken, read⟩ := bind_eq_ok_iff.1 read
  obtain ⟨behind', skipped, read⟩ := bind_eq_ok_iff.1 read
  split at read
  next s' decoded =>
    cases read
    have same := encodeUtf8_of_decodeUtf8 decoded
    obtain ⟨-, past⟩ := past_take taken
    have total := past.trans (past_skipGap skipped)
    rw [past.offset, gap_add_of_aligned aligned, ← same, ← length_encodeText] at total
    refine ⟨fun listed => ?_, total⟩
    -- The bytes of the text stand in front of the first zero byte.
    have zero : (0 : UInt8) ∈ c.bytes.takeWhile (· != 0) := same ▸ (zero_mem_encodeUtf8 s).2 listed
    simpa using List.mem_takeWhile_imp zero
  next => simp at read

/-- **A blob that is read** takes the bytes that are written for it, and four more if its length is a
multiple of four. -/
theorem past_blob {content : List UInt8} (aligned : c.offset % 4 = 0)
    (read : c.blob = .ok (content, c')) :
    c.Past c' ((encodeBlob content).length + if content.length % 4 = 0 then 4 else 0) := by
  obtain ⟨⟨length, c₁⟩, counted, read⟩ := bind_eq_ok_iff.1 read
  obtain ⟨⟨front, c₂⟩, taken, read⟩ := bind_eq_ok_iff.1 read
  obtain ⟨c₃, skipped, same⟩ := bind_eq_ok_iff.1 read
  cases same
  obtain ⟨long, past⟩ := past_take taken
  have total := ((past_number counted).trans past).trans (past_skipGap skipped)
  have written : (encodeBlob content).length = 4 + content.length + (4 - content.length % 4) % 4 := by
    simp [encodeBlob, padding, Nat.add_assoc]
  have behind : gap c₂.offset = 4 - content.length % 4 := by
    rw [past.offset, (past_number counted).offset, gap]
    omega
  rw [behind, ← long] at total
  convert total using 1
  rw [written]
  split <;> omega

theorem past_timeTag {t : TimeTag} (read : c.timeTag = .ok (t, c')) :
    c.Past c' (encodeTimeTag t).length := by
  obtain ⟨⟨seconds, c₁⟩, own, read⟩ := bind_eq_ok_iff.1 read
  obtain ⟨⟨fraction, c₂⟩, last, same⟩ := bind_eq_ok_iff.1 read
  cases same
  have total := (past_number own).trans (past_number last)
  rwa [encodeTimeTag, List.length_append, length_bigEndian, length_bigEndian]

theorem past_quad {bytes : UInt8 × UInt8 × UInt8 × UInt8} (read : c.quad = .ok (bytes, c')) :
    c.Past c' 4 := by
  obtain ⟨⟨front, c₁⟩, taken, read⟩ := bind_eq_ok_iff.1 read
  split at read
  next same =>
    cases same
    cases read
    exact (past_take taken).2
  next => simp at read

end Cursor

/-! ## Arguments that are read -/

namespace Argument

/-- A blob behind which more bytes are skipped than are written. -/
def overread : Argument → Bool
  | .blob content => content.length % 4 == 0
  | _ => false

/-- How many bytes more are taken for arguments than are written for them. -/
def surplus (as : List Argument) : Nat := 4 * (leavesEach as).countP overread

theorem surplus_cons (a : Argument) (as : List Argument) :
    surplus (a :: as) = surplus [a] + surplus as := by
  rw [surplus, surplus, surplus, leavesEach, leavesEach, List.countP_append, List.countP_append,
    Nat.mul_add]
  rfl

theorem dataEach_singleton (a : Argument) : dataEach [a] = a.data := by
  rw [dataEach, dataEach, List.append_nil]

theorem surplus_blob (content : List UInt8) :
    surplus [.blob content] = if content.length % 4 = 0 then 4 else 0 := by
  by_cases aligned : content.length % 4 = 0 <;>
    simp [surplus, leavesEach, leaves, overread, aligned]

end Argument

/-- **What was read as arguments:** no text ends early, and the bytes that were taken are those that
are written for them and their surplus. -/
structure ArgumentsRead (c c' : Cursor) (as : List Argument) : Prop where
  /-- No text ends early. -/
  texts : ∀ s, .string s ∈ Argument.leavesEach as → '\x00' ∉ s.toList
  /-- The bytes that were taken. -/
  past : c.Past c' ((Argument.dataEach as).length + Argument.surplus as)

namespace ArgumentsRead

variable {c c' c'' : Cursor} {as bs : List Argument}

theorem nil (c : Cursor) : ArgumentsRead c c [] := ⟨nofun, .refl c⟩

theorem cons {a : Argument} (own : ArgumentsRead c c' [a]) (others : ArgumentsRead c' c'' as) :
    ArgumentsRead c c'' (a :: as) where
  texts s listed := by
    have own := own.texts s
    have others := others.texts s
    simp only [Argument.leavesEach, List.append_nil, List.mem_append] at own listed
    exact listed.elim own others
  past := by
    have total := own.past.trans others.past
    rw [Argument.surplus_cons, Argument.dataEach, List.length_append]
    convert total using 1
    rw [Argument.dataEach_singleton]
    omega

/-- What is read inside brackets is read with them. -/
theorem array (inside : ArgumentsRead c c' as) : ArgumentsRead c c' [.array as] := by
  obtain ⟨texts, past⟩ := inside
  constructor
  · simpa [Argument.leavesEach, Argument.leaves] using texts
  · simpa [Argument.dataEach, Argument.data, Argument.surplus, Argument.leavesEach,
      Argument.leaves] using past

/-- Arguments are read up to a multiple of four. -/
theorem aligned (read : ArgumentsRead c c' as) (start : c.offset % 4 = 0) : c'.offset % 4 = 0 := by
  have data := Argument.length_dataEach_mod as
  rw [read.past.offset, Argument.surplus]
  omega

end ArgumentsRead

/-- **What is read for a type character:** an argument without brackets. -/
theorem Cursor.read_argument {c c' : Cursor} {tag : Char} {a : Argument}
    (aligned : c.offset % 4 = 0) (read : c.argument tag = .ok (a, c')) :
    ArgumentsRead c c' [a] := by
  unfold argument at read
  -- The cases are those of the type characters, in their order.
  split at read
  case h_1 | h_2 | h_3 | h_4 =>
    obtain ⟨⟨n, c₁⟩, number, same⟩ := bind_eq_ok_iff.1 read
    cases same
    exact ⟨nofun, past_number number⟩
  case h_5 =>
    obtain ⟨⟨s, c₁⟩, text, same⟩ := bind_eq_ok_iff.1 read
    cases same
    obtain ⟨whole, past⟩ := past_text aligned text
    refine ⟨fun t listed => ?_, ?_⟩
    · cases List.mem_singleton.1 listed
      exact whole
    · rwa [Argument.dataEach_singleton]
  case h_6 =>
    obtain ⟨⟨content, c₁⟩, blob, same⟩ := bind_eq_ok_iff.1 read
    cases same
    refine ⟨nofun, ?_⟩
    rw [Argument.dataEach_singleton, Argument.surplus_blob]
    exact past_blob aligned blob
  case h_7 =>
    obtain ⟨⟨t, c₁⟩, time, same⟩ := bind_eq_ok_iff.1 read
    cases same
    exact ⟨nofun, past_timeTag time⟩
  case h_8 =>
    obtain ⟨⟨n, c₁⟩, number, read⟩ := bind_eq_ok_iff.1 read
    dsimp only at read
    split at read <;> cases read
    exact ⟨nofun, past_number number⟩
  case h_9 | h_10 =>
    obtain ⟨⟨bytes, c₁⟩, quad, same⟩ := bind_eq_ok_iff.1 read
    cases same
    exact ⟨nofun, past_quad quad⟩
  case h_11 | h_12 | h_13 | h_14 =>
    cases read
    exact ⟨nofun, .refl c⟩
  case h_15 => simp at read

/-- An argument without brackets has one type character, which is no bracket. -/
theorem Argument.exists_tagChar {a : Argument} (plain : ∀ items, a ≠ .array items) :
    ∃ tag, a.tagChars = [tag] ∧ tag ≠ '[' ∧ tag ≠ ']' := by
  cases a with
  | array items => exact absurd rfl (plain items)
  | bool b => cases b <;> exact ⟨_, rfl, by decide, by decide⟩
  | _ => exact ⟨_, rfl, by decide, by decide⟩

theorem readArguments_tagChar {c : Cursor} (aligned : c.offset % 4 = 0) {a : Argument}
    (plain : ∀ items, a ≠ .array items) {found : List Argument} {outer : List (List Argument)}
    {tags : List Char} {result : List Argument}
    (read : readArguments c found outer (a.tagChars ++ tags) = .ok result) :
    ∃ b c', ArgumentsRead c c' [b] ∧ readArguments c' (b :: found) outer tags = .ok result := by
  obtain ⟨tag, single, opens, closes⟩ := Argument.exists_tagChar plain
  rw [single, List.singleton_append, readArguments] at read
  · obtain ⟨⟨b, c'⟩, own, read⟩ := bind_eq_ok_iff.1 read
    exact ⟨b, c', Cursor.read_argument aligned own, read⟩
  · exact opens
  · exact closes

mutual

/-- **Reading by the type characters of an argument** goes on with some argument in front of those
that were found before. -/
theorem readArguments_tagChars {c : Cursor} (aligned : c.offset % 4 = 0) (a : Argument)
    {found : List Argument} {outer : List (List Argument)} {tags : List Char}
    {result : List Argument}
    (read : readArguments c found outer (a.tagChars ++ tags) = .ok result) :
    ∃ b c', ArgumentsRead c c' [b] ∧ readArguments c' (b :: found) outer tags = .ok result := by
  match a with
  | .array items =>
    rw [Argument.tagChars, List.append_assoc, List.append_assoc, List.singleton_append,
      readArguments] at read
    obtain ⟨bs, c', inside, read⟩ := readArguments_tagCharsEach aligned items read
    rw [List.singleton_append, List.append_nil, readArguments, List.reverse_reverse] at read
    exact ⟨.array bs, c', inside.array, read⟩
  | .int _ | .long _ | .float _ | .double _ | .string _ | .blob _ | .time _ | .char _ | .color _
  | .midi _ | .bool _ | .nil | .infinitum =>
    exact readArguments_tagChar aligned (by nofun) read

/-- **Reading by the type characters of arguments** goes on with as many arguments in front. -/
theorem readArguments_tagCharsEach {c : Cursor} (aligned : c.offset % 4 = 0) (as : List Argument)
    {found : List Argument} {outer : List (List Argument)} {tags : List Char}
    {result : List Argument}
    (read : readArguments c found outer (Argument.tagCharsEach as ++ tags) = .ok result) :
    ∃ bs c', ArgumentsRead c c' bs ∧
      readArguments c' (bs.reverse ++ found) outer tags = .ok result := by
  match as with
  | [] => exact ⟨[], c, .nil c, read⟩
  | a :: as =>
    rw [Argument.tagCharsEach, List.append_assoc] at read
    obtain ⟨b, c', own, read⟩ := readArguments_tagChars aligned a read
    obtain ⟨bs, c'', others, read⟩ := readArguments_tagCharsEach (own.aligned aligned) as read
    refine ⟨b :: bs, c'', own.cons others, ?_⟩
    rwa [List.reverse_cons, List.append_assoc, List.singleton_append]

end

/-! ## Messages that are read -/

/-- **Arguments that are read back as they were written** are legible: nothing is left for a surplus. -/
theorem readArguments_dataEach_legible {offset : Nat} (aligned : offset % 4 = 0) {as : List Argument}
    (read : readArguments ⟨offset, Argument.dataEach as⟩ [] [] (Argument.tagCharsEach as) = .ok as) :
    (∀ s, .string s ∈ Argument.leavesEach as → '\x00' ∉ s.toList) ∧
      ∀ content, .blob content ∈ Argument.leavesEach as → content.length % 4 ≠ 0 := by
  obtain ⟨bs, c', back, last⟩ :=
    @readArguments_tagCharsEach ⟨offset, Argument.dataEach as⟩ aligned as [] [] [] as
      (by rwa [List.append_nil])
  rw [readArguments, List.append_nil, List.reverse_reverse, Except.ok.injEq] at last
  subst last
  refine ⟨back.texts, fun content listed short => ?_⟩
  have exhausted : Argument.surplus bs = 0 := by
    have length := back.past.length
    dsimp only at length
    omega
  have overread : 0 < (Argument.leavesEach bs).countP Argument.overread :=
    List.countP_pos_iff.2 ⟨_, listed, by simp [Argument.overread, short]⟩
  rw [Argument.surplus] at exhausted
  omega

/-- What follows the address of a message is read back as its arguments only if they are legible. -/
theorem readMessage_legible {offset : Nat} (aligned : offset % 4 = 0) {address : String}
    {as : List Argument}
    (read : readMessage address ⟨offset,
      encodeText (String.ofList (',' :: Argument.tagCharsEach as)) ++ Argument.dataEach as⟩ =
        .ok (.message ⟨address, as⟩)) :
    (∀ s, .string s ∈ Argument.leavesEach as → '\x00' ∉ s.toList) ∧
      ∀ content, .blob content ∈ Argument.leavesEach as → content.length % 4 ≠ 0 := by
  have tagged : '\x00' ∉ (String.ofList (',' :: Argument.tagCharsEach as)).toList := by
    simp [zero_not_mem_tagCharsEach]
  have types := length_encodeText_mod (String.ofList (',' :: Argument.tagCharsEach as))
  rw [readMessage, Cursor.text_encodeText tagged aligned] at read
  simp only [ok_bind, String.toList_ofList, List.tail_cons] at read
  obtain ⟨bs, arguments, same⟩ := bind_eq_ok_iff.1 read
  cases same
  exact readArguments_dataEach_legible (by omega) arguments

/-- **A message that is read back as it was written is readable.** -/
theorem readPacket_readable {offset fuel : Nat} (aligned : offset % 4 = 0) {m : MessagePacket}
    (read : readPacket (fuel + 1) ⟨offset, m.encode⟩ = .ok (.message m)) : m.Readable := by
  rw [readPacket] at read
  split at read
  next => simp at read
  obtain ⟨⟨address, c⟩, text, read⟩ := bind_eq_ok_iff.1 read
  dsimp only at read
  split at read
  next slash =>
    -- The address that was read is that of the message, so it was read to its end.
    obtain rfl : address = m.address := by
      obtain ⟨⟨tags, c'⟩, -, rest⟩ := bind_eq_ok_iff.1 read
      obtain ⟨arguments, -, same⟩ := bind_eq_ok_iff.1 rest
      cases same
      rfl
    have whole := (Cursor.past_text aligned text).1
    have behind := length_encodeText_mod m.address
    rw [MessagePacket.encode, List.append_assoc, Cursor.text_encodeText whole aligned] at text
    cases text
    obtain ⟨texts, blobs⟩ := readMessage_legible (by omega) read
    exact ⟨slash, whole, texts, blobs⟩
  next =>
    split at read
    next =>
      obtain ⟨⟨t, c'⟩, -, same⟩ := bind_eq_ok_iff.1 read
      cases same
    next => simp at read

mutual

/-- The data of an argument is that of its leaves. -/
theorem Argument.flatMap_data_leaves : (a : Argument) → a.leaves.flatMap data = a.data
  | .array items => Argument.flatMap_data_leavesEach items
  | .int _ | .long _ | .float _ | .double _ | .string _ | .blob _ | .time _ | .char _ | .color _
  | .midi _ | .bool _ | .nil | .infinitum => List.append_nil _

theorem Argument.flatMap_data_leavesEach :
    (as : List Argument) → (leavesEach as).flatMap data = dataEach as
  | [] => rfl
  | a :: as => by
    rw [leavesEach, List.flatMap_append, flatMap_data_leaves a, flatMap_data_leavesEach as, dataEach]

end

/-- **The texts and blobs of a readable message are legible,** if it is not too long. -/
theorem MessagePacket.Readable.legible {m : MessagePacket} (readable : m.Readable)
    (small : m.encode.length < 2 ^ 32) :
    ∀ leaf ∈ Argument.leavesEach m.arguments, leaf.Legible := by
  intro leaf listed
  cases leaf with
  | string s => exact readable.texts s listed
  | blob content =>
    have part : (encodeBlob content).length ≤ (Argument.dataEach m.arguments).length := by
      rw [← Argument.flatMap_data_leavesEach, List.flatMap_def]
      exact (List.sublist_flatten_of_mem
        (List.mem_map_of_mem (f := Argument.data) listed)).length_le
    simp only [encodeBlob, MessagePacket.encode, List.length_append] at part small
    exact ⟨readable.blobs content listed, by omega⟩
  | _ => trivial

/-! ## Packets that are read -/

mutual

/-- Packets are a multiple of four bytes long. -/
theorem length_encode_mod : (p : Packet) → p.encode.length % 4 = 0
  | .message m => by
    have address := length_encodeText_mod m.address
    have types := length_encodeText_mod (String.ofList (',' :: Argument.tagCharsEach m.arguments))
    have data := Argument.length_dataEach_mod m.arguments
    rw [Packet.encode, MessagePacket.encode, List.length_append, List.length_append]
    omega
  | .bundle t items => by
    have name := length_encodeText_mod bundleName
    have time : (encodeTimeTag t).length = 8 := by simp [encodeTimeTag]
    have content := length_encodeItems_mod items
    rw [Packet.encode, List.length_append, List.length_append]
    omega

theorem length_encodeItems_mod : (ps : List Packet) → (encodeItems ps).length % 4 = 0
  | [] => rfl
  | p :: ps => by
    have own := length_encode_mod p
    have others := length_encodeItems_mod ps
    rw [encodeItems, List.length_append, List.length_append, length_bigEndian]
    omega

end

/-- Packets are not empty. -/
theorem length_encode_pos (p : Packet) : 0 < p.encode.length := by
  cases p <;>
    simp only [Packet.encode, MessagePacket.encode, List.length_append, length_encodeText, gap] <;>
    omega

/-- **A packet of a bundle is cut out by its length.** -/
theorem item_encodeItems {offset : Nat} {p : Packet} {ps : List Packet}
    (small : p.encode.length < 2 ^ 32) :
    Cursor.item ⟨offset, encodeItems (p :: ps)⟩ = .ok (⟨offset + 4, p.encode⟩,
      ⟨offset + 4 + p.encode.length, encodeItems ps⟩) := by
  rw [Cursor.item, encodeItems, List.append_assoc, Cursor.number_bigEndian (by omega)]
  simp only [ok_bind, pure_eq_ok, Cursor.take_append rfl]

mutual

/-- **A packet is read back if and only if its messages are readable.** -/
theorem readPacket_encode_iff {offset fuel : Nat} (aligned : offset % 4 = 0) (p : Packet)
    (small : p.encode.length < 2 ^ 32) (enough : p.encode.length ≤ fuel) :
    readPacket fuel ⟨offset, p.encode⟩ = .ok p ↔ ∀ m ∈ p.messages, m.Readable := by
  obtain ⟨fuel, rfl⟩ : ∃ more, fuel = more + 1 := by
    have positive := length_encode_pos p
    exact ⟨fuel - 1, by omega⟩
  match p with
  | .message m =>
    rw [Packet.messages, List.forall_mem_singleton]
    exact ⟨readPacket_readable aligned, fun readable =>
      readPacket_encode readable.slash readable.whole (readable.legible small) aligned fuel⟩
  | .bundle t items =>
    have nonempty : (Packet.bundle t items).encode.isEmpty = false := by
      rw [List.isEmpty_eq_false_iff, ← List.length_pos_iff]
      exact length_encode_pos _
    have name := length_encodeText_mod bundleName
    have whole : '\x00' ∉ bundleName.toList := by decide
    have slash : bundleName.toList.head? ≠ Option.some '/' := by decide
    have time : (encodeTimeTag t).length = 8 := by simp [encodeTimeTag]
    simp only [Packet.encode, List.length_append] at small enough
    rw [readPacket, nonempty, Packet.encode, List.append_assoc, Cursor.text_encodeText whole aligned]
    simp only [ok_bind, Bool.false_eq_true, if_false, slash, if_true, Cursor.timeTag_encodeTimeTag,
      pure_eq_ok, Except.ok.injEq, Packet.bundle.injEq, true_and]
    rw [Packet.messages]
    exact readItems_encodeItems_iff (by omega) items (by omega) (by omega)

/-- The packets of a bundle are read back if and only if their messages are readable. -/
theorem readItems_encodeItems_iff {offset fuel : Nat} (aligned : offset % 4 = 0) (ps : List Packet)
    (small : (encodeItems ps).length < 2 ^ 32) (enough : (encodeItems ps).length ≤ fuel) :
    readItems fuel ⟨offset, encodeItems ps⟩ = ps ↔ ∀ m ∈ Packet.messagesEach ps, m.Readable := by
  match ps with
  | [] =>
    have empty : readItems fuel ⟨offset, encodeItems []⟩ = [] := by
      cases fuel <;> rfl
    simp [empty, Packet.messagesEach]
  | p :: ps =>
    have behind := length_encode_mod p
    have long : (encodeItems (p :: ps)).length =
        4 + p.encode.length + (encodeItems ps).length := by
      rw [encodeItems, List.length_append, List.length_append, length_bigEndian]
    obtain ⟨fuel, rfl⟩ : ∃ more, fuel = more + 1 := ⟨fuel - 1, by omega⟩
    have own : readPacket fuel ⟨offset + 4, p.encode⟩ = .ok p ↔ ∀ m ∈ p.messages, m.Readable :=
      readPacket_encode_iff (by omega) p (by omega) (by omega)
    have others : readItems fuel ⟨offset + 4 + p.encode.length, encodeItems ps⟩ = ps ↔
        ∀ m ∈ Packet.messagesEach ps, m.Readable :=
      readItems_encodeItems_iff (by omega) ps (by omega) (by omega)
    rw [Packet.messagesEach, List.forall_mem_append, ← own, ← others, readItems,
      item_encodeItems (by omega)]
    dsimp only
    split
    next fault faulty => simp [faulty]
    next q read => simp [read]

end

/-- **A packet is read back from its bytes if and only if its messages are readable.** -/
theorem decode_encode_eq_ok_iff (p : Packet) (small : p.encode.length < 2 ^ 32) :
    decode p.encode = .ok p ↔ ∀ m ∈ p.messages, m.Readable :=
  readPacket_encode_iff rfl p small (Nat.le_refl _)

/-- A bundle in a bundle is read back, with a text and a blob in brackets; with an empty blob it is
not. -/
theorem decode_encode_nested :
    let first : MessagePacket :=
      ⟨"/a", [.array [.string "hé", .array [.blob [1, 2, 3]]], .double .nan]⟩
    let packet (content : List UInt8) : Packet :=
      .bundle .immediate [.message first, .bundle .immediate [.message ⟨"/b", [.blob content]⟩]]
    ((packet [7]).encode.length < 2 ^ 32 ∧ decode (packet [7]).encode = .ok (packet [7])) ∧
      ((packet []).encode.length < 2 ^ 32 ∧ decode (packet []).encode ≠ .ok (packet [])) := by
  intro first packet
  have small : (packet [7]).encode.length < 2 ^ 32 := by cbv
  have small' : (packet []).encode.length < 2 ^ 32 := by cbv
  refine ⟨⟨small, (decode_encode_eq_ok_iff _ small).2 ?_⟩, small', fun read => ?_⟩
  · have messages : (packet [7]).messages = [first, ⟨"/b", [.blob [7]]⟩] := rfl
    rw [messages, List.forall_mem_cons, List.forall_mem_singleton]
    exact ⟨.of_legible (by decide) (by decide) (by decide),
      .of_legible (by decide) (by decide) (by decide)⟩
  · have listed : ⟨"/b", [.blob []]⟩ ∈ (packet []).messages := .tail _ (.head _)
    have readable := (decode_encode_eq_ok_iff _ small').1 read _ listed
    exact readable.blobs [] (.head _) rfl

end SoundControl.Wire
