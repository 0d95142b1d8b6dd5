import Mathlib.Algebra.Group.Nat.Defs
import SoundControl.Proofs.Number.Encoding
import SoundControl.Proofs.Outcome
import SoundControl.Proofs.Text.Utf8
import SoundControl.Wire.Decode

/-! # What is read back

The gap that is skipped behind a text or blob has one to four bytes. Behind a text that many are
written; behind a blob none are written where four are skipped. Everything written is a multiple of
four bytes long, so that gaps do not depend on where in a datagram they stand.

* **`Argument.Legible`** — the texts and blobs that can be told from the bytes around them.
* **`Argument.leaves`** — the arguments inside all brackets.
* **`Cursor.text_encodeText`**, **`Cursor.blob_encodeBlob`** — texts and blobs are read back.
* **`readArguments_dataEach`** — arguments are read back, whatever follows them.
* **`decode_encode_message`** — messages are read back. -/

namespace SoundControl.Wire

open Number Text Time

/-! ## Numbers -/

theorem ofBigEndian_append_singleton (bytes : List UInt8) (b : UInt8) :
    ofBigEndian (bytes ++ [b]) = ofBigEndian bytes * 256 + b.toNat := by
  rw [ofBigEndian, List.foldl_append]
  rfl

/-- **A number that fits is read back from its bytes.** -/
theorem ofBigEndian_bigEndian {count n : Nat} (fits : n < 256 ^ count) :
    ofBigEndian (bigEndian count n) = n := by
  induction count generalizing n with
  | zero =>
    obtain rfl : n = 0 := by simpa using fits
    rfl
  | succ count ih =>
    have upper : n / 256 < 256 ^ count := by
      rw [Nat.pow_succ] at fits
      exact Nat.div_lt_of_lt_mul (Nat.mul_comm _ 256 ▸ fits)
    rw [bigEndian, ofBigEndian_append_singleton, ih upper]
    simp
    omega

/-! ## Lengths -/

theorem length_encodeText (s : String) :
    (encodeText s).length = (encodeUtf8 s).length + gap (encodeUtf8 s).length := by
  simp [encodeText]

theorem length_encodeText_mod (s : String) : (encodeText s).length % 4 = 0 := by
  rw [length_encodeText, gap]
  omega

theorem length_encodeBlob_mod (content : List UInt8) : (encodeBlob content).length % 4 = 0 := by
  simp only [encodeBlob, padding, List.length_append, length_bigEndian, List.length_replicate]
  omega

namespace Argument

mutual

/-- **Arguments are a multiple of four bytes long.** -/
theorem length_data_mod : (a : Argument) → a.data.length % 4 = 0
  | .int _ | .long _ | .float _ | .double _ | .char _ | .color _ | .midi _ | .time _ => by
    simp [data, encodeTimeTag, Midi.toBytes]
  | .bool _ | .nil | .infinitum => rfl
  | .string s => length_encodeText_mod s
  | .blob content => length_encodeBlob_mod content
  | .array items => length_dataEach_mod items

theorem length_dataEach_mod : (as : List Argument) → (dataEach as).length % 4 = 0
  | [] => rfl
  | a :: as => by
    have own := length_data_mod a
    have others := length_dataEach_mod as
    rw [dataEach, List.length_append]
    omega

end

/-! ## Legible arguments -/

/-- **A text or blob that can be told from the bytes around it:** a text ends at its first zero
character, and a blob that ends at a multiple of four is taken to have four bytes behind it. -/
def Legible : Argument → Prop
  | .string s => '\x00' ∉ s.toList
  | .blob content => content.length % 4 ≠ 0 ∧ content.length < 2 ^ 32
  | _ => True

instance : DecidablePred Legible := fun
  | .string s => inferInstanceAs (Decidable ('\x00' ∉ s.toList))
  | .blob content =>
    inferInstanceAs (Decidable (content.length % 4 ≠ 0 ∧ content.length < 2 ^ 32))
  | .int _ | .long _ | .float _ | .double _ | .time _ | .char _ | .color _ | .midi _ | .bool _
  | .nil | .infinitum | .array _ => inferInstanceAs (Decidable True)

mutual

/-- The arguments inside all brackets. -/
def leaves : Argument → List Argument
  | .array items => leavesEach items
  | a => [a]

/-- The arguments inside all brackets of several. -/
def leavesEach : List Argument → List Argument
  | [] => []
  | a :: as => leaves a ++ leavesEach as

end

end Argument

/-! ## Reading from the front -/

namespace Cursor

variable {offset : Nat} {rest : List UInt8}

/-- As many bytes are taken as are in front. -/
theorem take_append {front : List UInt8} {count : Nat} (long : front.length = count) :
    take ⟨offset, front ++ rest⟩ count = .ok (front, ⟨offset + count, rest⟩) := by
  subst long
  rw [take, if_pos (by simp)]
  simp

/-- **A number that fits is read back.** -/
theorem number_bigEndian {n width : Nat} (fits : n < 256 ^ width) :
    number ⟨offset, bigEndian width n ++ rest⟩ width = .ok (n, ⟨offset + width, rest⟩) := by
  rw [number, take_append (length_bigEndian width n)]
  simp only [ok_bind, pure_eq_ok, ofBigEndian_bigEndian fits]

theorem skipGap_append {zeros : List UInt8} (long : zeros.length = gap offset) :
    skipGap ⟨offset, zeros ++ rest⟩ = .ok ⟨offset + gap offset, rest⟩ := by
  rw [skipGap, take_append long]
  rfl

/-- Gaps depend on the offset modulo four. -/
theorem gap_add_of_aligned (aligned : offset % 4 = 0) (length : Nat) :
    gap (offset + length) = gap length := by
  rw [gap, gap]
  omega

/-- **A text without zero characters is read back.** -/
theorem text_encodeText {s : String} (legible : '\x00' ∉ s.toList) (aligned : offset % 4 = 0) :
    text ⟨offset, encodeText s ++ rest⟩ = .ok (s, ⟨offset + (encodeText s).length, rest⟩) := by
  have nonzero : ∀ b ∈ encodeUtf8 s, (b != 0) = true := by
    intro b listed
    rw [bne_iff_ne]
    rintro rfl
    exact legible ((zero_mem_encodeUtf8 s).1 listed)
  -- There is a zero byte behind the text, which ends it.
  have content : (encodeText s ++ rest).takeWhile (· != 0) = encodeUtf8 s := by
    obtain ⟨more, padded⟩ : ∃ more, gap (encodeUtf8 s).length = more + 1 :=
      ⟨gap (encodeUtf8 s).length - 1, by rw [gap]; omega⟩
    rw [encodeText, padded, List.replicate_succ, List.append_assoc,
      List.takeWhile_append_of_pos nonzero]
    simp
  have skipped : skipGap ⟨offset + (encodeUtf8 s).length,
      List.replicate (gap (encodeUtf8 s).length) 0 ++ rest⟩ = _ :=
    skipGap_append (by rw [List.length_replicate, gap_add_of_aligned aligned])
  rw [gap_add_of_aligned aligned, Nat.add_assoc, ← length_encodeText] at skipped
  rw [text]
  dsimp only
  rw [content, encodeText, List.append_assoc, take_append rfl]
  simp only [ok_bind, skipped, decodeUtf8_encodeUtf8]
  rfl

/-- **A blob whose length is no multiple of four is read back.** -/
theorem blob_encodeBlob {content : List UInt8} (odd : content.length % 4 ≠ 0)
    (fits : content.length < 2 ^ 32) (aligned : offset % 4 = 0) :
    blob ⟨offset, encodeBlob content ++ rest⟩ =
      .ok (content, ⟨offset + (encodeBlob content).length, rest⟩) := by
  have padded : (padding content.length).length = gap content.length := by
    rw [padding, List.length_replicate, gap]
    omega
  have behind : gap (offset + 4 + content.length) = gap content.length :=
    gap_add_of_aligned (by omega) _
  have skipped : skipGap ⟨offset + 4 + content.length, padding content.length ++ rest⟩ = _ :=
    skipGap_append (padded.trans behind.symm)
  have long : (encodeBlob content).length = 4 + content.length + gap content.length := by
    rw [encodeBlob, List.length_append, List.length_append, length_bigEndian, padded]
  rw [long, encodeBlob, blob, List.append_assoc, List.append_assoc, number_bigEndian (by omega)]
  simp only [ok_bind, pure_eq_ok, take_append rfl, skipped, behind]
  simp only [Nat.add_assoc]

theorem timeTag_encodeTimeTag (t : TimeTag) :
    timeTag ⟨offset, encodeTimeTag t ++ rest⟩ = .ok (t, ⟨offset + 8, rest⟩) := by
  have seconds : t.seconds.toNat < 256 ^ 4 := t.seconds.toNat_lt
  have fraction : t.fraction.toNat < 256 ^ 4 := t.fraction.toNat_lt
  rw [timeTag, encodeTimeTag, List.append_assoc, number_bigEndian seconds]
  simp only [ok_bind, pure_eq_ok, number_bigEndian fraction, UInt32.ofNat_toNat, Nat.add_assoc]

theorem quad_append (w x y z : UInt8) :
    quad ⟨offset, [w, x, y, z] ++ rest⟩ = .ok ((w, x, y, z), ⟨offset + 4, rest⟩) := by
  have taken : take ⟨offset, [w, x, y, z] ++ rest⟩ 4 = _ := take_append rfl
  rw [quad, taken]
  rfl

/-- **An argument without brackets is read back** by its type character. -/
theorem argument_data {a : Argument} (plain : ∀ items, a ≠ .array items) (legible : a.Legible)
    (aligned : offset % 4 = 0) :
    ∃ tag, a.tagChars = [tag] ∧ tag ≠ '[' ∧ tag ≠ ']' ∧
      argument ⟨offset, a.data ++ rest⟩ tag = .ok (a, ⟨offset + a.data.length, rest⟩) := by
  cases a with
  | int i =>
    have fits : i.toUInt32.toNat < 256 ^ 4 := i.toUInt32.toNat_lt
    refine ⟨'i', rfl, by decide, by decide, ?_⟩
    simp only [argument, Argument.data, number_bigEndian fits, ok_bind, pure_eq_ok,
      UInt32.ofNat_toNat, Int32.toInt32_toUInt32, length_bigEndian]
  | long i =>
    have fits : i.toUInt64.toNat < 256 ^ 8 := i.toUInt64.toNat_lt
    refine ⟨'h', rfl, by decide, by decide, ?_⟩
    simp only [argument, Argument.data, number_bigEndian fits, ok_bind, pure_eq_ok,
      UInt64.ofNat_toNat, Int64.toInt64_toUInt64, length_bigEndian]
  | float x =>
    have fits : x.toBits < 256 ^ 4 := x.toBits_lt (by decide)
    refine ⟨'f', rfl, by decide, by decide, ?_⟩
    simp only [argument, Argument.data, number_bigEndian fits, ok_bind, pure_eq_ok,
      x.ofBits_toBits (by decide), length_bigEndian]
  | double x =>
    have fits : x.toBits < 256 ^ 8 := x.toBits_lt (by decide)
    refine ⟨'d', rfl, by decide, by decide, ?_⟩
    simp only [argument, Argument.data, number_bigEndian fits, ok_bind, pure_eq_ok,
      x.ofBits_toBits (by decide), length_bigEndian]
  | string s =>
    refine ⟨'s', rfl, by decide, by decide, ?_⟩
    simp only [argument, Argument.data, text_encodeText legible aligned]
    rfl
  | blob content =>
    refine ⟨'b', rfl, by decide, by decide, ?_⟩
    simp only [argument, Argument.data, blob_encodeBlob legible.1 legible.2 aligned]
    rfl
  | time t =>
    refine ⟨'t', rfl, by decide, by decide, ?_⟩
    simp only [argument, Argument.data, timeTag_encodeTimeTag]
    rfl
  | char c =>
    have valid : c.toNat.isValidChar := c.valid
    have fits : c.toNat < 256 ^ 4 := by omega
    refine ⟨'c', rfl, by decide, by decide, ?_⟩
    have back : scalar? c.toNat = some c := by simp [scalar?, valid]
    simp only [argument, Argument.data, number_bigEndian fits, ok_bind, pure_eq_ok, back,
      length_bigEndian]
  | color c =>
    refine ⟨'r', rfl, by decide, by decide, ?_⟩
    simp only [argument, Argument.data, quad_append]
    rfl
  | midi m =>
    refine ⟨'m', rfl, by decide, by decide, ?_⟩
    simp only [argument, Argument.data, Midi.toBytes, quad_append]
    rfl
  | bool b =>
    cases b
    · exact ⟨'F', rfl, by decide, by decide, rfl⟩
    · exact ⟨'T', rfl, by decide, by decide, rfl⟩
  | nil => exact ⟨'N', rfl, by decide, by decide, rfl⟩
  | infinitum => exact ⟨'I', rfl, by decide, by decide, rfl⟩
  | array items => exact absurd rfl (plain items)

end Cursor

/-! ## Arguments -/

theorem readArguments_plain {offset : Nat} {rest : List UInt8} {found : List Argument}
    {outer : List (List Argument)} {tags : List Char} {a : Argument}
    (plain : ∀ items, a ≠ .array items) (legible : a.Legible) (aligned : offset % 4 = 0) :
    readArguments ⟨offset, a.data ++ rest⟩ found outer (a.tagChars ++ tags) =
      readArguments ⟨offset + a.data.length, rest⟩ (a :: found) outer tags := by
  obtain ⟨tag, single, opens, closes, read⟩ := Cursor.argument_data plain legible aligned
  rw [single, List.singleton_append, readArguments, read]
  · rfl
  · exact opens
  · exact closes

mutual

/-- **An argument is read back,** whatever follows it, and put in front of those found before. -/
theorem readArguments_data {offset : Nat} {rest : List UInt8} (a : Argument)
    (legible : ∀ leaf ∈ a.leaves, leaf.Legible) (aligned : offset % 4 = 0)
    (found : List Argument) (outer : List (List Argument)) (tags : List Char) :
    readArguments ⟨offset, a.data ++ rest⟩ found outer (a.tagChars ++ tags) =
      readArguments ⟨offset + a.data.length, rest⟩ (a :: found) outer tags := by
  match a with
  | .array items =>
    rw [Argument.tagChars, List.append_assoc, List.append_assoc, List.singleton_append,
      readArguments, Argument.data]
    refine (readArguments_dataEach items legible aligned [] (found :: outer) (']' :: tags)).trans ?_
    rw [List.append_nil, readArguments, List.reverse_reverse]
  | .int _ | .long _ | .float _ | .double _ | .string _ | .blob _ | .time _ | .char _ | .color _
  | .midi _ | .bool _ | .nil | .infinitum =>
    exact readArguments_plain nofun (legible _ (by simp [Argument.leaves])) aligned

/-- **Arguments are read back,** whatever follows them. -/
theorem readArguments_dataEach {offset : Nat} {rest : List UInt8} (as : List Argument)
    (legible : ∀ leaf ∈ Argument.leavesEach as, leaf.Legible) (aligned : offset % 4 = 0)
    (found : List Argument) (outer : List (List Argument)) (tags : List Char) :
    readArguments ⟨offset, Argument.dataEach as ++ rest⟩ found outer
        (Argument.tagCharsEach as ++ tags) =
      readArguments ⟨offset + (Argument.dataEach as).length, rest⟩ (as.reverse ++ found) outer
        tags := by
  match as with
  | [] => rfl
  | a :: as =>
    have own := a.length_data_mod
    rw [Argument.dataEach, Argument.tagCharsEach, List.append_assoc, List.append_assoc,
      readArguments_data a (fun leaf listed => legible leaf (List.mem_append_left _ listed)) aligned,
      readArguments_dataEach as (fun leaf listed => legible leaf (List.mem_append_right _ listed))
        (by omega),
      List.length_append, Nat.add_assoc, List.reverse_cons, List.append_assoc,
      List.singleton_append]

end

/-! ## Messages -/

mutual

/-- Type characters are not the zero character. -/
theorem zero_not_mem_tagChars : (a : Argument) → '\x00' ∉ a.tagChars
  | .array items => by simp [Argument.tagChars, zero_not_mem_tagCharsEach items]
  | .bool b => by cases b <;> decide
  | .int _ | .long _ | .float _ | .double _ | .string _ | .blob _ | .time _ | .char _ | .color _
  | .midi _ | .nil | .infinitum => by simp [Argument.tagChars]

theorem zero_not_mem_tagCharsEach : (as : List Argument) → '\x00' ∉ Argument.tagCharsEach as
  | [] => by simp [Argument.tagCharsEach]
  | a :: as => by
    simp [Argument.tagCharsEach, zero_not_mem_tagChars a, zero_not_mem_tagCharsEach as]

end

/-- What follows the address of a message is read back as its arguments. -/
theorem readMessage_encode {offset : Nat} (address : String) {as : List Argument}
    (legible : ∀ leaf ∈ Argument.leavesEach as, leaf.Legible) (aligned : offset % 4 = 0) :
    readMessage address ⟨offset, encodeText (String.ofList (',' :: Argument.tagCharsEach as)) ++
      Argument.dataEach as⟩ = .ok (.message ⟨address, as⟩) := by
  have tagged : '\x00' ∉ (String.ofList (',' :: Argument.tagCharsEach as)).toList := by
    simp [zero_not_mem_tagCharsEach]
  have types := length_encodeText_mod (String.ofList (',' :: Argument.tagCharsEach as))
  have arguments := @readArguments_dataEach
    (offset + (encodeText (String.ofList (',' :: Argument.tagCharsEach as))).length) [] as legible
    (by omega) [] [] []
  rw [List.append_nil, List.append_nil, List.append_nil, readArguments,
    List.reverse_reverse] at arguments
  rw [readMessage, Cursor.text_encodeText tagged aligned]
  simp only [ok_bind, pure_eq_ok, String.toList_ofList, List.tail_cons, arguments]

/-- **A message is read back** if its address is one and its texts and blobs are legible. -/
theorem readPacket_encode {offset : Nat} {m : MessagePacket}
    (slash : m.address.toList.head? = some '/') (whole : '\x00' ∉ m.address.toList)
    (legible : ∀ leaf ∈ Argument.leavesEach m.arguments, leaf.Legible) (aligned : offset % 4 = 0)
    (fuel : Nat) : readPacket (fuel + 1) ⟨offset, m.encode⟩ = .ok (.message m) := by
  have address := length_encodeText_mod m.address
  have nonempty : m.encode.isEmpty = false := by
    rw [List.isEmpty_eq_false_iff, ← List.length_pos_iff, MessagePacket.encode, List.length_append,
      List.length_append, length_encodeText, gap]
    omega
  rw [readPacket, nonempty, MessagePacket.encode, List.append_assoc,
    Cursor.text_encodeText whole aligned]
  simp only [ok_bind, slash, Bool.false_eq_true, if_false, if_true]
  exact readMessage_encode m.address legible (by omega)

/-- **A message is read back from its bytes.** -/
theorem decode_encode_message {m : MessagePacket} (slash : m.address.toList.head? = some '/')
    (whole : '\x00' ∉ m.address.toList)
    (legible : ∀ leaf ∈ Argument.leavesEach m.arguments, leaf.Legible) :
    decode (Packet.message m).encode = .ok (.message m) := by
  obtain ⟨fuel, long⟩ : ∃ fuel, m.encode.length = fuel + 1 := by
    refine ⟨m.encode.length - 1, ?_⟩
    rw [MessagePacket.encode, List.length_append, List.length_append, length_encodeText, gap]
    omega
  rw [Packet.encode, decode, long]
  exact readPacket_encode slash whole legible rfl fuel

end SoundControl.Wire
