import SoundControl.Proofs.Outcome
import SoundControl.Text.Utf8

/-! # Texts survive UTF-8

* **`decodeUtf8_encodeUtf8`** — the bytes of a text are read back as that text.
* **`zero_mem_encodeUtf8`** — a zero byte stands only for the zero character.
* **`encodeUtf8_of_decodeUtf8`** — no other bytes are read as that text. -/

namespace SoundControl.Text

/-! ## The bytes behind a leading byte -/

/-- The range of the first byte behind a leading one. -/
def secondRange (lead : UInt8) : UInt8 × UInt8 :=
  if lead = 0xe0 then (0xa0, 0xbf)
  else if lead = 0xed then (0x80, 0x9f)
  else if lead = 0xf0 then (0x90, 0xbf)
  else if lead = 0xf4 then (0x80, 0x8f)
  else (0x80, 0xbf)

theorem continuationRanges_one : ∀ n < 0x80, continuationRanges (UInt8.ofNat n) = some [] := by
  decide

theorem continuationRanges_two : ∀ n < 32, 2 ≤ n →
    continuationRanges (UInt8.ofNat (n + 0xc0)) = some [(0x80, 0xbf)] := by
  decide

theorem continuationRanges_three : ∀ n < 16, continuationRanges (UInt8.ofNat (n + 0xe0)) =
    some [secondRange (UInt8.ofNat (n + 0xe0)), (0x80, 0xbf)] := by
  decide

theorem continuationRanges_four : ∀ n < 5, continuationRanges (UInt8.ofNat (n + 0xf0)) =
    some [secondRange (UInt8.ofNat (n + 0xf0)), (0x80, 0xbf), (0x80, 0xbf)] := by
  decide

/-- A byte that lies in a range. -/
def Within (range : UInt8 × UInt8) (b : UInt8) : Prop := range.1 ≤ b ∧ b ≤ range.2

instance (range : UInt8 × UInt8) (b : UInt8) : Decidable (Within range b) :=
  inferInstanceAs (Decidable (_ ∧ _))

theorem within_tail : ∀ n < 64, Within (0x80, 0xbf) (UInt8.ofNat (n + 0x80)) := by
  decide

/-- Neither overlong nor a surrogate. -/
theorem within_secondRange_three : ∀ n < 16, ∀ m < 64, (n = 0 → 32 ≤ m) → (n = 13 → m < 32) →
    Within (secondRange (UInt8.ofNat (n + 0xe0))) (UInt8.ofNat (m + 0x80)) := by
  decide +kernel

/-- Neither overlong nor too large. -/
theorem within_secondRange_four : ∀ n < 5, ∀ m < 64, (n = 0 → 16 ≤ m) → (n = 4 → m < 16) →
    Within (secondRange (UInt8.ofNat (n + 0xf0))) (UInt8.ofNat (m + 0x80)) := by
  decide +kernel

/-- A byte in its range is taken. -/
theorem takeContinuation_cons {taken code : Nat} {range : UInt8 × UInt8}
    {ranges : List (UInt8 × UInt8)} {b : UInt8} {bytes : List UInt8} (within : Within range b) :
    takeContinuation taken code (range :: ranges) (b :: bytes) =
      takeContinuation (taken + 1) (code * 64 + b.toNat % 64) ranges bytes := by
  rw [takeContinuation, if_pos (by simpa [Within] using within)]

/-! ## One character -/

/-- A leading byte, with what it announces, is read as a character. -/
theorem decodeFrom_lead {c : Char} {position code : Nat} {lead : UInt8} {bytes rest : List UInt8}
    {ranges : List (UInt8 × UInt8)} (announced : continuationRanges lead = some ranges)
    (taken : takeContinuation 1 (leadBits lead ranges.length) ranges bytes = .ok (code, rest))
    (same : code = c.toNat) :
    ∃ position', decodeFrom position (lead :: bytes) = (decodeFrom position' rest).map (c :: ·) := by
  have back : Char.ofNat code = c := same ▸ c.ofNat_toNat
  refine ⟨position + 1 + ranges.length, ?_⟩
  rw [decodeFrom]
  split
  next unknown => simp [unknown] at announced
  next ranges' looked =>
    obtain rfl : ranges' = ranges := Option.some.inj (looked.symm.trans announced)
    split
    next length faulty => simp [faulty] at taken
    next code' rest' read =>
      rw [read] at taken
      cases taken
      rw [back]

/-- **The bytes of a character are read as that character.** -/
theorem decodeFrom_utf8EncodeChar (c : Char) (position : Nat) (bytes : List UInt8) :
    ∃ next, decodeFrom position (String.utf8EncodeChar c ++ bytes) =
      (decodeFrom next bytes).map (c :: ·) := by
  have valid : c.toNat.isValidChar := c.valid
  unfold String.utf8EncodeChar
  simp only [Char.toNat_val]
  split
  next one =>
    refine decodeFrom_lead (continuationRanges_one _ (by omega)) rfl ?_
    simp [leadBits]
    omega
  next more =>
    split
    next two =>
      refine decodeFrom_lead (continuationRanges_two _ (by omega) (by omega))
        (takeContinuation_cons (within_tail _ (by omega))) ?_
      simp [leadBits]
      omega
    next more =>
      split
      next three =>
        have second := within_secondRange_three (c.toNat / 4096 % 16) (by omega)
          (c.toNat / 64 % 64) (by omega) (by omega) (by omega)
        refine decodeFrom_lead (continuationRanges_three _ (by omega))
          ((takeContinuation_cons second).trans
            (takeContinuation_cons (within_tail _ (by omega)))) ?_
        simp [leadBits]
        omega
      next four =>
        have second := within_secondRange_four (c.toNat / 262144 % 8) (by omega)
          (c.toNat / 4096 % 64) (by omega) (by omega) (by omega)
        refine decodeFrom_lead (continuationRanges_four _ (by omega))
          (((takeContinuation_cons second).trans
            (takeContinuation_cons (within_tail _ (by omega)))).trans
            (takeContinuation_cons (within_tail _ (by omega)))) ?_
        simp [leadBits]
        omega

/-! ## Texts -/

theorem decodeFrom_flatMap (cs : List Char) (position : Nat) :
    decodeFrom position (cs.flatMap String.utf8EncodeChar) = .ok cs := by
  induction cs generalizing position with
  | nil => rw [List.flatMap_nil, decodeFrom]
  | cons c cs ih =>
    obtain ⟨position', read⟩ := decodeFrom_utf8EncodeChar c position (cs.flatMap String.utf8EncodeChar)
    rw [List.flatMap_cons, read, ih position']
    rfl

/-- **The bytes of a text are read back as that text.** -/
theorem decodeUtf8_encodeUtf8 (s : String) : decodeUtf8 (encodeUtf8 s) = .ok s := by
  rw [decodeUtf8, encodeUtf8, decodeFrom_flatMap]
  exact congrArg Except.ok String.ofList_toList

/-- Only the zero character has a zero byte. -/
theorem zero_mem_utf8EncodeChar (c : Char) : 0 ∈ String.utf8EncodeChar c ↔ c.toNat = 0 := by
  have small : ∀ n < 0x80, (0 : UInt8) = UInt8.ofNat n ↔ n = 0 := by decide
  have byte (n : Nat) (low : 0 < n) (high : n < 256) : (0 : UInt8) ≠ UInt8.ofNat n := by
    intro same
    have := congrArg UInt8.toNat same
    simp at this
    omega
  have valid : c.toNat.isValidChar := c.valid
  unfold String.utf8EncodeChar
  simp only [Char.toNat_val]
  split
  next one =>
    rw [List.mem_singleton]
    exact small _ (by omega)
  next more =>
    refine iff_of_false ?_ (by omega)
    split
    next => simp (disch := omega) only [List.mem_cons, byte, List.not_mem_nil, or_self,
        not_false_eq_true]
    next =>
      split <;> simp (disch := omega) only [List.mem_cons, byte, List.not_mem_nil, or_self,
        not_false_eq_true]

/-- **A zero byte stands only for the zero character.** -/
theorem zero_mem_encodeUtf8 (s : String) : 0 ∈ encodeUtf8 s ↔ '\x00' ∈ s.toList := by
  rw [encodeUtf8, List.mem_flatMap]
  constructor
  · rintro ⟨c, listed, zero⟩
    have : c = '\x00' := Char.toNat_inj.1 ((zero_mem_utf8EncodeChar c).1 zero)
    exact this ▸ listed
  · exact fun listed => ⟨_, listed, (zero_mem_utf8EncodeChar _).2 rfl⟩

/-! ## Only the bytes of a text are read

A text has one spelling, because the ranges behind a leading byte leave out overlong forms. -/

/-- What a byte announces when it stands in front. -/
theorem continuationRanges_ofNat : ∀ n < 0x100, continuationRanges (UInt8.ofNat n) =
    if n < 0x80 then some []
    else if n < 0xc2 then none
    else if n < 0xe0 then some [(0x80, 0xbf)]
    else if n < 0xf0 then some [secondRange (UInt8.ofNat n), (0x80, 0xbf)]
    else if n < 0xf5 then some [secondRange (UInt8.ofNat n), (0x80, 0xbf), (0x80, 0xbf)]
    else none := by
  decide +kernel

/-- **The four forms of a character,** told by the leading byte. -/
theorem form_of_continuationRanges {lead : UInt8} {ranges : List (UInt8 × UInt8)}
    (announced : continuationRanges lead = some ranges) :
    (lead.toNat < 0x80 ∧ ranges = []) ∨
    (0xc2 ≤ lead.toNat ∧ lead.toNat < 0xe0 ∧ ranges = [(0x80, 0xbf)]) ∨
    (0xe0 ≤ lead.toNat ∧ lead.toNat < 0xf0 ∧ ranges = [secondRange lead, (0x80, 0xbf)]) ∨
    (0xf0 ≤ lead.toNat ∧ lead.toNat < 0xf5 ∧
      ranges = [secondRange lead, (0x80, 0xbf), (0x80, 0xbf)]) := by
  have form := continuationRanges_ofNat lead.toNat lead.toNat_lt
  rw [UInt8.ofNat_toNat, announced] at form
  split_ifs at form <;> grind

/-- A byte of a range as a number. -/
theorem within_iff {low high b : UInt8} :
    Within (low, high) b ↔ low.toNat ≤ b.toNat ∧ b.toNat ≤ high.toNat := by
  rw [Within, UInt8.le_iff_toNat_le, UInt8.le_iff_toNat_le]

theorem toNat_of_within_tail {b : UInt8} (within : Within (0x80, 0xbf) b) :
    0x80 ≤ b.toNat ∧ b.toNat ≤ 0xbf :=
  within_iff.1 within

/-- Neither overlong, nor a surrogate, nor too large. -/
theorem toNat_of_within_secondRange {lead b : UInt8} (within : Within (secondRange lead) b) :
    0x80 ≤ b.toNat ∧ b.toNat ≤ 0xbf ∧ (lead.toNat = 0xe0 → 0xa0 ≤ b.toNat) ∧
      (lead.toNat = 0xed → b.toNat ≤ 0x9f) ∧ (lead.toNat = 0xf0 → 0x90 ≤ b.toNat) ∧
      (lead.toNat = 0xf4 → b.toNat ≤ 0x8f) := by
  unfold secondRange at within
  simp only [← UInt8.toNat_inj] at within
  split_ifs at within <;> simp [within_iff] at within <;> simp_all <;> omega

/-- What is taken for a range is a byte that lies in it, and what is taken then. -/
theorem exists_of_takeContinuation {taken code code' : Nat} {range : UInt8 × UInt8}
    {ranges : List (UInt8 × UInt8)} {bytes rest : List UInt8}
    (read : takeContinuation taken code (range :: ranges) bytes = .ok (code', rest)) :
    ∃ b bytes', bytes = b :: bytes' ∧ Within range b ∧
      takeContinuation (taken + 1) (code * 64 + b.toNat % 64) ranges bytes' =
        .ok (code', rest) := by
  cases bytes with
  | nil => simp [takeContinuation] at read
  | cons b bytes =>
    by_cases within : Within range b
    · exact ⟨b, bytes, rfl, within, takeContinuation_cons within ▸ read⟩
    · rw [takeContinuation, if_neg (by simpa [Within] using within)] at read
      simp at read

/-- The bytes of the character with a code point. -/
theorem utf8EncodeChar_ofNat {code : Nat} (valid : code.isValidChar) :
    String.utf8EncodeChar (Char.ofNat code) =
      if code ≤ 0x7f then [UInt8.ofNat code]
      else if code ≤ 0x7ff then
        [UInt8.ofNat (code / 64 % 32 + 0xc0), UInt8.ofNat (code % 64 + 0x80)]
      else if code ≤ 0xffff then
        [UInt8.ofNat (code / 4096 % 16 + 0xe0), UInt8.ofNat (code / 64 % 64 + 0x80),
          UInt8.ofNat (code % 64 + 0x80)]
      else
        [UInt8.ofNat (code / 262144 % 8 + 0xf0), UInt8.ofNat (code / 4096 % 64 + 0x80),
          UInt8.ofNat (code / 64 % 64 + 0x80), UInt8.ofNat (code % 64 + 0x80)] := by
  have value : (Char.ofNat code).val.toNat = code := by
    rw [Char.ofNat, dif_pos valid]
    rfl
  rw [String.utf8EncodeChar, value]

/-- **What is read as a character** is the bytes of that character. -/
theorem utf8EncodeChar_of_lead {lead : UInt8} {ranges : List (UInt8 × UInt8)}
    {bytes rest : List UInt8} {code : Nat} (announced : continuationRanges lead = some ranges)
    (taken : takeContinuation 1 (leadBits lead ranges.length) ranges bytes = .ok (code, rest)) :
    String.utf8EncodeChar (Char.ofNat code) ++ rest = lead :: bytes := by
  rcases form_of_continuationRanges announced with ⟨low, rfl⟩ | ⟨low, high, rfl⟩ |
    ⟨low, high, rfl⟩ | ⟨low, high, rfl⟩
  · cases taken
    rw [utf8EncodeChar_ofNat (by simp [leadBits]; omega), if_pos (by simp [leadBits]; omega)]
    simp [leadBits]
  · obtain ⟨b, bytes, rfl, within, taken⟩ := exists_of_takeContinuation taken
    cases taken
    have tail := toNat_of_within_tail within
    have bits : leadBits lead 1 = lead.toNat % 32 := rfl
    rw [List.length_singleton, bits, utf8EncodeChar_ofNat (by omega), if_neg (by omega),
      if_pos (by omega)]
    simp [← UInt8.toNat_inj]
    omega
  · obtain ⟨b, bytes, rfl, within, taken⟩ := exists_of_takeContinuation taken
    obtain ⟨c, bytes, rfl, second, taken⟩ := exists_of_takeContinuation taken
    cases taken
    have limits := toNat_of_within_secondRange within
    have tail := toNat_of_within_tail second
    have bits : leadBits lead [secondRange lead, (0x80, 0xbf)].length = lead.toNat % 16 := rfl
    rw [bits, utf8EncodeChar_ofNat (by omega), if_neg (by omega), if_neg (by omega),
      if_pos (by omega)]
    simp [← UInt8.toNat_inj]
    omega
  · obtain ⟨b, bytes, rfl, within, taken⟩ := exists_of_takeContinuation taken
    obtain ⟨c, bytes, rfl, second, taken⟩ := exists_of_takeContinuation taken
    obtain ⟨d, bytes, rfl, third, taken⟩ := exists_of_takeContinuation taken
    cases taken
    have limits := toNat_of_within_secondRange within
    have tail := toNat_of_within_tail second
    have tail' := toNat_of_within_tail third
    have bits : leadBits lead [secondRange lead, (0x80, 0xbf), (0x80, 0xbf)].length =
        lead.toNat % 8 := rfl
    rw [bits, utf8EncodeChar_ofNat (by omega), if_neg (by omega), if_neg (by omega),
      if_neg (by omega)]
    simp [← UInt8.toNat_inj]
    omega

theorem flatMap_of_decodeFrom {position : Nat} {bytes : List UInt8} {cs : List Char}
    (read : decodeFrom position bytes = .ok cs) : cs.flatMap String.utf8EncodeChar = bytes := by
  induction position, bytes using decodeFrom.induct generalizing cs with
  | case1 position =>
    rw [decodeFrom] at read
    cases read
    rfl
  | case2 position lead bytes unknown =>
    rw [decodeFrom] at read
    split at read <;> simp_all
  | case3 position lead bytes ranges announced length faulty =>
    rw [decodeFrom] at read
    split at read
    · simp at read
    · split at read <;> simp_all
  | case4 position lead bytes ranges announced code rest taken ih =>
    rw [decodeFrom] at read
    split at read
    next unknown => simp [unknown] at announced
    next ranges' announced' =>
      obtain rfl : ranges' = ranges := Option.some.inj (announced'.symm.trans announced)
      split at read
      next length faulty => simp [faulty] at taken
      next code' rest' taken' =>
        rw [taken] at taken'
        cases taken'
        obtain ⟨others, later, rfl⟩ := map_eq_ok_iff.1 read
        rw [List.flatMap_cons, ih later, utf8EncodeChar_of_lead announced taken]

/-- **Bytes that are read as a text are the bytes of that text.** -/
theorem encodeUtf8_of_decodeUtf8 {bytes : List UInt8} {s : String}
    (read : decodeUtf8 bytes = .ok s) : encodeUtf8 s = bytes := by
  obtain ⟨cs, found, rfl⟩ := map_eq_ok_iff.1 read
  rw [encodeUtf8, String.toList_ofList, flatMap_of_decodeFrom found]

end SoundControl.Text
