import SoundControl.Proofs.TypeSpec.Category

/-! # An integer and its text are packed alike

Integers are written digit by digit from the top and read digit by digit towards the sign, so that the
lowest wide integer is read although its magnitude is none.  What is written is read again if it is
wide, and out of range if it is not; the range of the type comes after that.

* **`Text.readDigits_eq`** — digits are read as their number, if it is wide.
* **`Text.readInteger_toString`** — the text of an integer, with blanks around it, is read as it.
* **`Tag.Integral`** — the types of integers.
* **`Tag.text_packed_as_integer`** — the text is packed as the integer, or both are out of range. -/

namespace SoundControl

open Number Text Wire

namespace Text

/-! ## Digits -/

/-- The integer of a magnitude, away from zero in the direction of the sign. -/
def towards (negative : Bool) (n : Nat) : Int := if negative then -n else n

theorem holds_iff {i : Int} : Wide.holds i ↔ Wide.least ≤ i ∧ i ≤ Wide.greatest := by
  rw [Wide.holds, Bool.and_eq_true, decide_eq_true_eq, decide_eq_true_eq]

/-- What is wide has nothing of smaller magnitude that is not. -/
theorem holds_towards_of_le {negative : Bool} {m n : Nat} (le : m ≤ n)
    (wide : Wide.holds (towards negative n)) : Wide.holds (towards negative m) := by
  have low : Wide.least ≤ 0 := by decide
  have high : 0 ≤ Wide.greatest := by decide
  rw [holds_iff] at wide ⊢
  cases negative <;> simp only [towards, Bool.false_eq_true, if_true, if_false] at wide ⊢ <;> omega

theorem isDigit_of_mem_toDigits {n : Nat} {c : Char} (listed : c ∈ Nat.toDigits 10 n) : c.isDigit :=
  Nat.isDigit_of_mem_toDigits (by decide) (by decide) listed

theorem digitValue?_of_isDigit {c : Char} (digit : c.isDigit) :
    digitValue? c = some (c.toNat - '0'.toNat) := by
  rw [digitValue?, if_pos]
  simpa [Char.isDigit, Char.le_def] using digit

/-- More digits make no number smaller. -/
theorem le_ofDigitChars (cs : List Char) (n : Nat) : n ≤ Nat.ofDigitChars 10 cs n := by
  induction cs generalizing n with
  | nil => simp
  | cons c cs ih =>
    rw [Nat.ofDigitChars_cons]
    exact Nat.le_trans (by omega) (ih _)

/-- **Digits are read as their number,** behind a number that is wide: if any number on the way is not
wide, then neither is the last. -/
theorem readDigits_eq (negative : Bool) {cs : List Char} (digits : ∀ c ∈ cs, c.isDigit) {n : Nat}
    (wide : Wide.holds (towards negative n)) :
    readDigits negative (towards negative n) cs =
      if Wide.holds (towards negative (Nat.ofDigitChars 10 cs n)) then
        .ok (towards negative (Nat.ofDigitChars 10 cs n))
      else .error .outOfRange := by
  induction cs generalizing n with
  | nil => simp [readDigits, wide]
  | cons c cs ih =>
    obtain ⟨digit, others⟩ := List.forall_mem_cons.1 digits
    have step : (if negative then towards negative n * 10 - (c.toNat - '0'.toNat : Nat)
        else towards negative n * 10 + (c.toNat - '0'.toNat : Nat)) =
        towards negative (10 * n + (c.toNat - '0'.toNat)) := by
      cases negative <;> simp only [towards, Bool.false_eq_true, if_true, if_false] <;> omega
    simp only [readDigits, digitValue?_of_isDigit digit, step, Nat.ofDigitChars_cons]
    -- What is refused on the way is refused at the end too, since it only grows.
    split
    next within => exact ih others within
    next beyond =>
      rw [if_neg]
      exact fun last => beyond (holds_towards_of_le (le_ofDigitChars cs _) last)

/-- The digits of a number are read as it. -/
theorem readDigits_toDigits (negative : Bool) (n : Nat) :
    readDigits negative 0 (Nat.toDigits 10 n) =
      if Wide.holds (towards negative n) then .ok (towards negative n) else .error .outOfRange := by
  have zero : towards negative 0 = 0 := by cases negative <;> rfl
  have read := readDigits_eq negative (fun _ => isDigit_of_mem_toDigits (n := n)) (n := 0)
    (by rw [zero]; rfl)
  rwa [zero, Nat.ofDigitChars_ten_toDigits] at read

/-! ## Signs and blanks -/

theorem toList_toString (i : Int) : (toString i).toList =
    if 0 ≤ i then Nat.toDigits 10 i.toNat else '-' :: Nat.toDigits 10 (-i).toNat := by
  rw [Int.toString_eq_repr, Int.repr_eq_if]
  split <;> simp

/-- **An integer is read from what it is written as,** if it is wide. -/
theorem readSigned_toString (i : Int) : readSigned (toString i).toList =
    if Wide.holds i then .ok i else .error .outOfRange := by
  rw [toList_toString]
  split
  next positive =>
    have same : towards false i.toNat = i := Int.toNat_of_nonneg positive
    obtain ⟨c, cs, written⟩ := List.exists_cons_of_ne_nil (Nat.toDigits_ne_nil (n := i.toNat) (b := 10))
    have digit : c.isDigit := isDigit_of_mem_toDigits (written ▸ List.mem_cons_self)
    -- The first digit is no sign, so all of the text is digits.
    have unsigned : ¬(c = '-' ∨ c = '+') := by
      rintro (rfl | rfl) <;> exact absurd digit (by decide)
    rw [written, readSigned, if_neg (by simpa using unsigned), ← written, readDigits_toDigits, same]
  next negative =>
    have same : towards true (-i).toNat = i := by
      rw [towards, if_pos rfl]
      omega
    have nonempty : (Nat.toDigits 10 (-i).toNat).isEmpty = false := by simp
    simp only [readSigned, decide_true, Bool.true_or, if_true, nonempty, Bool.false_eq_true, if_false]
    rw [readDigits_toDigits, same]

theorem isBlank_eq_false {c : Char} (above : 0x20 < c.toNat) (below : c.toNat < 0x85) :
    isBlank c = false := by
  have apart : ∀ range ∈ blankRanges, range.2 ≤ 0x20 ∨ 0x85 ≤ range.1 := by decide
  rw [isBlank, List.any_eq_false]
  intro range listed
  have := apart range listed
  simp only [Bool.and_eq_true, decide_eq_true_eq, not_and]
  omega

/-- No integer is written with a blank. -/
theorem isBlank_of_mem_toString {i : Int} {c : Char} (listed : c ∈ (toString i).toList) :
    isBlank c = false := by
  have digit {n : Nat} (listed : c ∈ Nat.toDigits 10 n) : isBlank c = false := by
    have range : c.isDigit := isDigit_of_mem_toDigits listed
    simp only [Char.isDigit, Bool.and_eq_true, decide_eq_true_eq, ge_iff_le,
      UInt32.le_iff_toNat_le] at range
    exact isBlank_eq_false (Nat.lt_of_lt_of_le (by decide) range.1)
      (Nat.lt_of_le_of_lt range.2 (by decide))
  rw [toList_toString] at listed
  split at listed
  next => exact digit listed
  next =>
    rcases List.mem_cons.1 listed with rfl | listed
    · rfl
    · exact digit listed

theorem trimStart_append {front : List Char} (blank : ∀ c ∈ front, isBlank c) (cs : List Char) :
    trimStart (front ++ cs) = trimStart cs :=
  List.dropWhile_append_of_pos blank

theorem trimStart_eq_self {cs : List Char} (written : ∀ c ∈ cs, isBlank c = false) (back : List Char)
    (nonempty : cs ≠ []) : trimStart (cs ++ back) = cs ++ back := by
  obtain ⟨c, cs, rfl⟩ := List.exists_cons_of_ne_nil nonempty
  simp [trimStart, written c List.mem_cons_self]

/-- **Blanks on both sides are cut off,** if there is a text without any between them. -/
theorem trim_append {front cs back : List Char} (blank : ∀ c ∈ front, isBlank c)
    (blank' : ∀ c ∈ back, isBlank c) (written : ∀ c ∈ cs, isBlank c = false) (nonempty : cs ≠ []) :
    trim (front ++ (cs ++ back)) = cs := by
  have reversed : ∀ c ∈ cs.reverse, isBlank c = false := fun c listed =>
    written c (List.mem_reverse.1 listed)
  have kept := trimStart_eq_self reversed [] (by simpa using nonempty)
  rw [trim, trimStart_append blank, trimStart_eq_self written back nonempty, List.reverse_append,
    trimStart_append fun c listed => blank' c (List.mem_reverse.1 listed)]
  rw [List.append_nil] at kept
  rw [kept, List.reverse_reverse]

/-- **The text of an integer is read as it,** with blanks around it, if the integer is wide. -/
theorem readInteger_toString (i : Int) {front back : String} (blank : ∀ c ∈ front.toList, isBlank c)
    (blank' : ∀ c ∈ back.toList, isBlank c) : readInteger (front ++ toString i ++ back) =
      if Wide.holds i then .ok i else .error .outOfRange := by
  have nonempty : (toString i).toList ≠ [] := by
    rw [toList_toString]
    split <;> simp
  rw [readInteger, String.toList_append, String.toList_append, List.append_assoc,
    trim_append blank blank' (fun _ => isBlank_of_mem_toString) nonempty, readSigned_toString]

end Text

namespace Tag

/-! ## Packing -/

/-- **The types of integers,** each with the least magnitude that no positive integer of the type has. -/
inductive Integral : Tag → Int → Prop where
  /-- 31 bits and a sign. -/
  | int32 : Integral .int32 0x80000000
  /-- 63 bits and a sign. -/
  | int64 : Integral .int64 0x8000000000000000

/-- Up to the greatest integer is below the first that is too large. -/
theorem ite_le_pred {α : Type} (limit i : Int) (inside other : α) :
    (if -limit ≤ i && i ≤ limit - 1 then inside else other) =
      if -limit ≤ i ∧ i < limit then inside else other := by
  simp only [Bool.and_eq_true, decide_eq_true_eq, Int.le_sub_one_iff]

/-- A type of integers packs the integer that a value stands for, if it has that few bits. -/
theorem Integral.exists_pack_eq {tag : Tag} {limit : Int} (integral : tag.Integral limit) :
    ∃ narrow : Int → Argument, (∀ i, -limit ≤ i → i < limit → valueOf (narrow i) = .int i) ∧
      ∀ value, tag.pack value = tag.integerOf value >>= fun i =>
        if -limit ≤ i ∧ i < limit then .ok (narrow i) else .error (.outOfRange value tag) := by
  cases integral with
  | int32 =>
    refine ⟨fun i => .int (Int32.ofInt i), fun i low high => ?_, fun value => bind_congr fun i => ?_⟩
    · exact congrArg Value.int (Int32.toInt_ofInt_of_le low high)
    · rw [Int32.toInt_minValue, Int32.toInt_maxValue]
      exact ite_le_pred 0x80000000 i _ _
  | int64 =>
    refine ⟨fun i => .long (Int64.ofInt i), fun i low high => ?_, fun value => bind_congr fun i => ?_⟩
    · exact congrArg Value.int (Int64.toInt_ofInt_of_le low high)
    · rw [Int64.toInt_minValue, Int64.toInt_maxValue]
      exact ite_le_pred 0x8000000000000000 i _ _

/-- A text that an integer is written in stands for it, if it is wide. -/
theorem integerOf_text (tag : Tag) (i : Int) {front back : String}
    (blank : ∀ c ∈ front.toList, isBlank c) (blank' : ∀ c ∈ back.toList, isBlank c) :
    tag.integerOf (.text (front ++ toString i ++ back)) = if Wide.holds i then .ok i
      else .error (.outOfRange (.text (front ++ toString i ++ back)) tag) := by
  simp only [integerOf, readInteger_toString i blank blank']
  cases Wide.holds i <;> rfl

/-- **An integer and its text are packed alike,** however large it is and whatever blanks stand around
the text: as the same argument, which stands for the integer, if the type has it, and otherwise both are
out of range. -/
theorem text_packed_as_integer {tag : Tag} {limit : Int} (integral : tag.Integral limit) (i : Int) :
    ∃ written, (Value.int i).scalarText? = some written ∧ ∀ front back : String,
      (∀ c ∈ front.toList, isBlank c) → (∀ c ∈ back.toList, isBlank c) →
        (-limit ≤ i ∧ i < limit → ∃ argument, valueOf argument = .int i ∧
          tag.pack (.int i) = .ok argument ∧
          tag.pack (.text (front ++ written ++ back)) = .ok argument) ∧
        (¬(-limit ≤ i ∧ i < limit) → FailsAs .overflow (tag.pack (.int i)) ∧
          FailsAs .overflow (tag.pack (.text (front ++ written ++ back)))) := by
  refine ⟨toString i, rfl, fun front back blank blank' => ?_⟩
  obtain ⟨narrow, lossless, pack_eq⟩ := integral.exists_pack_eq
  simp only [pack_eq, integerOf_text tag i blank blank']
  simp only [integerOf, ok_bind]
  constructor
  · intro within
    have wide : Wide.holds i := by
      have low : Wide.least ≤ -limit := by cases integral <;> decide
      have high : limit ≤ Wide.greatest := by cases integral <;> decide
      rw [holds_iff]
      omega
    rw [if_pos within, if_pos wide, ok_bind, if_pos within]
    exact ⟨narrow i, lossless i within.1 within.2, rfl, rfl⟩
  · intro beyond
    rw [if_neg beyond]
    refine ⟨failsAs_error.2 rfl, ?_⟩
    -- The text is refused by the type, or before that as an integer that is not wide.
    split
    next =>
      rw [ok_bind, if_neg beyond]
      exact failsAs_error.2 rfl
    next => exact failsAs_error.2 rfl

/-- The least wide integer, of which the magnitude is none, is read and is out of range; the least
integer of the type is packed.  Blanks of several kinds are cut off. -/
theorem text_packed_as_integer_least :
    ((Value.int Wide.least).scalarText? = some "-170141183460469231731687303715884105728" ∧
      FailsAs .overflow (int64.pack (.int Wide.least)) ∧
      FailsAs .overflow (int64.pack
        (.text "\t-170141183460469231731687303715884105728\u3000"))) ∧
    ∃ argument, valueOf argument = .int (-0x80000000) ∧
      int32.pack (.int (-0x80000000)) = .ok argument ∧
      int32.pack (.text " -2147483648\n") = .ok argument := by
  obtain ⟨written, wide, beyond⟩ := text_packed_as_integer .int64 Wide.least
  obtain ⟨shown, least, within⟩ := text_packed_as_integer .int32 (-0x80000000)
  obtain rfl : written = "-170141183460469231731687303715884105728" :=
    (Option.some.inj wide).symm.trans (by decide +kernel)
  obtain rfl : shown = "-2147483648" := (Option.some.inj least).symm.trans (by decide +kernel)
  exact ⟨⟨wide, (beyond "\t" "\u3000" (by simp; decide) (by simp; decide)).2 (by decide)⟩,
    (within " " "\n" (by simp; decide) (by simp; decide)).1 (by decide)⟩

end Tag

end SoundControl
