import Mathlib.Data.List.Basic
import SoundControl.Proofs.Outcome
import SoundControl.TypeSpec.Conversion

/-! # Categories come before sizes

A type takes values of certain categories and refuses all others for their category, before it looks at
how large a number is.  So a value is refused for its category if and only if one with other numbers in
the same places is.  MIDI messages as arrays are apart from that: each item is looked at for both before
the next, and an integer that is no byte hides an item of another category behind it.

* **`Value.skeleton`** — a value apart from the size of its numbers.
* **`Tag.suits`** — the categories that a type takes, whatever the numbers.
* **`Value.hidesCategory`** — arrays with an item that an integer in front of it hides.
* **`Tag.pack_failsAs_iff`** — which values are refused for their category.
* **`Tag.category_before_size`** — values of one skeleton are refused for their category alike, unless
  one of them hides it. -/

namespace SoundControl

open Number Text Time Wire

/-! ## Kinds of failure -/

/-- **A computation fails with an error of a kind.** -/
def FailsAs {α : Type} (kind : Error.Kind) (result : Except Error α) : Prop :=
  ∃ fault, result = .error fault ∧ fault.kind = kind

section FailsAs

variable {α β : Type} {kind : Error.Kind} {fault : Error}

@[simp] theorem failsAs_ok (a : α) : ¬FailsAs kind (.ok a) := nofun

@[simp] theorem failsAs_error : FailsAs kind (.error fault : Except Error α) ↔ fault.kind = kind := by
  simp [FailsAs]

@[simp] theorem failsAs_throw : FailsAs kind (throw fault : Except Error α) ↔ fault.kind = kind :=
  failsAs_error

@[simp] theorem failsAs_map (result : Except Error α) (f : α → β) :
    FailsAs kind (result.map f) ↔ FailsAs kind result := by
  cases result <;> simp [Except.map]

/-- What fails as a whole fails in the first part, or in the second after it. -/
theorem failsAs_bind (first : Except Error α) (second : α → Except Error β) :
    FailsAs kind (first >>= second) ↔
      FailsAs kind first ∨ ∃ a, first = .ok a ∧ FailsAs kind (second a) := by
  cases first with
  | error fault => simp [bind, Except.bind]
  | ok a => simp

/-- What can fail in the first part only fails as that does. -/
theorem failsAs_bind_of_forall {first : Except Error α} {second : α → Except Error β}
    (safe : ∀ a, ¬FailsAs kind (second a)) : FailsAs kind (first >>= second) ↔ FailsAs kind first := by
  simp [failsAs_bind, safe]

end FailsAs

/-! ## Values apart from the size of numbers -/

namespace Value

mutual

/-- **The value with all its numbers made zero,** integers and others, at any depth. -/
def skeleton : Value → Value
  | .int _ => .int 0
  | .float _ => .float .zero
  | .array items => .array (skeletonEach items)
  | .map entries => .map (skeletonEntries entries)
  | value => value

/-- Values with all their numbers made zero. -/
def skeletonEach : List Value → List Value
  | [] => []
  | v :: vs => skeleton v :: skeletonEach vs

/-- Entries of a map with all their numbers made zero. -/
def skeletonEntries : List (String × Value) → List (String × Value)
  | [] => []
  | (key, v) :: entries => (key, skeleton v) :: skeletonEntries entries

end

/-- An integer, of any size. -/
def isInteger : Value → Bool
  | .int _ => true
  | _ => false

@[simp] theorem isInteger_skeleton (value : Value) : value.skeleton.isInteger = value.isInteger := by
  cases value <;> simp only [skeleton] <;> rfl

@[simp] theorem length_skeletonEach (items : List Value) :
    (skeletonEach items).length = items.length := by
  induction items with
  | nil => rfl
  | cons item items ih => simp [skeletonEach, ih]

@[simp] theorem all_isInteger_skeletonEach (items : List Value) :
    (skeletonEach items).all isInteger = items.all isInteger := by
  induction items with
  | nil => rfl
  | cons item items ih => simp [skeletonEach, ih]

/-- An integer that is no byte comes first of all items that are none, and an item of another category
behind it. -/
def eclipsed (items : List Value) : Bool :=
  match items.dropWhile Tag.isByte with
  | .int _ :: items => !items.all isInteger
  | _ => false

/-- Bytes are integers, so only what comes behind them matters. -/
theorem all_isInteger_eq_dropWhile (items : List Value) :
    items.all isInteger = (items.dropWhile Tag.isByte).all isInteger := by
  induction items with
  | nil => rfl
  | cons item items ih =>
    by_cases byte : Tag.isByte item
    · have integer : item.isInteger := by cases item <;> simp_all [Tag.isByte, isInteger]
      rw [List.dropWhile_cons_of_pos byte, List.all_cons, integer, Bool.true_and, ih]
    · rw [List.dropWhile_cons_of_neg byte]

/-- **An array of four in which an integer hides a category:** it is no byte, all in front of it are
bytes, and an item behind it is no integer. -/
def hidesCategory : Value → Bool
  | .array items => items.length == 4 && eclipsed items
  | _ => false

end Value

/-- Four bytes are a MIDI message, and no others. -/
theorem Midi.exists_ofBytes?_iff {content : List UInt8} :
    (∃ m, ofBytes? content = some m) ↔ content.length = 4 := by
  constructor
  · rintro ⟨m, found⟩
    unfold ofBytes? at found
    split at found
    next => rfl
    next => contradiction
  · intro four
    obtain ⟨port, status, data1, data2, rfl⟩ := List.length_eq_four.1 four
    exact ⟨_, rfl⟩

/-! ## The categories of a type -/

namespace Tag

open Value

/-- **The type takes values of this category,** if their numbers are of the right size.  A text has to
be one, and MIDI messages are four bytes or integers. -/
def suits (tag : Tag) (value : Value) : Bool :=
  match tag with
  | int32 | int64 =>
    match value with
    | .int _ | .bool _ | .text _ => Bool.true
    | _ => Bool.false
  | float32 | float64 =>
    match value with
    | .int _ | .float _ | .bool _ => Bool.true
    | _ => Bool.false
  | string | symbol => value.scalarText?.isSome
  | char =>
    match value with
    | .char _ | .text _ | .bytes _ | .int _ | .bool _ => Bool.true
    | _ => Bool.false
  | blob =>
    match value with
    | .bytes _ => Bool.true
    | _ => Bool.false
  | timeTag =>
    match value with
    | .timeTag _ | .instant _ | .int _ | .float _ => Bool.true
    | _ => Bool.false
  | midi =>
    match value with
    | .midi _ => Bool.true
    | .bytes content => content.length == 4
    | .array items => items.length == 4 && items.all isInteger
    | _ => Bool.false
  | .true | .false => hasTruth value
  | nil => value.isNil
  | infinitum =>
    match value with
    | .int _ | .float _ => Bool.true
    | _ => Bool.false

variable {tag : Tag} {value : Value}

-- Every rule names its fault, so its kind is computed.
attribute [local simp] Error.kind Error.heading Error.Heading.kind

/-- **Numbers of another size are of the same category.** -/
theorem suits_skeleton (tag : Tag) (value : Value) : tag.suits value.skeleton = tag.suits value := by
  cases tag <;> cases value <;> simp [skeleton, suits, scalarText?, hasTruth, isNil]

/-! ## What each rule refuses for its category -/

/-- A text that is no integer, or too large a one, is of the right category. -/
theorem integerOf_failsAs_iff : FailsAs .type (integerOf tag value) ↔ ¬int32.suits value := by
  cases value with
  | text s =>
    simp only [integerOf]
    split <;> simp [suits]
  | _ => simp [integerOf, suits]

/-- Infinite numbers are of the right category. -/
theorem numberOf_failsAs_iff : FailsAs .type (numberOf tag value) ↔ ¬float32.suits value := by
  have finite (x : Binary64) :
      ¬FailsAs .type (if x.isInfinite then .error (.infiniteNumber tag x) else .ok x) := by
    split <;> simp
  unfold numberOf
  cases value
  all_goals
    rw [failsAs_bind_of_forall finite]
    simp [suits]

/-- More or fewer characters than one are of the right category. -/
theorem characterOf_failsAs_iff : FailsAs .type (characterOf tag value) ↔ ¬char.suits value := by
  unfold characterOf
  split
  all_goals try split
  all_goals simp_all [suits]

/-- Times outside of the era are of the right category. -/
theorem timeTagOf_failsAs_iff : FailsAs .type (timeTagOf tag value) ↔ ¬timeTag.suits value := by
  have outside (result : Except EraFault TimeTag) :
      ¬FailsAs .type (result.mapError Error.outsideEra) := by
    cases result <;> simp [Except.mapError]
  cases value with
  | instant i => simpa [timeTagOf, suits] using outside _
  | float x => simpa [timeTagOf, suits] using outside _
  | int i =>
    simp only [timeTagOf]
    split <;> simp [suits]
  | _ => simp [timeTagOf, suits]

/-- An integer is read as a byte if it is one. -/
theorem midiByteOf_int (tag : Tag) (i : Int) : midiByteOf tag (.int i) =
    if isByte (.int i) then .ok (UInt8.ofNat i.toNat) else .error (.outOfRange (.int i) tag) := by
  have same : (0 ≤ i && i < 256) = isByte (.int i) := by
    rw [isByte, Bool.eq_iff_iff]
    simp
    omega
  rw [midiByteOf, same]

theorem exists_midiByteOf_iff : (∃ byte, midiByteOf tag value = .ok byte) ↔ isByte value := by
  cases value with
  | int i =>
    rw [midiByteOf_int]
    split <;> simp [*]
  | _ => simp [midiByteOf, isByte]

/-- An integer that is no byte is of the right category, -/
theorem midiByteOf_failsAs_iff : FailsAs .type (midiByteOf tag value) ↔ ¬value.isInteger := by
  cases value with
  | int i =>
    rw [midiByteOf_int]
    split <;> simp [isInteger]
  | _ => simp [midiByteOf, isInteger]

/-- and refused for its size. -/
theorem midiByteOf_failsAs_overflow_iff :
    FailsAs .overflow (midiByteOf tag value) ↔ value.isInteger ∧ ¬isByte value := by
  cases value with
  | int i =>
    rw [midiByteOf_int]
    split <;> simp [*, isInteger]
  | _ => simp [midiByteOf, isInteger]

/-- **Items fail as the first of them that is no byte.** -/
theorem midiBytes_failsAs_iff_first (kind : Error.Kind) (items : List Value) :
    FailsAs kind (items.mapM (midiByteOf tag)) ↔
      ∃ first rest, items.dropWhile isByte = first :: rest ∧ FailsAs kind (midiByteOf tag first) := by
  -- A byte in front is passed over, and any other item decides.
  induction items with
  | nil => simp
  | cons item items ih =>
    rw [List.mapM_cons, failsAs_bind]
    by_cases byte : isByte item
    · obtain ⟨b, read⟩ : ∃ b, midiByteOf tag item = .ok b := exists_midiByteOf_iff.2 byte
      have others : FailsAs kind (do
          let bytes ← items.mapM (midiByteOf tag)
          return b :: bytes) ↔ FailsAs kind (items.mapM (midiByteOf tag)) :=
        failsAs_bind_of_forall fun _ => failsAs_ok _
      rw [List.dropWhile_cons_of_pos byte, ← ih, ← others]
      simp [read]
    · have unread (b : UInt8) : midiByteOf tag item ≠ .ok b := fun read =>
        byte (exists_midiByteOf_iff.1 ⟨b, read⟩)
      simp [List.dropWhile_cons_of_neg byte, unread]

/-- **Items are refused for a category** that no integer hides. -/
theorem midiBytes_failsAs_iff (items : List Value) :
    FailsAs .type (items.mapM (midiByteOf tag)) ↔ ¬items.all isInteger ∧ ¬eclipsed items := by
  rw [midiBytes_failsAs_iff_first, all_isInteger_eq_dropWhile, eclipsed]
  cases items.dropWhile isByte with
  | nil => simp
  | cons first rest =>
    -- The first item that is no byte decides, and an integer hides what is behind it.
    cases first <;> simp [midiByteOf_failsAs_iff, isInteger]

/-- An array of four goes item by item. -/
theorem midiOf_array_failsAs_iff (kind : Error.Kind) {items : List Value} (four : items.length = 4) :
    FailsAs kind (midiOf tag (.array items)) ↔ FailsAs kind (items.mapM (midiByteOf tag)) := by
  obtain ⟨a, b, c, d, rfl⟩ := List.length_eq_four.1 four
  simp [midiOf, failsAs_bind]

/-- **Arrays are refused for their category** if they have more or fewer items than four, or one that is
no integer and not hidden. -/
theorem midiOf_failsAs_iff :
    FailsAs .type (midiOf tag value) ↔ ¬midi.suits value ∧ ¬value.hidesCategory := by
  unfold midiOf
  split
  case h_1 => simp [suits]
  case h_2 content =>
    split
    next m four =>
      have length : content.length = 4 := Midi.exists_ofBytes?_iff.1 ⟨m, four⟩
      simp [suits, length]
    next other =>
      have length : content.length ≠ 4 := fun four => by
        obtain ⟨m, found⟩ := Midi.exists_ofBytes?_iff.2 four
        simp [found] at other
      simp [suits, length, hidesCategory]
  case h_3 a b c d =>
    rw [← midiOf, midiOf_array_failsAs_iff _ rfl, midiBytes_failsAs_iff]
    simp [suits, hidesCategory]
  case h_4 items other =>
    have length : items.length ≠ 4 := fun four => by
      obtain ⟨a, b, c, d, rfl⟩ := List.length_eq_four.1 four
      exact other a b c d rfl
    simp [suits, length, hidesCategory]
  case h_5 =>
    cases value <;> simp_all [suits, hidesCategory]

/-- Truths are refused for what they are, not for their category. -/
theorem packTruth_failsAs_iff (expected : Bool) :
    FailsAs .type (packTruth tag expected value) ↔ ¬hasTruth value := by
  simp only [packTruth]
  split
  next truth =>
    split <;> simp [truth]
  next truthless => simp [truthless]

/-- **What a type refuses for its category:** values of the categories that it does not take, unless an
integer hides the category. -/
theorem pack_failsAs_iff : FailsAs .type (tag.pack value) ↔
    ¬tag.suits value ∧ ¬(tag = midi ∧ value.hidesCategory) := by
  cases tag
  case midi => simp [pack, midiOf_failsAs_iff]
  case int32 | int64 =>
    rw [pack, failsAs_bind_of_forall, integerOf_failsAs_iff]
    · simp [suits]
    · intro i
      split <;> simp
  case float32 =>
    rw [pack, failsAs_bind_of_forall, numberOf_failsAs_iff]
    · simp
    · intro x
      simp only
      split <;> simp
  case float64 => simp [pack, numberOf_failsAs_iff, suits]
  case char => simp [pack, characterOf_failsAs_iff]
  case timeTag => simp [pack, timeTagOf_failsAs_iff]
  case «true» | «false» => simp [pack, packTruth_failsAs_iff, suits]
  case string | symbol =>
    simp only [pack]
    split
    next s found => simp [suits, found]
    next missing => simp [suits, missing]
  case blob =>
    cases value with
    | bytes content =>
      simp only [pack]
      split <;> simp [suits]
    | _ => simp [pack, suits]
  case nil =>
    cases value <;> simp [pack, suits, isNil]
  case infinitum =>
    cases value with
    | float x =>
      simp only [pack]
      split <;> simp [suits]
    | _ => simp [pack, suits]

/-- A category that is hidden is none that MIDI messages take, and is refused for the integer that
hides it. -/
theorem pack_of_hidesCategory (hides : value.hidesCategory) :
    ¬midi.suits value ∧ FailsAs .overflow (midi.pack value) := by
  cases value with
  | array items =>
    rw [hidesCategory, eclipsed, Bool.and_eq_true, beq_iff_eq] at hides
    obtain ⟨four, behind⟩ := hides
    split at behind
    next i rest found =>
      rw [pack, failsAs_map, midiOf_array_failsAs_iff _ four, midiBytes_failsAs_iff_first, suits,
        all_isInteger_eq_dropWhile, found]
      refine ⟨by simpa [four, isInteger] using behind, _, _, rfl, ?_⟩
      have integer := List.head?_dropWhile_not isByte items
      rw [found] at integer
      exact midiByteOf_failsAs_overflow_iff.2 ⟨rfl, by simpa using integer⟩
    next => contradiction
  | _ => contradiction

/-- **The category comes before the size of numbers,** unless an integer hides it.  A type refuses for
their category the values of all categories but those that it takes, which do not depend on the size of
numbers; an array of four for a MIDI message is refused for the size of an integer if that hides the
category.  So of two values that differ in the size of numbers only, both are refused for their category
or none, unless in an array for a MIDI message the category is hidden in one and not in the other. -/
theorem category_before_size (tag : Tag) :
    (∀ value, FailsAs .type (tag.pack value) ↔
      ¬tag.suits value ∧ ¬(tag = midi ∧ value.hidesCategory)) ∧
    (∀ value, value.hidesCategory → ¬midi.suits value ∧ FailsAs .overflow (midi.pack value)) ∧
    ∀ v w : Value, v.skeleton = w.skeleton → tag.suits v = tag.suits w ∧
      ((FailsAs .type (tag.pack v) ↔ FailsAs .type (tag.pack w)) ↔
        (tag = midi → v.hidesCategory = w.hidesCategory)) := by
  refine ⟨fun _ => pack_failsAs_iff, fun _ => pack_of_hidesCategory, fun v w same => ?_⟩
  have suits : tag.suits v = tag.suits w := by
    rw [← suits_skeleton, same, suits_skeleton]
  refine ⟨suits, ?_⟩
  rw [pack_failsAs_iff, pack_failsAs_iff, suits]
  by_cases named : tag = midi
  · subst named
    by_cases suited : midi.suits w
    · -- Nothing is hidden in what is of the right category.
      have shown : v.hidesCategory = Bool.false := by
        by_contra hides
        exact (pack_of_hidesCategory (Bool.of_not_eq_false hides)).1 (suits.trans suited)
      have shown' : w.hidesCategory = Bool.false := by
        by_contra hides
        exact (pack_of_hidesCategory (Bool.of_not_eq_false hides)).1 suited
      simp [suited, shown, shown']
    · cases v.hidesCategory <;> cases w.hidesCategory <;> simp [suited]
  · simp [named]

/-- A text among integers of other sizes: the category is hidden in neither array, or in both. -/
theorem category_before_size_in_arrays :
    let v : Value := .array [.int 0, .text "x", .int 255, .int 300]
    let w : Value := .array [.int 7, .text "x", .int (-1), .int 8]
    let u : Value := .array [.int 0, .int 300, .text "x", .int 9]
    v.skeleton = w.skeleton ∧ (FailsAs .type (midi.pack v) ∧ FailsAs .type (midi.pack w)) ∧
      u.hidesCategory ∧ FailsAs .overflow (midi.pack u) := by
  intro v w u
  obtain ⟨refused, hidden, alike⟩ := category_before_size midi
  have own : FailsAs .type (midi.pack v) := (refused v).2 ⟨by decide, by decide⟩
  have same := (alike v w rfl).2.2 fun _ => rfl
  exact ⟨rfl, ⟨own, same.1 own⟩, rfl, (hidden u rfl).2⟩

/-- **An integer that is too large hides a text.** Four items of which the second is a text are refused
for its category if the first is a byte, and for the size of the first if it is none. -/
theorem large_integer_hides_text :
    let v : Value := .array [.int 300, .text "x", .int 0, .int 0]
    let w : Value := .array [.int 0, .text "x", .int 0, .int 0]
    v.skeleton = w.skeleton ∧ midi.pack v = .error (.outOfRange (.int 300) midi) ∧
      midi.pack w = .error (.wrongCategory (.text "x") midi) ∧
      ¬FailsAs .type (midi.pack v) ∧ FailsAs .type (midi.pack w) := by
  intro v w
  exact ⟨rfl, rfl, rfl, fun ⟨_, failed, kind⟩ => by cases failed; contradiction, _, rfl, rfl⟩

end Tag

end SoundControl
