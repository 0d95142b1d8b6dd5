import SoundControl.Proofs.TypeSpec.Packing

/-! # Signatures one behind the other

A signature of listed types goes by position, so one that is put together of two goes by the first for
the front of a list and by the second for the back: the front is converted first, and its first fault
counts.  Whatever signatures are put together, it does not matter which two are joined first.

* **`TypeSpec.convertEach_append`**, **`TypeSpec.accepts_append`** — lists of types and of items, both
  in two parts.
* **`TypeSpec.Sequenced`** — what it means that one signature is two others in sequence.
* **`TypeSpec.sequenced_typed`** — signatures that list types are put together in sequence.
* **`TypeSpec.concat_assoc`** — any grouping has the same result, or none has one.
* **`TypeSpec.concat_by_position`** — both together. -/

namespace SoundControl

open Wire

namespace TypeSpec

/-! ## Lists in two parts -/

section Parts

variable {α β : Type} {tags tags' : List Tag}

/-- More or fewer items than types are refused. -/
theorem convertEach_of_length_ne (rule : Tag → α → Except Error β) {items : List α}
    (other : items.length ≠ tags.length) :
    convertEach rule tags items = .error (.wrongArity tags.length items.length) :=
  if_neg other

/-- **Types in two parts convert items in two parts:** the front, and then the back. -/
theorem convertEach_append (rule : Tag → α → Except Error β) {front back : List α}
    (same : front.length = tags.length) (same' : back.length = tags'.length) :
    convertEach rule (tags ++ tags') (front ++ back) = do
      let converted ← convertEach rule tags front
      let others ← convertEach rule tags' back
      return converted ++ others := by
  have whole : (front ++ back).length = (tags ++ tags').length := by
    rw [List.length_append, List.length_append, same, same']
  rw [convertEach, convertEach, convertEach, if_pos whole, if_pos same, if_pos same',
    List.zip_append same.symm, List.mapM_append]

end Parts

variable {left right joined : TypeSpec}

/-- Other signatures than any arguments accept type by type. -/
theorem accepts_eq_all (concrete : joined ≠ anyArgs) (arguments : List Argument) :
    joined.accepts arguments = (joined.tags.length == arguments.length &&
      (joined.tags.zip arguments).all fun (tag, argument) => tag.accepts argument) := by
  cases joined with
  | anyArgs => contradiction
  | noArgs => cases arguments <;> rfl
  | typed => rfl

/-- **Types in two parts accept arguments in two parts** if each part accepts its own. -/
theorem accepts_append (concrete : left ≠ anyArgs) (concrete' : right ≠ anyArgs)
    (whole : joined ≠ anyArgs) (listed : joined.tags = left.tags ++ right.tags)
    {front back : List Argument} (same : front.length = left.length)
    (same' : back.length = right.length) :
    joined.accepts (front ++ back) = (left.accepts front && right.accepts back) := by
  rw [length] at same same'
  rw [accepts_eq_all whole, accepts_eq_all concrete, accepts_eq_all concrete', listed,
    List.zip_append same.symm, List.all_append]
  simp [same, same']

/-! ## Putting together -/

/-- **A signature that is two others in sequence.** It lists the types of the first and then those of
the second, and takes lists of as many items: the front goes by the first, the back by the second.
What is converted is joined; a fault of the front comes before any of the back. -/
structure Sequenced (left right joined : TypeSpec) : Prop where
  /-- It lists types. -/
  concrete : ∃ first rest, joined = typed first rest
  /-- It lists those of both. -/
  tags : joined.tags = left.tags ++ right.tags
  /-- It is written as both. -/
  codes : joined.codes? = some (left.codeText ++ right.codeText)
  /-- Values are packed by position. -/
  pack : ∀ front back : List Value, front.length = left.length → back.length = right.length →
    joined.pack (front ++ back) = do
      let packed ← left.pack front
      let others ← right.pack back
      return packed ++ others
  /-- Arguments are unpacked by position. -/
  unpack : ∀ front back : List Argument, front.length = left.length → back.length = right.length →
    joined.unpack (front ++ back) = do
      let unpacked ← left.unpack front
      let others ← right.unpack back
      return unpacked ++ others
  /-- Arguments are accepted by position. -/
  accepts : ∀ front back : List Argument, front.length = left.length →
    back.length = right.length →
      joined.accepts (front ++ back) = (left.accepts front && right.accepts back)
  /-- More or fewer values are refused. -/
  values : ∀ values : List Value, values.length ≠ left.length + right.length →
    joined.pack values = .error (.wrongArity (left.length + right.length) values.length)
  /-- More or fewer arguments are refused. -/
  arguments : ∀ arguments : List Argument, arguments.length ≠ left.length + right.length →
    joined.unpack arguments = .error (.wrongArity (left.length + right.length) arguments.length) ∧
      joined.accepts arguments = false

/-- **Signatures that list types are put together in sequence.** -/
theorem sequenced_typed (first : Tag) (rest : List Tag) (first' : Tag) (rest' : List Tag) :
    Sequenced (typed first rest) (typed first' rest') (typed first (rest ++ first' :: rest')) := by
  have concrete (first : Tag) (rest : List Tag) : typed first rest ≠ anyArgs := nofun
  have listed : (typed first (rest ++ first' :: rest')).tags =
      (typed first rest).tags ++ (typed first' rest').tags := rfl
  have length : (typed first rest).length + (typed first' rest').length =
      (typed first (rest ++ first' :: rest')).tags.length := by
    rw [listed, List.length_append]
    rfl
  -- Packing and unpacking are the same traversal, by another rule.
  refine ⟨⟨_, _, rfl⟩, listed, ?_, ?_, ?_, ?_, ?_, ?_⟩
  · simp [codes?, isAnyArgs, codeText, listed]
  · exact fun front back same same' => convertEach_append Tag.pack same same'
  · exact fun front back same same' => convertEach_append Tag.unpack same same'
  · exact fun front back same same' =>
      accepts_append (concrete _ _) (concrete _ _) (concrete _ _) listed same same'
  · intro values other
    rw [length] at other ⊢
    exact convertEach_of_length_ne Tag.pack other
  · intro arguments other
    rw [length] at other ⊢
    refine ⟨convertEach_of_length_ne Tag.unpack other, ?_⟩
    rw [accepts_eq_all (concrete _ _)]
    simp [other.symm]

/-- **The grouping does not matter:** three signatures are put together either way with the same
result, or neither way. -/
theorem concat_assoc (left middle right : TypeSpec) :
    (left.concat middle >>= (·.concat right)).toOption =
      (middle.concat right >>= left.concat).toOption := by
  cases left <;> cases middle <;> cases right <;> simp [concat, bind, Except.bind, Except.toOption]

/-- **Putting signatures together goes by position.** Signatures that list types are put together in
sequence: lists of as many items as both list types are converted and accepted in two parts, and no
others are.  Three signatures of any kind are put together either way with the same result, or
neither way. -/
theorem concat_by_position :
    (∀ (first : Tag) (rest : List Tag) (first' : Tag) (rest' : List Tag), ∃ joined,
      (typed first rest).concat (typed first' rest') = .ok joined ∧
        Sequenced (typed first rest) (typed first' rest') joined) ∧
    ∀ left middle right : TypeSpec, (left.concat middle >>= (·.concat right)).toOption =
      (middle.concat right >>= left.concat).toOption :=
  ⟨fun first rest first' rest' => ⟨_, rfl, sequenced_typed first rest first' rest'⟩, concat_assoc⟩

/-- Both parts have a fault, and that of the front counts; a third signature joins either way, and no
arguments never do. -/
theorem concat_by_position_faults :
    let left := typed .int32 [.blob]
    let right := typed .nil []
    let joined := typed .int32 [.blob, .nil]
    (left.concat right = .ok joined ∧
      joined.pack ([.int 1, .bytes []] ++ [.int 2]) = .error .emptyBlob ∧
      joined.pack ([.int 1, .bytes [7]] ++ [.nil]) = .ok [.int 1, .blob [7], .nil]) ∧
    (left.concat right >>= (·.concat left)).toOption = some (typed .int32 [.blob, .nil, .int32, .blob]) ∧
    (left.concat noArgs >>= (·.concat right)).toOption = none := by
  intro left right joined
  obtain ⟨sequenced, grouped⟩ := concat_by_position
  obtain ⟨found, joins, inSequence⟩ := sequenced .int32 [.blob] .nil []
  obtain rfl : joined = found := Except.ok.inj joins
  refine ⟨⟨joins, ?_, ?_⟩, (grouped left right left).trans rfl, (grouped left noArgs right).trans rfl⟩
  · rw [inSequence.pack _ _ rfl rfl]
    rfl
  · rw [inSequence.pack _ _ rfl rfl]
    rfl

end TypeSpec

end SoundControl
