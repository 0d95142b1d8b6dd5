import SoundControl.Proofs.Number.Widening
import SoundControl.Proofs.TypeSpec.Packing

/-! # Packed values are packed again as the same arguments

A value can be written in several ways, as a number, a text, or bytes, and each type has its own
rules for reading them.  Whatever it was, the argument that a type makes of it stands for a value
that the type packs as the same argument, without reading anything twice.

* **`Argument.Ordinary`** — numbers that are finite, and bytes that are not none.
* **`Tag.pack_valueOf`** — an ordinary argument is packed again from the value it stands for.
* **`Tag.guess_valueOf`** — a value that came back suggests the type it travelled as.
* **`TypeSpec.pack_fixed_point`** — packing and unpacking argument lists, and which lists are packed. -/

namespace SoundControl

open Number Wire

/-- **What packing can yield:** no infinite number and no empty bytes. -/
def Wire.Argument.Ordinary : Argument → Prop
  | .float x => ¬x.isInfinite
  | .double x => ¬x.isInfinite
  | .blob content => content ≠ []
  | _ => True

/-! ## Single values -/

namespace Tag

variable {tag : Tag} {value : Value} {argument : Argument}

/-- Symbols accept texts; apart from that, a type accepts the arguments that have it. -/
theorem accepts_iff : tag.accepts argument ↔ ofArgument argument = .ok tag ∨
    (tag = symbol ∧ ofArgument argument = .ok string) := by
  rw [accepts]
  cases ofArgument argument <;> simp

/-- Numbers are packed as finite numbers. -/
theorem finite_of_numberOf {x : Binary64} (read : numberOf tag value = .ok x) :
    ¬x.isInfinite := by
  have finite {y : Binary64} {fault : Error}
      (read : (if y.isInfinite then .error fault else .ok y) = Except.ok x) : ¬x.isInfinite := by
    split at read
    next => contradiction
    next finite =>
      cases read
      exact finite
  -- Each category that has a number hands it to the same check.
  unfold numberOf at read
  split at read
  case h_1 | h_2 | h_3 =>
    rw [ok_bind] at read
    exact finite read
  case h_4 => contradiction

/-- **What is packed is ordinary.** -/
theorem ordinary_of_pack (packed : tag.pack value = .ok argument) : argument.Ordinary := by
  cases tag <;> simp only [pack, packTruth] at packed
  case float32 =>
    obtain ⟨x, -, packed⟩ := bind_eq_ok_iff.1 packed
    split at packed
    next => simp at packed
    next small =>
      cases packed
      simp only [Bool.or_eq_true, not_or] at small
      exact small.1
  case float64 =>
    obtain ⟨x, read, rfl⟩ := map_eq_ok_iff.1 packed
    exact finite_of_numberOf read
  case blob =>
    split at packed
    next content =>
      split at packed
      next => contradiction
      next nonempty =>
        cases packed
        simpa [Argument.Ordinary] using nonempty
    next => contradiction
  case int32 | int64 =>
    obtain ⟨i, -, packed⟩ := bind_eq_ok_iff.1 packed
    split at packed <;> cases packed
    trivial
  case char | timeTag | midi =>
    obtain ⟨found, -, rfl⟩ := map_eq_ok_iff.1 packed
    trivial
  case string | symbol | nil =>
    split at packed <;> cases packed
    trivial
  case infinitum | «true» | «false» =>
    split at packed
    all_goals try split at packed
    all_goals cases packed
    all_goals trivial

/-- A finite number stands for itself. -/
theorem numberOf_float {x : Binary64} (finite : ¬x.isInfinite) : numberOf tag (.float x) = .ok x :=
  if_neg finite

/-- A finite single-precision number is packed again after widening. -/
theorem pack_float32 {x : Binary32} (finite : ¬x.isInfinite) :
    float32.pack (.float (x.convert _)) = .ok (.float x) := by
  have within := Format.within_single_double
  have same : (x.convert ⟨52, 11⟩).convert ⟨23, 8⟩ = x := Binary.convert_convert within x
  have zero : x.isZero → (x.convert ⟨52, 11⟩).isZero := Binary.isZero_convert within
  rw [pack, numberOf_float (by rwa [Binary.isInfinite_convert within]), ok_bind]
  -- Narrowed, it is what it was, so it is neither too large nor too small.
  simp only [same]
  rw [if_neg (by simpa [finite] using zero)]
  rfl

/-- **An ordinary argument is packed again** from the value it stands for. -/
theorem pack_valueOf (accepted : tag.accepts argument) (ordinary : argument.Ordinary) :
    tag.pack (valueOf argument) = .ok argument := by
  rcases accepts_iff.1 accepted with typed | ⟨rfl, typed⟩
  -- The type is that of the argument, or the argument is a text and the type is that of symbols.
  · cases argument <;> simp only [ofArgument, Except.ok.injEq, reduceCtorEq] at typed <;> subst typed
    case int i =>
      rw [valueOf, pack, integerOf, ok_bind,
        if_pos (by simpa using ⟨i.minValue_le_toInt, i.toInt_le⟩), Int32.ofInt_toInt]
      rfl
    case long i =>
      rw [valueOf, pack, integerOf, ok_bind,
        if_pos (by simpa using ⟨i.minValue_le_toInt, i.toInt_le⟩), Int64.ofInt_toInt]
      rfl
    case float x => exact pack_float32 ordinary
    case double x =>
      rw [valueOf, pack, numberOf_float ordinary]
      rfl
    case blob content =>
      rw [valueOf, pack]
      exact if_neg (by simpa [Argument.Ordinary] using ordinary)
    case bool b => cases b <;> rfl
    all_goals rfl
  · cases argument <;> simp only [ofArgument, Except.ok.injEq, reduceCtorEq] at typed
    case bool b => cases b <;> contradiction
    rfl

/-- No value suggests a type that is narrower than need be, or a symbol. -/
theorem ne_of_guess (guessed : guess value = .ok tag) :
    tag ≠ int32 ∧ tag ≠ float32 ∧ tag ≠ symbol := by
  cases value <;> simp only [guess] at guessed
  all_goals try split at guessed
  all_goals cases guessed
  all_goals simp

/-- **What the type that a value suggests packs has that type.** -/
theorem ofArgument_of_guess (guessed : guess value = .ok tag)
    (packed : tag.pack value = .ok argument) : ofArgument argument = .ok tag := by
  obtain ⟨-, -, text⟩ := ne_of_guess guessed
  exact (accepts_iff.1 (accepts_of_pack packed)).resolve_right fun ⟨named, _⟩ => text named

/-- **A value that came back suggests the type it travelled as.** -/
theorem guess_valueOf (guessed : guess value = .ok tag) (packed : tag.pack value = .ok argument) :
    guess (valueOf argument) = .ok tag := by
  obtain ⟨wide, double, -⟩ := ne_of_guess guessed
  have ordinary := ordinary_of_pack packed
  have typed := ofArgument_of_guess guessed packed
  clear guessed packed
  cases argument <;> simp only [ofArgument, Except.ok.injEq, reduceCtorEq] at typed <;> subst typed
  case int | float => contradiction
  case double x =>
    -- Infinity would have suggested another type, but no infinity is packed as a number.
    have finite : ¬x.isInfinity := fun infinite =>
      ordinary (of_decide_eq_true infinite ▸ Binary.isInfinite_infinity)
    rw [valueOf, guess, if_neg finite]
  case bool b => cases b <;> rfl
  all_goals rfl

end Tag

/-! ## Lists of values -/

namespace TypeSpec

variable {spec : TypeSpec} {values : List Value} {arguments : List Argument}

/-- What a type packs from a value that suggests it, it packs again. -/
theorem exists_guess_of_pack_anyArgs (packed : anyArgs.pack values = .ok arguments) :
    ∀ argument ∈ arguments, argument.Ordinary ∧
      ∃ tag, Tag.guess (Tag.valueOf argument) = .ok tag ∧ tag.accepts argument := by
  rw [pack, mapM_eq_ok_iff] at packed
  induction packed with
  | nil => simp
  | cons own _ ih =>
    obtain ⟨tag, guessed, own⟩ := bind_eq_ok_iff.1 own
    exact List.forall_mem_cons.2 ⟨⟨Tag.ordinary_of_pack own, tag,
      Tag.guess_valueOf guessed own, Tag.accepts_of_pack own⟩, ih⟩

theorem ordinary_of_pack_each {tags : List Tag}
    (packed : List.Forall₂ (fun pair argument => Tag.pack pair.1 pair.2 = .ok argument)
      (tags.zip values) arguments) : ∀ argument ∈ arguments, argument.Ordinary := by
  generalize tags.zip values = pairs at packed
  induction packed with
  | nil => simp
  | cons own _ ih => exact List.forall_mem_cons.2 ⟨Tag.ordinary_of_pack own, ih⟩

/-- **What is packed is ordinary.** -/
theorem ordinary_of_pack (packed : spec.pack values = .ok arguments) :
    ∀ argument ∈ arguments, argument.Ordinary := by
  by_cases concrete : spec = anyArgs
  · subst concrete
    exact fun argument found => (exists_guess_of_pack_anyArgs packed argument found).1
  · rw [pack_eq_convertEach concrete, convertEach_eq_ok_iff] at packed
    exact ordinary_of_pack_each packed.2

/-- **Ordinary arguments that are accepted are packed again** from the values they stand for. -/
theorem pack_valueOf (concrete : spec ≠ anyArgs) (accepted : spec.accepts arguments)
    (ordinary : ∀ argument ∈ arguments, argument.Ordinary) :
    spec.pack (arguments.map Tag.valueOf) = .ok arguments := by
  have each := (accepts_iff_forall₂ concrete).1 accepted
  rw [pack_eq_convertEach concrete, convertEach_eq_ok_iff, List.length_map]
  refine ⟨each.length_eq.symm, ?_⟩
  generalize spec.tags = tags at each
  clear accepted
  induction each with
  | nil => exact .nil
  | cons own _ ih =>
    obtain ⟨finite, others⟩ := List.forall_mem_cons.1 ordinary
    exact .cons (Tag.pack_valueOf own finite) (ih others)

/-- Each packed argument is packed again by the type that its value suggests. -/
theorem pack_valueOf_anyArgs (packed : anyArgs.pack values = .ok arguments) :
    anyArgs.pack (arguments.map Tag.valueOf) = .ok arguments := by
  have guessed := exists_guess_of_pack_anyArgs packed
  rw [pack, mapM_eq_ok_iff]
  clear packed
  induction arguments with
  | nil => exact .nil
  | cons argument arguments ih =>
    obtain ⟨⟨ordinary, tag, own, accepted⟩, others⟩ := List.forall_mem_cons.1 guessed
    refine .cons ?_ (ih others)
    rw [own, ok_bind]
    exact Tag.pack_valueOf accepted ordinary

/-- **What is packed is packed again** from the values that the arguments stand for. -/
theorem pack_valueOf_of_pack (packed : spec.pack values = .ok arguments) :
    spec.pack (arguments.map Tag.valueOf) = .ok arguments := by
  by_cases concrete : spec = anyArgs
  · subst concrete
    exact pack_valueOf_anyArgs packed
  · exact pack_valueOf concrete (accepts_of_pack packed) (ordinary_of_pack packed)

/-- **Packing and unpacking are inverse on what is packed.** Packed arguments are accepted, unpacked,
and packed again as they were, so values that came back come back as they are.  Unless any arguments
are meant, what is packed is exactly what is accepted and ordinary. -/
theorem pack_fixed_point (spec : TypeSpec) :
    (∀ values arguments, spec.pack values = .ok arguments → spec.accepts arguments ∧
      ∃ others, spec.unpack arguments = .ok others ∧ spec.pack others = .ok arguments) ∧
    (∀ values, spec.convert values >>= spec.convert = spec.convert values) ∧
    (spec ≠ anyArgs → ∀ arguments, (∃ values, spec.pack values = .ok arguments) ↔
      spec.accepts arguments ∧ ∀ argument ∈ arguments, argument.Ordinary) := by
  refine ⟨fun values arguments packed => ⟨accepts_of_pack packed, _, unpack_of_pack packed,
    pack_valueOf_of_pack packed⟩, fun values => ?_, fun concrete arguments => ⟨?_, ?_⟩⟩
  · cases packed : spec.pack values with
    | error fault =>
      have failed : spec.convert values = .error fault := by
        rw [convert, packed]
        rfl
      rw [failed]
      rfl
    | ok arguments =>
      rw [convert_of_pack packed, ok_bind]
      exact convert_of_pack (pack_valueOf_of_pack packed)
  · rintro ⟨values, packed⟩
    exact ⟨accepts_of_pack packed, ordinary_of_pack packed⟩
  · rintro ⟨accepted, ordinary⟩
    exact ⟨_, pack_valueOf concrete accepted ordinary⟩

/-- A text, a truth value, no number and bytes come to rest, and empty bytes are never packed. -/
theorem pack_fixed_point_forms :
    (typed .int32 [.char, .float32, .midi]).pack
        [.text "7", .bool true, .float .nan, .bytes [1, 2, 3, 4]] =
      .ok [.int 7, .char '\x01', .float .nan, .midi ⟨1, 2, 3, 4⟩] ∧
    (∃ others, (typed .int32 [.char, .float32, .midi]).unpack
        [.int 7, .char '\x01', .float .nan, .midi ⟨1, 2, 3, 4⟩] = .ok others ∧
      (typed .int32 [.char, .float32, .midi]).pack others =
        .ok [.int 7, .char '\x01', .float .nan, .midi ⟨1, 2, 3, 4⟩]) ∧
    typed .blob [] ≠ anyArgs ∧ ¬∃ values, (typed .blob []).pack values = .ok [.blob []] := by
  have packed : (typed .int32 [.char, .float32, .midi]).pack
      [.text "7", .bool true, .float .nan, .bytes [1, 2, 3, 4]] =
        .ok [.int 7, .char '\x01', .float .nan, .midi ⟨1, 2, 3, 4⟩] := by rfl
  refine ⟨packed, ((pack_fixed_point _).1 _ _ packed).2, by decide, fun empty => ?_⟩
  have ordinary := (((pack_fixed_point _).2.2 (by decide) _).1 empty).2 _ (List.mem_singleton_self _)
  exact ordinary rfl

end TypeSpec

end SoundControl
