import SoundControl.Proofs.Outcome
import SoundControl.TypeSpec.Signature

/-! # Packed values are accepted

* **`Tag.accepts_of_pack`**, **`TypeSpec.accepts_of_pack`** — a type accepts what it packs.
* **`TypeSpec.unpack_of_pack`** — packed values can be unpacked, each as the value it stands for. -/

namespace SoundControl

open Wire

/-! ## Single values -/

namespace Tag

variable {tag : Tag} {value : Value} {argument : Argument}

/-- **A type accepts what it packs.** -/
theorem accepts_of_pack (packed : tag.pack value = .ok argument) : tag.accepts argument := by
  cases tag <;> simp only [pack, packTruth] at packed
  case int32 | int64 | float32 =>
    obtain ⟨found, -, packed⟩ := bind_eq_ok_iff.1 packed
    split at packed <;> cases packed
    rfl
  case float64 | char | timeTag | midi =>
    obtain ⟨found, -, rfl⟩ := map_eq_ok_iff.1 packed
    rfl
  case string | symbol | nil =>
    split at packed <;> cases packed
    rfl
  case blob | infinitum | «true» | «false» =>
    split at packed
    all_goals try split at packed
    all_goals cases packed
    all_goals rfl

/-- What a type accepts is unpacked as the value it stands for. -/
theorem unpack_of_accepts (accepted : tag.accepts argument) :
    tag.unpack argument = .ok (valueOf argument) := by
  rw [unpack, if_pos accepted]

/-- An argument is accepted by its own type. -/
theorem accepts_of_ofArgument (typed : ofArgument argument = .ok tag) : tag.accepts argument := by
  rw [accepts, typed]
  simp

/-- What a type accepts has a type. -/
theorem exists_ofArgument (accepted : tag.accepts argument) :
    ∃ found, ofArgument argument = .ok found := by
  rw [accepts] at accepted
  split at accepted
  next found typed => exact ⟨found, typed⟩
  next => contradiction

end Tag

/-! ## Lists of values -/

namespace TypeSpec

variable {spec : TypeSpec} {values : List Value} {arguments : List Argument}

/-- A signature accepts as many arguments as it lists types, each accepted by its type. -/
theorem accepts_iff_forall₂ (concrete : spec ≠ anyArgs) : spec.accepts arguments ↔
    List.Forall₂ (fun tag argument => tag.accepts argument = true) spec.tags arguments := by
  cases spec with
  | anyArgs => contradiction
  | noArgs => simp [accepts, tags]
  | typed first rest =>
    rw [List.forall₂_iff_zip]
    simp [accepts, length]

/-- A list is converted if it is as long as the list of types, and each item by its type. -/
theorem convertEach_eq_ok_iff {α β : Type} {rule : Tag → α → Except Error β} {tags : List Tag}
    {items : List α} {results : List β} :
    convertEach rule tags items = .ok results ↔ items.length = tags.length ∧
      List.Forall₂ (fun pair b => rule pair.1 pair.2 = .ok b) (tags.zip items) results := by
  rw [convertEach, ← mapM_eq_ok_iff]
  split
  next same => simp [same]
  next other => simp [other]

/-- Other signatures than any arguments convert type by type. -/
theorem pack_eq_convertEach (concrete : spec ≠ anyArgs) :
    spec.pack values = convertEach Tag.pack spec.tags values := by
  cases spec with
  | anyArgs => contradiction
  | noArgs | typed => rfl

theorem unpack_eq_convertEach (concrete : spec ≠ anyArgs) :
    spec.unpack arguments = convertEach Tag.unpack spec.tags arguments := by
  cases spec with
  | anyArgs => contradiction
  | noArgs | typed => rfl

theorem accepts_each_of_pack_each {tags : List Tag} (same : values.length = tags.length)
    (packed : List.Forall₂ (fun pair argument => Tag.pack pair.1 pair.2 = .ok argument)
      (tags.zip values) arguments) :
    List.Forall₂ (fun tag argument => tag.accepts argument = true) tags arguments := by
  induction tags generalizing values arguments with
  | nil =>
    obtain rfl : arguments = [] := by simpa using packed
    exact .nil
  | cons tag tags ih =>
    match values with
    | [] => simp at same
    | value :: values =>
      rw [List.zip_cons_cons, List.forall₂_cons_left_iff] at packed
      obtain ⟨argument, arguments, own, others, rfl⟩ := packed
      exact .cons (Tag.accepts_of_pack own) (ih (by simpa using same) others)

/-- Values packed by the types that they suggest have types. -/
theorem exists_type_of_pack_anyArgs (packed : anyArgs.pack values = .ok arguments) :
    ∀ argument ∈ arguments, ∃ tag, Tag.ofArgument argument = .ok tag := by
  rw [pack, mapM_eq_ok_iff] at packed
  induction packed with
  | nil => simp
  | cons own _ ih =>
    obtain ⟨tag, -, own⟩ := bind_eq_ok_iff.1 own
    exact List.forall_mem_cons.2 ⟨Tag.exists_ofArgument (Tag.accepts_of_pack own), ih⟩

/-- **A signature accepts what it packs.** -/
theorem accepts_of_pack (packed : spec.pack values = .ok arguments) : spec.accepts arguments := by
  by_cases concrete : spec = anyArgs
  · subst concrete
    rfl
  · rw [pack_eq_convertEach concrete, convertEach_eq_ok_iff] at packed
    exact (accepts_iff_forall₂ concrete).2 (accepts_each_of_pack_each packed.1 packed.2)

/-- Every packed argument has a type. -/
theorem exists_type_of_pack (packed : spec.pack values = .ok arguments) :
    ∀ argument ∈ arguments, ∃ tag, Tag.ofArgument argument = .ok tag := by
  by_cases concrete : spec = anyArgs
  · subst concrete
    exact exists_type_of_pack_anyArgs packed
  · have accepted := (accepts_iff_forall₂ concrete).1 (accepts_of_pack packed)
    generalize spec.tags = tags at accepted
    clear packed
    induction accepted with
    | nil => simp
    | cons own _ ih => exact List.forall_mem_cons.2 ⟨Tag.exists_ofArgument own, ih⟩

/-- **What a signature accepts is unpacked** as the values that the arguments stand for. -/
theorem unpack_of_accepts (concrete : spec ≠ anyArgs) (accepted : spec.accepts arguments) :
    spec.unpack arguments = .ok (arguments.map Tag.valueOf) := by
  have each := (accepts_iff_forall₂ concrete).1 accepted
  rw [unpack_eq_convertEach concrete, convertEach_eq_ok_iff]
  refine ⟨each.length_eq.symm, ?_⟩
  generalize spec.tags = tags at each
  clear accepted
  induction each with
  | nil => exact .nil
  | cons own _ ih => exact .cons (Tag.unpack_of_accepts own) ih

/-- **Packed values can be unpacked,** as the values that the arguments stand for. -/
theorem unpack_of_pack (packed : spec.pack values = .ok arguments) :
    spec.unpack arguments = .ok (arguments.map Tag.valueOf) := by
  by_cases concrete : spec = anyArgs
  · subst concrete
    have types := exists_type_of_pack_anyArgs packed
    rw [unpack, mapM_eq_ok_iff]
    clear packed
    induction arguments with
    | nil => exact .nil
    | cons argument arguments ih =>
      obtain ⟨⟨tag, own⟩, others⟩ := List.forall_mem_cons.1 types
      refine .cons ?_ (ih others)
      rw [own]
      exact Tag.unpack_of_accepts (Tag.accepts_of_ofArgument own)
  · exact unpack_of_accepts concrete (accepts_of_pack packed)

/-- Values come back as what their arguments stand for. -/
theorem convert_of_pack (packed : spec.pack values = .ok arguments) :
    spec.convert values = .ok (arguments.map Tag.valueOf) := by
  rw [convert, packed]
  exact unpack_of_pack packed

end TypeSpec

end SoundControl
