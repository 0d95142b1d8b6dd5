import SoundControl.Proofs.TypeSpec.FixedPoint

/-! # Any arguments go by the types that are found in them

A signature for any arguments lists no types, so each value is packed by the type that it suggests
and each argument is unpacked by the type that it has.  Finding all types first, and then using them
as a signature, comes to the same.

* **`TypeSpec.mapM_bind_eq_ok_iff`** — finding a type and going by it, item by item or list by list.
* **`TypeSpec.pack_anyArgs_iff`**, **`TypeSpec.unpack_anyArgs_iff`** — the two ways to the result.
* **`TypeSpec.ofArguments_of_guess`** — the arguments have the signature that the values suggested.
* **`TypeSpec.anyArgs_by_found_types`** — both directions, with the signature that is found. -/

namespace SoundControl

open Wire

namespace TypeSpec

variable {spec : TypeSpec} {values : List Value} {arguments : List Argument}

/-- A list of types makes a signature of its own. -/
theorem ofTags_ne_anyArgs (tags : List Tag) : ofTags tags ≠ anyArgs := by
  cases tags <;> simp [ofTags]

@[simp] theorem tags_ofTags (types : List Tag) : (ofTags types).tags = types := by
  cases types <;> rfl

/-- **Finding a type and going by it for each item** is finding all types and going by their list. -/
theorem mapM_bind_eq_ok_iff {α β : Type} {find : α → Except Error Tag}
    {rule : Tag → α → Except Error β} {items : List α} {results : List β} :
    (items.mapM fun a => do rule (← find a) a) = .ok results ↔
      ∃ types, items.mapM find = .ok types ∧ convertEach rule types items = .ok results := by
  simp only [mapM_eq_ok_iff, convertEach_eq_ok_iff]
  constructor
  · intro each
    induction each with
    | nil => exact ⟨[], .nil, rfl, .nil⟩
    | cons own _ ih =>
      obtain ⟨tag, found, own⟩ := bind_eq_ok_iff.1 own
      obtain ⟨types, others, same, rest⟩ := ih
      exact ⟨tag :: types, .cons found others, congrArg (· + 1) same, .cons own rest⟩
  · rintro ⟨types, found, -, each⟩
    induction found generalizing results with
    | nil =>
      rw [List.zip_nil_left, List.forall₂_nil_left_iff] at each
      exact each ▸ .nil
    | cons found _ ih =>
      rw [List.zip_cons_cons, List.forall₂_cons_left_iff] at each
      obtain ⟨b, results, own, rest, rfl⟩ := each
      exact .cons (bind_eq_ok_iff.2 ⟨_, found, own⟩) (ih rest)

/-- **Values are packed as any arguments** if the signature that they suggest packs them. -/
theorem pack_anyArgs_iff : anyArgs.pack values = .ok arguments ↔
    ∃ spec, guess values = .ok spec ∧ spec.pack values = .ok arguments := by
  rw [pack, mapM_bind_eq_ok_iff]
  constructor
  · rintro ⟨types, found, packed⟩
    refine ⟨ofTags types, map_eq_ok_iff.2 ⟨types, found, rfl⟩, ?_⟩
    rwa [pack_eq_convertEach (ofTags_ne_anyArgs types), tags_ofTags]
  · rintro ⟨spec, guessed, packed⟩
    obtain ⟨types, found, rfl⟩ := map_eq_ok_iff.1 guessed
    rw [pack_eq_convertEach (ofTags_ne_anyArgs types), tags_ofTags] at packed
    exact ⟨types, found, packed⟩

/-- **Arguments are unpacked as any arguments** if the signature that they have unpacks them. -/
theorem unpack_anyArgs_iff : anyArgs.unpack arguments = .ok values ↔
    ∃ spec, ofArguments arguments = .ok spec ∧ spec.unpack arguments = .ok values := by
  rw [unpack, mapM_bind_eq_ok_iff]
  constructor
  · rintro ⟨types, found, unpacked⟩
    refine ⟨ofTags types, map_eq_ok_iff.2 ⟨types, found, rfl⟩, ?_⟩
    rwa [unpack_eq_convertEach (ofTags_ne_anyArgs types), tags_ofTags]
  · rintro ⟨spec, inferred, unpacked⟩
    obtain ⟨types, found, rfl⟩ := map_eq_ok_iff.1 inferred
    rw [unpack_eq_convertEach (ofTags_ne_anyArgs types), tags_ofTags] at unpacked
    exact ⟨types, found, unpacked⟩

/-- **The arguments have the signature that the values suggested.** -/
theorem ofArguments_of_guess (guessed : guess values = .ok spec)
    (packed : spec.pack values = .ok arguments) : ofArguments arguments = .ok spec := by
  obtain ⟨types, found, rfl⟩ := map_eq_ok_iff.1 guessed
  rw [pack_eq_convertEach (ofTags_ne_anyArgs types), tags_ofTags, convertEach_eq_ok_iff] at packed
  obtain ⟨-, each⟩ := packed
  refine map_eq_ok_iff.2 ⟨types, ?_, rfl⟩
  rw [mapM_eq_ok_iff] at found ⊢
  clear guessed
  induction found generalizing arguments with
  | nil =>
    rw [List.zip_nil_left, List.forall₂_nil_left_iff] at each
    exact each ▸ .nil
  | cons found _ ih =>
    rw [List.zip_cons_cons, List.forall₂_cons_left_iff] at each
    obtain ⟨argument, arguments, own, rest, rfl⟩ := each
    exact .cons (Tag.ofArgument_of_guess found own) (ih rest)

/-- Arguments are accepted by the signature that they have, which lists their types. -/
theorem accepts_of_ofArguments (inferred : ofArguments arguments = .ok spec) :
    spec ≠ anyArgs ∧ spec.accepts arguments := by
  obtain ⟨types, found, rfl⟩ := map_eq_ok_iff.1 inferred
  refine ⟨ofTags_ne_anyArgs types, ?_⟩
  rw [accepts_iff_forall₂ (ofTags_ne_anyArgs types), tags_ofTags]
  exact (mapM_eq_ok_iff.1 found).flip.imp fun _ _ inferred => Tag.accepts_of_ofArgument inferred

/-- **Any arguments go by the types that are found in them.** Values are packed as any arguments if
and only if the signature that they suggest packs them, as the same arguments, which then have that
signature.  Arguments are unpacked as any arguments if and only if they have a signature, which then
accepts them and unpacks them as the same values. -/
theorem anyArgs_by_found_types :
    (∀ values arguments, anyArgs.pack values = .ok arguments ↔
      ∃ spec, guess values = .ok spec ∧ spec.pack values = .ok arguments) ∧
    (∀ values arguments spec, guess values = .ok spec → spec.pack values = .ok arguments →
      ofArguments arguments = .ok spec) ∧
    (∀ arguments, (∃ values, anyArgs.unpack arguments = .ok values) ↔
      ∃ spec, ofArguments arguments = .ok spec) ∧
    ∀ arguments spec, ofArguments arguments = .ok spec →
      spec.accepts arguments ∧ spec.unpack arguments = anyArgs.unpack arguments := by
  have unpacked (arguments : List Argument) (spec : TypeSpec)
      (inferred : ofArguments arguments = .ok spec) :
      spec.unpack arguments = .ok (arguments.map Tag.valueOf) := by
    obtain ⟨concrete, accepted⟩ := accepts_of_ofArguments inferred
    exact unpack_of_accepts concrete accepted
  refine ⟨fun _ _ => pack_anyArgs_iff, fun _ _ _ => ofArguments_of_guess, fun arguments => ⟨?_, ?_⟩,
    fun arguments spec inferred => ⟨(accepts_of_ofArguments inferred).2, ?_⟩⟩
  · rintro ⟨values, unpacked⟩
    obtain ⟨spec, inferred, -⟩ := unpack_anyArgs_iff.1 unpacked
    exact ⟨spec, inferred⟩
  · rintro ⟨spec, inferred⟩
    exact ⟨_, unpack_anyArgs_iff.2 ⟨spec, inferred, unpacked arguments spec inferred⟩⟩
  · rw [unpacked arguments spec inferred]
    exact (unpack_anyArgs_iff.2 ⟨spec, inferred, unpacked arguments spec inferred⟩).symm

/-- Infinity and four small integers suggest types that their arguments have; an array has none. -/
theorem anyArgs_by_found_types_forms :
    let values : List Value := [.float Number.Binary.infinity,
      .array [.int 0, .int 144, .int 60, .int 255], .bool false]
    let arguments : List Argument := [.infinitum, .midi ⟨0, 144, 60, 255⟩, .bool false]
    let spec : TypeSpec := typed .infinitum [.midi, .false]
    (anyArgs.pack values = .ok arguments ∧ guess values = .ok spec ∧
      spec.pack values = .ok arguments) ∧ ofArguments arguments = .ok spec ∧
    (spec.accepts arguments ∧ spec.unpack arguments = anyArgs.unpack arguments) ∧
    ¬∃ values, anyArgs.unpack [.array [.int 1]] = .ok values := by
  intro values arguments spec
  obtain ⟨packs, types, unpacks, same⟩ := anyArgs_by_found_types
  have guessed : guess values = .ok spec := rfl
  have packed : spec.pack values = .ok arguments := rfl
  have inferred : ofArguments arguments = .ok spec := types values arguments spec guessed packed
  refine ⟨⟨(packs values arguments).2 ⟨spec, guessed, packed⟩, guessed, packed⟩, inferred,
    same arguments spec inferred, fun unpacked => ?_⟩
  obtain ⟨spec, untyped⟩ := (unpacks [.array [.int 1]]).1 unpacked
  contradiction

end TypeSpec

end SoundControl
