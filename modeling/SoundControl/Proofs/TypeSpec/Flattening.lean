import SoundControl.Proofs.TypeSpec.Guessing
import SoundControl.TypeSpec.Descriptor

/-! # A description means what its leaves mean

Lists of descriptions only group: a description is read leaf by leaf from left to right, at any depth,
and fails at the first leaf that names no types.

* **`Descriptor.leaves`**, **`Descriptor.Names`** — the leaves of a description, and the types that a
  leaf names.
* **`Descriptor.Spliced`** — a list put into the list around it, at any depth.
* **`Descriptor.tags_eq_mapM_leaves`** — a description is read as its leaves are, one after the other.
* **`TypeSpec.parse_iff_codes?`** — exactly the characters of a signature are read as it.
* **`Descriptor.described_by_leaves`** — what signature is described, and that every signature can be
  written in characters. -/

namespace SoundControl

open Number Text

namespace Descriptor

/-! ## Leaves -/

mutual

/-- **The descriptions that are no lists,** from left to right, at any depth. -/
def leaves : Descriptor → List Descriptor
  | list items => leavesEach items
  | leaf => [leaf]

/-- The leaves of descriptions, one after the other. -/
def leavesEach : List Descriptor → List Descriptor
  | [] => []
  | item :: items => leaves item ++ leavesEach items

end

/-- **The types that a leaf names.** -/
inductive Names : Descriptor → List Tag → Prop where
  /-- Nothing, which is a type inside a list. -/
  | none : Names none [.nil]
  /-- Characters that all stand for types. -/
  | codes (types : List Tag) : Names (codes (String.ofList (types.map Tag.code))) types
  /-- The code point of a character that stands for a type. -/
  | ordinal {n : UInt32} {type : Tag} : n.toNat = type.code.toNat → Names (ordinal n) [type]
  /-- A type. -/
  | tag (type : Tag) : Names (tag type) [type]
  /-- A general kind of value. -/
  | marker (marker : Marker) : Names (.marker marker) [marker.tag]
  /-- A truth value. -/
  | bool (b : Bool) : Names (bool b) [if b then .true else .false]
  /-- Positive infinity. -/
  | infinity : Names (float Binary.infinity) [.infinitum]
  /-- A signature that lists types. -/
  | spec (first : Tag) (rest : List Tag) : Names (spec (.typed first rest)) (first :: rest)

/-- **One description is the other with a list put into the list around it,** at any depth. -/
inductive Spliced : Descriptor → Descriptor → Prop where
  /-- The items of the inner list, in its place. -/
  | here (front items back : List Descriptor) :
      Spliced (list (front ++ list items :: back)) (list (front ++ (items ++ back)))
  /-- The same in an item of a list. -/
  | inside {item item' : Descriptor} (front back : List Descriptor) : Spliced item item' →
      Spliced (list (front ++ item :: back)) (list (front ++ item' :: back))

theorem leavesEach_eq_flatMap (items : List Descriptor) : leavesEach items = items.flatMap leaves := by
  induction items with
  | nil => rfl
  | cons item items ih => rw [leavesEach, ih, List.flatMap_cons]

/-- What is no list is a leaf. -/
theorem leaves_of_ne_list {leaf : Descriptor} (single : ∀ items, leaf ≠ list items) :
    leaf.leaves = [leaf] := by
  cases leaf with
  | list items => exact absurd rfl (single items)
  | _ => rfl

@[simp] theorem leaves_list (items : List Descriptor) : (list items).leaves = items.flatMap leaves := by
  rw [leaves, leavesEach_eq_flatMap]

/-- **Splicing keeps the leaves.** -/
theorem Spliced.leaves_eq {d d' : Descriptor} (spliced : Spliced d d') : d.leaves = d'.leaves := by
  induction spliced with
  | here => simp
  | inside _ _ _ ih => simp [ih]

end Descriptor

/-! ## Characters -/

/-- Exactly the character of a type stands for it. -/
theorem Tag.ofCode?_eq_some_iff {c : Char} {type : Tag} : ofCode? c = some type ↔ c = type.code := by
  constructor
  · intro found
    have same := List.find?_some found
    exact (beq_iff_eq.1 same).symm
  · rintro rfl
    exact ofCode?_code type

theorem Tag.ofCode_eq_ok_iff {c : Char} {type : Tag} : ofCode c = .ok type ↔ c = type.code := by
  rw [← ofCode?_eq_some_iff, ofCode]
  cases ofCode? c <;> simp

/-- Exactly the code point of a type's character stands for it. -/
theorem Tag.ofOrdinal_eq_some_iff {n : Nat} {type : Tag} :
    (scalar? n).bind ofCode? = some type ↔ n = type.code.toNat := by
  simp only [Option.bind_eq_some_iff, ofCode?_eq_some_iff, scalar?]
  constructor
  · rintro ⟨c, found, rfl⟩
    split at found
    next valid =>
      rw [← Option.some.inj found, Char.ofNat, dif_pos valid]
      rfl
    next => contradiction
  · rintro rfl
    have valid : type.code.toNat.isValidChar := type.code.valid
    exact ⟨_, by rw [if_pos valid, Char.ofNat_toNat], rfl⟩

/-- **Characters are read as types** exactly if they stand for them. -/
theorem Tag.mapM_ofCode_eq_ok_iff {cs : List Char} {types : List Tag} :
    cs.mapM ofCode = .ok types ↔ cs = types.map code := by
  simp only [mapM_eq_ok_iff, ofCode_eq_ok_iff]
  rw [← List.forall₂_eq_eq_eq, List.forall₂_map_right_iff]

namespace TypeSpec

theorem codes?_eq_none_iff {spec : TypeSpec} : spec.codes? = none ↔ spec = anyArgs := by
  simp [codes?, isAnyArgs]

theorem tags_eq_nil_iff {spec : TypeSpec} : spec.tags = [] ↔ spec = anyArgs ∨ spec = noArgs := by
  cases spec <;> simp [tags]

/-- A list of types is the signature that lists them; of no types, the signature of no arguments. -/
theorem eq_ofTags_iff {spec : TypeSpec} {types : List Tag} :
    spec = ofTags types ↔ spec.tags = types ∧ (spec = noArgs ↔ types = []) := by
  cases spec <;> cases types <;> simp [ofTags, tags]

/-- **Exactly the characters of a signature are read as it,** so it is read from its own, and no two
texts are read as one signature. -/
theorem parse_iff_codes? {codes : String} {spec : TypeSpec} :
    parse codes = .ok spec ↔ spec.codes? = some codes := by
  simp only [parse, map_eq_ok_iff, Tag.mapM_ofCode_eq_ok_iff]
  constructor
  · rintro ⟨types, written, rfl⟩
    have concrete : (ofTags types).isAnyArgs = false := by simp [isAnyArgs, ofTags_ne_anyArgs]
    rw [codes?, concrete, codeText, tags_ofTags, ← written, String.ofList_toList]
    rfl
  · intro written
    have concrete : spec ≠ anyArgs := by
      rintro rfl
      simp [codes?, isAnyArgs] at written
    obtain rfl : spec.codeText = codes := by simpa [codes?, isAnyArgs, concrete] using written
    refine ⟨spec.tags, by simp [codeText], ?_⟩
    cases spec with
    | anyArgs => contradiction
    | noArgs | typed => rfl

end TypeSpec

namespace Descriptor

/-! ## Reading leaves -/

mutual

theorem ne_list_of_mem_leaves {leaf : Descriptor} : (d : Descriptor) → leaf ∈ d.leaves →
    ∀ items, leaf ≠ list items
  | .list items => by
    rw [leaves]
    exact ne_list_of_mem_leavesEach items
  | .none | .codes _ | .ordinal _ | .tag _ | .marker _ | .bool _ | .float _ | .spec _ => by
    rw [leaves_of_ne_list, List.mem_singleton]
    · rintro rfl
      exact fun _ => nofun
    · exact fun _ => nofun

theorem ne_list_of_mem_leavesEach {leaf : Descriptor} : (each : List Descriptor) →
    leaf ∈ leavesEach each → ∀ items, leaf ≠ list items
  | [] => by simp [leavesEach]
  | item :: items => fun listed =>
    (List.mem_append.1 listed).elim (ne_list_of_mem_leaves item) (ne_list_of_mem_leavesEach items)

end

/-- **A leaf is read as the types that it names.** -/
theorem tags_eq_ok_iff {leaf : Descriptor} (single : ∀ items, leaf ≠ list items) {types : List Tag} :
    leaf.tags = .ok types ↔ leaf.Names types := by
  constructor
  · intro read
    cases leaf with
    | list items => exact absurd rfl (single items)
    | codes s =>
      have same := Tag.mapM_ofCode_eq_ok_iff.1 read
      rw [← String.ofList_toList (s := s), same]
      exact .codes types
    | ordinal n =>
      rw [tags] at read
      split at read
      next type found =>
        cases read
        exact .ordinal (Tag.ofOrdinal_eq_some_iff.1 found)
      next => contradiction
    | float x =>
      rw [tags] at read
      split at read
      next positive =>
        cases read
        obtain rfl : x = Binary.infinity := by simpa [Binary.isInfinity] using positive
        exact .infinity
      next => contradiction
    | spec s =>
      cases s with
      | typed first rest =>
        cases read
        exact .spec first rest
      | _ => contradiction
    | none | tag | marker | bool =>
      cases read
      constructor
  · intro names
    cases names with
    | codes =>
      rw [tags, String.toList_ofList]
      exact Tag.mapM_ofCode_eq_ok_iff.2 rfl
    | ordinal same => rw [tags, Tag.ofOrdinal_eq_some_iff.2 same]
    | infinity => rfl
    | none | tag | marker | bool | spec => rfl

/-- A leaf alone is read as it is among others. -/
theorem mapM_tags_singleton (leaf : Descriptor) :
    ([leaf].mapM tags).map List.flatten = leaf.tags := by
  rw [List.mapM_cons, List.mapM_nil]
  cases leaf.tags <;> simp [Except.map, bind, Except.bind]

mutual

/-- **A description is read as its leaves are,** one after the other. -/
theorem tags_eq_mapM_leaves : (d : Descriptor) →
    d.tags = (d.leaves.mapM tags).map List.flatten
  | .list items => by
    rw [tags, leaves]
    exact tagsEach_eq_mapM_leaves items
  | .none | .codes _ | .ordinal _ | .tag _ | .marker _ | .bool _ | .float _ | .spec _ => by
    rw [leaves_of_ne_list, mapM_tags_singleton]
    exact fun _ => nofun

/-- Descriptions are read as the leaves of all of them are. -/
theorem tagsEach_eq_mapM_leaves : (items : List Descriptor) →
    tagsEach items = ((leavesEach items).mapM tags).map List.flatten
  | [] => rfl
  | item :: items => by
    rw [tagsEach, leavesEach, tags_eq_mapM_leaves item, tagsEach_eq_mapM_leaves items, List.mapM_append]
    cases (leaves item).mapM tags with
    | error fault => rfl
    | ok first =>
      cases (leavesEach items).mapM tags with
      | error fault => rfl
      | ok others => simp [Except.map]

end

/-! ## What is described -/

variable {d d' : Descriptor}

/-- **The leaves are read** as the types that each of them names. -/
theorem mapM_leaves_eq_ok_iff {named : List (List Tag)} :
    d.leaves.mapM tags = .ok named ↔ List.Forall₂ Names d.leaves named := by
  have single : ∀ leaf ∈ d.leaves, ∀ items, leaf ≠ list items := fun _ => ne_list_of_mem_leaves d
  rw [mapM_eq_ok_iff]
  generalize d.leaves = leaves at single
  induction leaves generalizing named with
  | nil => simp
  | cons leaf leaves ih =>
    obtain ⟨own, others⟩ := List.forall_mem_cons.1 single
    simp only [List.forall₂_cons_left_iff, tags_eq_ok_iff own, ih others]

/-- What is a leaf is read exactly if it names types. -/
theorem exists_tags_iff {leaf : Descriptor} (listed : leaf ∈ d.leaves) :
    (∃ types, leaf.tags = .ok types) ↔ ∃ types, leaf.Names types :=
  exists_congr fun _ => tags_eq_ok_iff (ne_list_of_mem_leaves d listed)

/-- **The first leaf that names no types** is the fault, and there is no other. -/
theorem mapM_leaves_eq_error_iff {fault : Error} :
    d.leaves.mapM tags = .error fault ↔ ∃ front leaf back, d.leaves = front ++ leaf :: back ∧
      (∀ earlier ∈ front, ∃ types, earlier.Names types) ∧ leaf.tags = .error fault := by
  rw [mapM_eq_error_iff]
  refine exists_congr fun front => exists_congr fun leaf => exists_congr fun back =>
    and_congr_right fun pieces => and_congr_left fun _ => forall₂_congr fun earlier listed => ?_
  exact exists_tags_iff (pieces ▸ List.mem_append_left _ listed)

/-- Apart from the descriptions that mean more at the top, the signature is the types listed. -/
theorem ofDescriptor_eq (present : d ≠ none) (concrete : ∀ s, d ≠ spec s) :
    TypeSpec.ofDescriptor d = d.tags.map TypeSpec.ofTags := by
  cases d with
  | none => contradiction
  | spec s => exact absurd rfl (concrete s)
  | _ => rfl

/-- **Descriptions of the same leaves are read alike,** with the same signature or the same fault. -/
theorem ofDescriptor_congr (present : d ≠ none) (concrete : ∀ s, d ≠ spec s) (present' : d' ≠ none)
    (concrete' : ∀ s, d' ≠ spec s) (same : d.leaves = d'.leaves) :
    TypeSpec.ofDescriptor d = TypeSpec.ofDescriptor d' := by
  rw [ofDescriptor_eq present concrete, ofDescriptor_eq present' concrete', tags_eq_mapM_leaves, same,
    ← tags_eq_mapM_leaves]

/-- What is spliced is a list, before and after. -/
theorem Spliced.exists_lists (spliced : Spliced d d') :
    ∃ items items', d = list items ∧ d' = list items' := by
  cases spliced <;> exact ⟨_, _, rfl, rfl⟩

/-- **A description means what its leaves mean.** Nothing and signatures apart, which mean more at the
top, a signature is described if and only if every leaf names types, and it is the one that lists these
types from left to right; otherwise the first leaf that names none is the fault.  A list can be put into
the list around it with the same result or the same fault.  Every signature other than any arguments,
however it came about, is read from its own characters and from no others, and lists types unless it is
no arguments. -/
theorem described_by_leaves :
    (∀ d, d ≠ none → (∀ s, d ≠ spec s) →
      ((∃ described, TypeSpec.ofDescriptor d = .ok described) ↔
        ∀ leaf ∈ d.leaves, ∃ types, leaf.Names types) ∧
      (∀ described, TypeSpec.ofDescriptor d = .ok described ↔ ∃ named,
        List.Forall₂ Names d.leaves named ∧ described.tags = named.flatten ∧
          (described = .noArgs ↔ named.flatten = [])) ∧
      ∀ fault, TypeSpec.ofDescriptor d = .error fault ↔ ∃ front leaf back,
        d.leaves = front ++ leaf :: back ∧ (∀ earlier ∈ front, ∃ types, earlier.Names types) ∧
          leaf.tags = .error fault) ∧
    (∀ d d', Spliced d d' → TypeSpec.ofDescriptor d = TypeSpec.ofDescriptor d') ∧
    ∀ s : TypeSpec, (s.codes? = Option.none ↔ s = .anyArgs) ∧
      (∀ codes, s.codes? = some codes ↔ TypeSpec.parse codes = .ok s) ∧
      (s.tags = [] ↔ s = .anyArgs ∨ s = .noArgs) := by
  refine ⟨fun d present concrete => ?_, fun d d' spliced => ?_, fun s =>
    ⟨TypeSpec.codes?_eq_none_iff, fun _ => TypeSpec.parse_iff_codes?.symm, TypeSpec.tags_eq_nil_iff⟩⟩
  · rw [ofDescriptor_eq present concrete, tags_eq_mapM_leaves]
    refine ⟨?_, fun described => ?_, fun fault => ?_⟩
    · rw [exists_map_ok_iff, exists_map_ok_iff, exists_mapM_ok_iff]
      exact forall₂_congr fun leaf listed => exists_tags_iff listed
    · simp only [map_eq_ok_iff, mapM_leaves_eq_ok_iff, ← TypeSpec.eq_ofTags_iff]
      constructor
      · rintro ⟨_, ⟨named, each, rfl⟩, rfl⟩
        exact ⟨named, each, rfl⟩
      · rintro ⟨named, each, rfl⟩
        exact ⟨_, ⟨named, each, rfl⟩, rfl⟩
    · rw [map_eq_error_iff, map_eq_error_iff, mapM_leaves_eq_error_iff]
  · obtain ⟨items, items', rfl, rfl⟩ := spliced.exists_lists
    exact ofDescriptor_congr nofun (fun _ => nofun) nofun (fun _ => nofun) spliced.leaves_eq

/-- Lists inside lists, an empty one and no characters name nothing by themselves; no arguments inside a
list are a fault, met before the character behind them. -/
theorem described_by_leaves_nested :
    let nested := list [list [codes "ih", list []], none, codes "", list [list [float Binary.infinity]]]
    let spliced := list [codes "ih", list [], none, codes "", list [list [float Binary.infinity]]]
    let types := TypeSpec.typed .int32 [.int64, .nil, .infinitum]
    let faulty := list [bool true, list [spec .noArgs, codes "x"]]
    (TypeSpec.ofDescriptor nested = .ok types ∧ TypeSpec.ofDescriptor spliced = .ok types ∧
      TypeSpec.parse "ihNI" = .ok types) ∧
    TypeSpec.ofDescriptor faulty = .error (.nestedSentinel .noArgs) := by
  intro nested spliced types faulty
  obtain ⟨byLeaves, splicing, characters⟩ := described_by_leaves
  have named : List.Forall₂ Names nested.leaves
      [[.int32, .int64], [.nil], [], [.infinitum]] :=
    .cons (.codes [.int32, .int64]) (.cons .none (.cons (.codes []) (.cons .infinity .nil)))
  have described : TypeSpec.ofDescriptor nested = .ok types :=
    ((byLeaves nested nofun fun _ => nofun).2.1 types).2 ⟨_, named, rfl, by simp [types]⟩
  have same := splicing nested spliced
    (.here [] [codes "ih", list []] [none, codes "", list [list [float Binary.infinity]]])
  refine ⟨⟨described, same.symm.trans described, ((characters types).2.1 "ihNI").1 rfl⟩, ?_⟩
  refine ((byLeaves faulty nofun fun _ => nofun).2.2 _).2
    ⟨[bool true], spec .noArgs, [codes "x"], rfl, ?_, rfl⟩
  exact List.forall_mem_singleton.2 ⟨_, .bool true⟩

end Descriptor

end SoundControl
