import SoundControl.Proofs.Address.Containment
import SoundControl.Proofs.Address.Printable

/-! # A path from its addresses

The texts that stand for a path on the wire are the sources of its atoms, so that they say all there
is to say about it: each of them is read as one atom, and the union of what is read is the path, in
whatever order it is taken.

* **`Path.Built.parse_source`**, **`Path.Built.nodup_addresses`** — each atom is read from its source,
  and no two have the same one.
* **`Path.contains_foldl_union`**, **`Path.Built.foldl_union`** — the union of several paths.
* **`Path.Built.foldl_union_eq`** — the atoms of a path, in any order and however often, have the path
  as their union.
* **`Path.addresses_recover`** — the path from its addresses. -/

namespace SoundControl.Address.Path

variable {p : Path}

/-! ## Texts read one by one -/

/-- **An atom of a path that can be made** is the path that its source is read as. -/
theorem Built.parse_source (built : p.Built) {atom : Atom} (listed : atom ∈ p.atoms) :
    parse atom.source = .ok (.single atom) := by
  rw [parse, built.parse_atom listed]
  rfl

/-- What is read from an address of a path is one of its atoms. -/
theorem Built.parse_text_iff (built : p.Built) {text : String} (listed : text ∈ p.addresses)
    {q : Path} : parse text = .ok q ↔ ∃ atom ∈ p.atoms, atom.source = text ∧ q = .single atom := by
  obtain ⟨atom, member, rfl⟩ := List.mem_map.1 listed
  constructor
  · intro read
    rw [built.parse_source member] at read
    exact ⟨atom, member, rfl, (Except.ok.inj read).symm⟩
  · rintro ⟨other, member', same, rfl⟩
    rw [← same, built.parse_source member']

/-- **No two atoms have the same source,** so no address stands there twice. -/
theorem Built.nodup_addresses (built : p.Built) : p.addresses.Nodup := by
  apply List.Nodup.map_on _ built.normal.reduced.ascending.nodup
  intro first listed second listed' same
  have again := built.parse_atom listed
  rw [same, built.parse_atom listed'] at again
  exact (Except.ok.inj again).symm

/-- **What is read from the addresses of a path,** in any order, are its atoms. -/
theorem Built.mem_iff_of_read (built : p.Built) {texts : List String} {paths : List Path}
    (order : texts.Perm p.addresses) (read : texts.mapM parse = .ok paths) {q : Path} :
    q ∈ paths ↔ ∃ atom ∈ p.atoms, q = .single atom := by
  rw [mem_of_mapM_eq_ok read]
  constructor
  · rintro ⟨text, listed, one⟩
    obtain ⟨atom, member, -, same⟩ := (built.parse_text_iff (order.mem_iff.1 listed)).1 one
    exact ⟨atom, member, same⟩
  · rintro ⟨atom, member, rfl⟩
    exact ⟨atom.source, order.mem_iff.2 (List.mem_map_of_mem member), built.parse_source member⟩

/-- An address is covered by what is read from one of the texts. -/
theorem Built.covers_iff_exists_text (built : p.Built) (notAny : p.isAny = false) {address : String} :
    p.covers address = true ↔
      ∃ text ∈ p.addresses, ∃ q, parse text = .ok q ∧ q.covers address = true := by
  rw [covers_iff_exists_atom notAny]
  constructor
  · rintro ⟨atom, member, covered⟩
    exact ⟨atom.source, List.mem_map_of_mem member, _, built.parse_source member, covered⟩
  · rintro ⟨text, listed, q, read, covered⟩
    obtain ⟨atom, member, -, rfl⟩ := (built.parse_text_iff listed).1 read
    exact ⟨atom, member, covered⟩

/-! ## Several paths put together -/

/-- The union of several paths is contained where each of them is. -/
theorem contains_foldl_union {c first : Path} {others : List Path} :
    c.contains (others.foldl union first) = true ↔ ∀ q ∈ first :: others, c.contains q = true := by
  induction others generalizing first with
  | nil => simp
  | cons second others ih =>
    rw [List.foldl_cons, ih]
    simp only [List.forall_mem_cons, contains_of_union, and_assoc]

theorem Built.foldl_union {first : Path} {others : List Path} (each : ∀ q ∈ first :: others, q.Built) :
    (others.foldl Path.union first).Built := by
  induction others generalizing first with
  | nil => exact each first List.mem_cons_self
  | cons second others ih =>
    rw [List.forall_mem_cons, List.forall_mem_cons] at each
    exact ih (List.forall_mem_cons.2 ⟨each.1.union each.2.1, each.2.2⟩)

/-- **The union of the atoms of a path is the path,** in any order and however often they are taken. -/
theorem Built.foldl_union_eq (built : p.Built) (notAny : p.isAny = false) {first : Path}
    {others : List Path}
    (taken : ∀ q, q ∈ first :: others ↔ ∃ atom ∈ p.atoms, q = .single atom) :
    others.foldl Path.union first = p := by
  have each : ∀ q ∈ first :: others, q.Built := by
    intro q listed
    obtain ⟨atom, member, rfl⟩ := (taken q).1 listed
    exact .parsed (built.parse_source member)
  -- Two paths are equal as soon as the same paths contain them.
  apply (Built.foldl_union each).normal.eq_of_containers built.normal
  intro c
  rw [contains_foldl_union, contains_iff_forall_atom notAny]
  constructor
  · intro contained atom member
    exact contained (.single atom) ((taken _).2 ⟨atom, member, rfl⟩)
  · intro contained q listed
    obtain ⟨atom, member, rfl⟩ := (taken q).1 listed
    exact contained atom member

/-- **A path is recovered from its addresses.** There is at least one, none stands there twice, and
each can be read.  Read in any order and put together, they are the path again; and the path covers
an address if and only if what is read from one of them does. -/
theorem addresses_recover (built : p.Built) (notAny : p.isAny = false) :
    p.addresses ≠ [] ∧ p.addresses.Nodup ∧
    (∀ text ∈ p.addresses, ∃ q, parse text = .ok q) ∧
    (∀ texts : List String, texts.Perm p.addresses →
      ∃ first others, texts.mapM parse = .ok (first :: others) ∧
        others.foldl Path.union first = p) ∧
    ∀ address : String, p.covers address = true ↔
      ∃ text ∈ p.addresses, ∃ q, parse text = .ok q ∧ q.covers address = true := by
  have filled := atoms_ne_nil notAny
  have readable : ∀ text ∈ p.addresses, ∃ q, parse text = .ok q := by
    intro text listed
    obtain ⟨atom, member, rfl⟩ := List.mem_map.1 listed
    exact ⟨_, built.parse_source member⟩
  refine ⟨fun empty => filled (List.map_eq_nil_iff.1 empty), built.nodup_addresses, readable, ?_,
    fun _ => built.covers_iff_exists_text notAny⟩
  intro texts order
  obtain ⟨paths, read⟩ := exists_mapM_ok_iff.2 fun text listed =>
    readable text (order.mem_iff.1 listed)
  cases paths with
  | nil =>
    obtain ⟨atom, member⟩ := List.exists_mem_of_ne_nil _ filled
    exact absurd ((built.mem_iff_of_read order read).2 ⟨atom, member, rfl⟩) List.not_mem_nil
  | cons first others =>
    exact ⟨first, others, read, built.foldl_union_eq notAny fun _ => built.mem_iff_of_read order read⟩

/-- A union that has dropped the literal which its pattern matches, read again from the back. -/
theorem addresses_recover_pattern_and_literals :
    let p := ((single (.pattern ⟨"/a*", [.parts [.literal ['a'], .wildcard]], by rfl⟩)).union
      (.single (.literal "/ab"))).union ((single (.literal "/z")).union (.single (.literal "/b")))
    let texts := ["/a*", "/z", "/b"]
    (p.Built ∧ p.isAny = false ∧ texts.Perm p.addresses) ∧ p.addresses = ["/b", "/z", "/a*"] ∧
      (∃ first others, texts.mapM parse = .ok (first :: others) ∧
        others.foldl Path.union first = p) ∧
      ∃ text ∈ p.addresses, ∃ q, parse text = .ok q ∧ q.covers "/ab" = true := by
  intro p texts
  have built : p.Built :=
    .union (.union (@Built.parsed "/a*" _ (by rfl)) (@Built.parsed "/ab" _ (by rfl)))
      (.union (@Built.parsed "/z" _ (by rfl)) (@Built.parsed "/b" _ (by rfl)))
  have notAny : p.isAny = false := by decide +kernel
  have listed : p.addresses = ["/b", "/z", "/a*"] := by decide +kernel
  have order : texts.Perm p.addresses := by
    rw [listed]
    decide
  obtain ⟨-, -, -, joined, covers⟩ := addresses_recover built notAny
  exact ⟨⟨built, notAny, order⟩, listed, joined texts order, (covers "/ab").1 (by decide +kernel)⟩

end SoundControl.Address.Path
