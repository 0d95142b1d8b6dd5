import Mathlib.Data.List.Sort
import SoundControl.Address.Path
import SoundControl.Proofs.Outcome

/-! # The normal form of paths

A path made by reading and union keeps its atoms in ascending order and without literals that one of
its patterns matches anyway, so it is given by the set of its atoms.

* **`Path.Built`** — the paths made from the path of all addresses, by reading, and by union.
* **`Reduced`**, **`Path.Normal`** — the normal form of lists of atoms and of paths.
* **`mem_atoms_union_literal`**, **`mem_atoms_union_pattern`** — the atoms of a union.
* **`Path.Normal.ext`** — paths in normal form with the same atoms are equal.
* **`Path.Built.normal`** — every path so made is in normal form. -/

namespace SoundControl.Address

/-! ## The order of atoms -/

instance : Std.TransOrd Pattern where
  eq_swap {p q} := Std.OrientedOrd.eq_swap (α := String) (a := p.source) (b := q.source)
  isLE_trans {p q r} :=
    Std.TransOrd.isLE_trans (α := String) (a := p.source) (b := q.source) (c := r.source)

instance : Std.LawfulEqOrd Pattern where
  compare_self {p} := Std.compare_self (α := String) (a := p.source)
  eq_of_compare {p q} h :=
    Pattern.ext (Std.LawfulEqOrd.eq_of_compare (a := p.source) (b := q.source) h)

instance : Std.TransOrd Atom where
  eq_swap {a b} := by
    cases a <;> cases b
    case literal.literal => exact Std.OrientedOrd.eq_swap (α := String)
    case pattern.pattern => exact Std.OrientedOrd.eq_swap (α := Pattern)
    all_goals rfl
  isLE_trans {a b c} hab hbc := by
    cases a <;> cases b <;> cases c
    case literal.literal.literal => exact Std.TransOrd.isLE_trans (α := String) hab hbc
    case pattern.pattern.pattern => exact Std.TransOrd.isLE_trans (α := Pattern) hab hbc
    all_goals first | rfl | contradiction

instance : Std.LawfulEqOrd Atom where
  compare_self {a} := by
    cases a
    case literal text => exact Std.compare_self (a := text)
    case pattern p => exact Std.compare_self (a := p)
  eq_of_compare {a b} h := by
    cases a <;> cases b
    case literal.literal s t => exact congrArg Atom.literal (Std.LawfulEqOrd.eq_of_compare h)
    case pattern.pattern p q => exact congrArg Atom.pattern (Std.LawfulEqOrd.eq_of_compare h)
    all_goals contradiction

/-! ## Ascending lists -/

/-- **In ascending order,** each atom once. -/
def Ascending (as : List Atom) : Prop := as.Pairwise fun a b => compare a b = .lt

/-- Ascending lists with the same atoms are equal. -/
theorem Ascending.eq_of_mem_iff {as bs : List Atom} (has : Ascending as) (hbs : Ascending bs)
    (same : ∀ a, a ∈ as ↔ a ∈ bs) : as = bs := by
  have : Std.Irrefl fun a b : Atom => compare a b = .lt :=
    ⟨fun a h => by rw [Std.compare_self] at h; contradiction⟩
  have : Std.Antisymm fun a b : Atom => compare a b = .lt :=
    ⟨fun a b hab hba => by rw [Std.OrientedOrd.eq_swap, hba] at hab; contradiction⟩
  exact List.Pairwise.eq_of_mem_iff has hbs same

/-- An ascending list has no atom twice. -/
theorem Ascending.nodup {as : List Atom} (has : Ascending as) : as.Nodup :=
  has.imp fun less same => by
    rw [same, Std.compare_self] at less
    contradiction

/-- Putting an atom into a list adds that atom. -/
@[simp] theorem mem_insert {a b : Atom} {as : List Atom} : b ∈ a.insert as ↔ b = a ∨ b ∈ as := by
  induction as with
  | nil => simp [Atom.insert]
  | cons c cs ih =>
    rw [Atom.insert]
    split
    next => exact List.mem_cons
    next same => rw [Std.LawfulEqOrd.eq_of_compare same]; simp
    next => rw [List.mem_cons, ih, List.mem_cons, or_left_comm]

/-- Putting an atom into an ascending list keeps it ascending. -/
theorem Ascending.insert {as : List Atom} (has : Ascending as) (a : Atom) :
    Ascending (a.insert as) := by
  induction as with
  | nil => exact List.pairwise_singleton _ _
  | cons c cs ih =>
    obtain ⟨least, hcs⟩ := List.pairwise_cons.1 has
    rw [Atom.insert]
    split
    next before =>
      refine List.pairwise_cons.2 ⟨fun b hb => ?_, has⟩
      rcases List.mem_cons.1 hb with rfl | hb
      · exact before
      · exact Std.TransCmp.lt_trans before (least b hb)
    next => exact has
    next behind =>
      refine List.pairwise_cons.2 ⟨fun b hb => ?_, ih hcs⟩
      rcases mem_insert.1 hb with rfl | hb
      · rw [Std.OrientedOrd.eq_swap, behind]; rfl
      · exact least b hb

/-- The atoms of both lists, one list put into the other. -/
theorem mem_foldl_insert {b : Atom} {as bs : List Atom} :
    b ∈ bs.foldl (fun as a => a.insert as) as ↔ b ∈ as ∨ b ∈ bs := by
  induction bs generalizing as with
  | nil => simp
  | cons c cs ih => rw [List.foldl_cons, ih, mem_insert, List.mem_cons, or_comm (a := b = c), or_assoc]

theorem Ascending.foldl_insert {as : List Atom} (has : Ascending as) (bs : List Atom) :
    Ascending (bs.foldl (fun as a => a.insert as) as) := by
  induction bs generalizing as with
  | nil => exact has
  | cons c cs ih => exact ih (has.insert c)

/-! ## Literals that a pattern matches -/

/-- A pattern of the list matches the address. -/
def PatternCovers (as : List Atom) (address : String) : Prop :=
  ∃ p, .pattern p ∈ as ∧ p.covers address = true

theorem any_pattern_covers {as : List Atom} {address : String} :
    as.any (fun a => a.isPattern && a.covers address) = true ↔ PatternCovers as address := by
  rw [List.any_eq_true]
  constructor
  · rintro ⟨a, ha, covered⟩
    cases a with
    | literal text => simp [Atom.isPattern] at covered
    | pattern p => exact ⟨p, ha, by simpa [Atom.isPattern, Atom.covers] using covered⟩
  · rintro ⟨p, hp, covered⟩
    exact ⟨.pattern p, hp, by simpa [Atom.isPattern, Atom.covers] using covered⟩

/-- All patterns are kept. -/
theorem mem_dropCovered_pattern {as : List Atom} {p : Pattern} :
    .pattern p ∈ Path.dropCovered as ↔ .pattern p ∈ as := by
  simp [Path.dropCovered]

/-- A literal is kept unless a pattern matches it. -/
theorem mem_dropCovered_literal {as : List Atom} {text : String} :
    .literal text ∈ Path.dropCovered as ↔ .literal text ∈ as ∧ ¬ PatternCovers as text := by
  rw [Path.dropCovered, List.mem_filter, ← any_pattern_covers]
  simp

/-- **A list of atoms in normal form:** ascending, and no literal is matched by a pattern. -/
structure Reduced (as : List Atom) : Prop where
  /-- The atoms are in order. -/
  ascending : Ascending as
  /-- No pattern matches a literal. -/
  apart : ∀ text, .literal text ∈ as → ¬ PatternCovers as text

theorem reduced_singleton (a : Atom) : Reduced [a] where
  ascending := List.pairwise_singleton _ _
  apart text listed := by
    rintro ⟨p, pattern, -⟩
    rw [List.mem_singleton] at listed pattern
    exact Atom.noConfusion (listed.trans pattern.symm)

/-- Without the literals that are matched, an ascending list is in normal form. -/
theorem Ascending.reduced_dropCovered {as : List Atom} (has : Ascending as) :
    Reduced (Path.dropCovered as) where
  ascending := has.filter _
  apart text listed := by
    rintro ⟨p, pattern, covered⟩
    exact (mem_dropCovered_literal.1 listed).2 ⟨p, mem_dropCovered_pattern.1 pattern, covered⟩

namespace Path

variable {a b : Path}

/-! ## Paths in normal form -/

/-- **The normal form of a path:** the atoms of a union are in normal form. -/
def Normal : Path → Prop
  | .several union => Reduced union.atoms
  | _ => True

@[simp] theorem atoms_ofAtoms {as : List Atom} (nonempty : as ≠ []) :
    (ofAtoms as nonempty).atoms = as := by
  unfold ofAtoms
  split
  · contradiction
  · rfl
  · rfl

@[simp] theorem isAny_ofAtoms {as : List Atom} (nonempty : as ≠ []) :
    (ofAtoms as nonempty).isAny = false := by
  unfold ofAtoms
  split
  · contradiction
  · rfl
  · rfl

theorem eq_any_of_isAny (all : a.isAny = true) : a = .any := by
  cases a <;> simp [isAny] at all
  rfl

theorem normal_ofAtoms {as : List Atom} (nonempty : as ≠ []) (reduced : Reduced as) :
    (ofAtoms as nonempty).Normal := by
  match as with
  | [] => contradiction
  | [a] => trivial
  | _ :: _ :: _ => exact reduced

/-- The atoms of a path in normal form are in normal form. -/
theorem Normal.reduced (normal : a.Normal) : Reduced a.atoms := by
  cases a with
  | any => exact ⟨List.Pairwise.nil, fun _ listed => by simp [atoms] at listed⟩
  | single atom => exact reduced_singleton atom
  | several union => exact normal

/-- A path is given by its atoms. -/
theorem ofAtoms_atoms (notAny : a.isAny = false) : ofAtoms a.atoms (atoms_ne_nil notAny) = a := by
  cases a with
  | any => contradiction
  | single atom => rfl
  | several union =>
    obtain ⟨_ | ⟨_, _ | ⟨_, _⟩⟩, two⟩ := union
    · contradiction
    · contradiction
    · rfl

/-- **Paths in normal form with the same atoms are equal.** -/
theorem Normal.ext (ha : a.Normal) (hb : b.Normal) (same : a.isAny = b.isAny)
    (listed : a.isAny = false → ∀ atom, atom ∈ a.atoms ↔ atom ∈ b.atoms) : a = b := by
  cases all : a.isAny with
  | true => rw [eq_any_of_isAny all, eq_any_of_isAny (same.symm.trans all)]
  | false =>
    have atoms := ha.reduced.ascending.eq_of_mem_iff hb.reduced.ascending (listed all)
    have all' : b.isAny = false := same.symm.trans all
    calc a = ofAtoms a.atoms (atoms_ne_nil all) := (ofAtoms_atoms all).symm
      _ = ofAtoms b.atoms (atoms_ne_nil all') := by simp only [atoms]
      _ = b := ofAtoms_atoms all'

/-! ## The atoms of a union -/

@[simp] theorem isAny_union : (a.union b).isAny = (a.isAny || b.isAny) := by
  unfold union
  split
  next all => rw [all]; rfl
  next notAny => rw [isAny_ofAtoms]; simpa using notAny

/-- The atoms of a union are those of both sides, without the literals that are matched. -/
theorem atoms_union (notAny : (a.union b).isAny = false) : (a.union b).atoms =
    dropCovered (b.atoms.foldl (fun as atom => atom.insert as) a.atoms) := by
  rw [isAny_union] at notAny
  rw [union, dif_neg (by simp [notAny]), atoms_ofAtoms, joined]

/-- A union has the patterns of both sides. -/
theorem mem_atoms_union_pattern (notAny : (a.union b).isAny = false) {p : Pattern} :
    .pattern p ∈ (a.union b).atoms ↔ .pattern p ∈ a.atoms ∨ .pattern p ∈ b.atoms := by
  rw [atoms_union notAny, mem_dropCovered_pattern, mem_foldl_insert]

/-- What the patterns of a union match is what those of its sides match. -/
theorem patternCovers_union (notAny : (a.union b).isAny = false) {address : String} :
    PatternCovers (a.union b).atoms address ↔
      PatternCovers a.atoms address ∨ PatternCovers b.atoms address := by
  simp only [PatternCovers, mem_atoms_union_pattern notAny, or_and_right, exists_or]

/-- A union has the literals of both sides that no pattern of either side matches. -/
theorem mem_atoms_union_literal (notAny : (a.union b).isAny = false) {text : String} :
    .literal text ∈ (a.union b).atoms ↔ (.literal text ∈ a.atoms ∨ .literal text ∈ b.atoms) ∧
      ¬ (PatternCovers a.atoms text ∨ PatternCovers b.atoms text) := by
  rw [atoms_union notAny, mem_dropCovered_literal, mem_foldl_insert]
  simp only [PatternCovers, mem_foldl_insert, or_and_right, exists_or]

/-- A union is in normal form if what it begins with is. -/
theorem Normal.union (ha : a.Normal) : (a.union b).Normal := by
  unfold Path.union
  split
  next => trivial
  next => exact normal_ofAtoms _ (ha.reduced.ascending.foldl_insert _).reduced_dropCovered

/-! ## Paths that can be made -/

/-- **The paths made** from the path of all addresses, by reading a text, and by union. -/
inductive Built : Path → Prop where
  /-- All addresses. -/
  | any : Built .any
  /-- A path that was read. -/
  | parsed {source : String} {path : Path} : parse source = .ok path → Built path
  /-- A union. -/
  | union {p q : Path} : Built p → Built q → Built (p.union q)

/-- What is read is a single atom. -/
theorem exists_single_of_parse {source : String} {path : Path} (read : parse source = .ok path) :
    ∃ atom, Atom.parse source = .ok atom ∧ path = .single atom := by
  obtain ⟨atom, parsed, same⟩ := map_eq_ok_iff.1 read
  exact ⟨atom, parsed, same.symm⟩

/-- **Every path that can be made is in normal form.** -/
theorem Built.normal (built : a.Built) : a.Normal := by
  induction built with
  | any => trivial
  | parsed read =>
    obtain ⟨atom, -, rfl⟩ := exists_single_of_parse read
    trivial
  | union _ _ ihp _ => exact ihp.union

end Path

end SoundControl.Address
