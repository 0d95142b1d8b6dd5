import SoundControl.Address.Pattern

/-!
# Paths

A path says which addresses are meant: all of them, one literal address, the addresses of one
pattern, or those of several literals and patterns together.

* **`Atom`** — a literal address or a pattern; literals come before patterns, each in text order.
* **`Several`** — two or more atoms.
* **`Path`** — everything, one atom, or a union of atoms in ascending order.
* **`Path.covers`** — the addresses meant.
* **`Path.contains`** — a pattern contains the literals it matches and itself; the path of all
  addresses contains every path and is contained only by itself.
* **`Path.union`** — the path of the addresses that either path means.
* **`Path.addresses`** — the texts that stand for a path on the wire.

A literal address is kept as it was written and compared character by character, so a backslash
in it stands for itself.
-/

namespace SoundControl.Address

/-- A path that is neither everything nor a union. -/
inductive Atom where
  /-- An address without pattern productions, as written. -/
  | literal (text : String)
  /-- An address pattern. -/
  | pattern (pattern : Pattern)
  deriving DecidableEq

namespace Atom

/-- The text the atom was read from. -/
def source : Atom → String
  | .literal text => text
  | .pattern p => p.source

/-- A pattern rather than a literal. -/
def isPattern : Atom → Bool
  | .literal _ => false
  | .pattern _ => true

/-- Whether an address is meant. -/
def covers (address : String) : Atom → Bool
  | .literal text => text == address
  | .pattern p => p.covers address

/-- Literals before patterns, in text order among themselves. -/
instance : Ord Atom where
  compare
    | .literal s, .literal t => compare s t
    | .literal _, .pattern _ => .lt
    | .pattern _, .literal _ => .gt
    | .pattern p, .pattern q => compare p q

/-- Read an address: a pattern if it has a pattern production, else a literal. -/
def parse (source : String) : Except Fault Atom :=
  (Pattern.compile source).map fun p => if p.isPattern then .pattern p else .literal source

/-- Put an atom into an ascending list, once. -/
def insert (a : Atom) : List Atom → List Atom
  | [] => [a]
  | b :: bs =>
    match compare a b with
    | .lt => a :: b :: bs
    | .eq => b :: bs
    | .gt => b :: insert a bs

theorem insert_ne_nil (a : Atom) (as : List Atom) : a.insert as ≠ [] := by
  cases as with
  | nil => exact List.cons_ne_nil _ _
  | cons b bs =>
    rw [insert]
    split <;> exact List.cons_ne_nil _ _

end Atom

/-- **Two or more atoms.** -/
@[ext] structure Several where
  /-- The atoms. -/
  atoms : List Atom
  /-- An atom alone is a path of its own, and no atom at all is none. -/
  two : 2 ≤ atoms.length
  deriving DecidableEq

/-- **The addresses a route is about.** -/
inductive Path where
  /-- Every address. -/
  | any
  /-- One literal or one pattern. -/
  | single (atom : Atom)
  /-- A union of atoms, ascending. -/
  | several (union : Several)
  deriving DecidableEq

namespace Path

/-- Read an address as a path. -/
def parse (source : String) : Except Fault Path := (Atom.parse source).map .single

/-- The atoms of a path; none for the path of all addresses. -/
def atoms : Path → List Atom
  | .any => []
  | .single a => [a]
  | .several union => union.atoms

/-- A pattern or a union, rather than a literal or everything. -/
def isPattern : Path → Bool
  | .any => false
  | .single a => a.isPattern
  | .several _ => true

/-- The path of all addresses. -/
def isAny : Path → Bool
  | .any => true
  | _ => false

/-- The literal address, if this is one. -/
def asLiteral? : Path → Option String
  | .single (.literal text) => some text
  | _ => none

/-- **Whether an address is meant.** -/
def covers (address : String) : Path → Bool
  | .any => true
  | .single a => a.covers address
  | .several union => union.atoms.any (·.covers address)

/-- Whether an atom is contained: a literal if it is matched, a pattern if it is listed. -/
def containsAtom (p : Path) : Atom → Bool
  | .literal text => p.covers text
  | .pattern q => p.isAny || p.atoms.contains (.pattern q)

/-- **Whether every address of `q` is one of `p`,** decided atom by atom. -/
def contains (p q : Path) : Bool :=
  match q with
  | .any => p.isAny
  | .single a => p.containsAtom a
  | .several union => p.isAny || union.atoms.all p.containsAtom

/-- Only the path of all addresses has no atoms. -/
theorem atoms_ne_nil {p : Path} (notAny : p.isAny = false) : p.atoms ≠ [] := by
  cases p with
  | any => contradiction
  | single atom => exact List.cons_ne_nil _ _
  | several union =>
    intro empty
    have two := union.two
    rw [show union.atoms = [] from empty] at two
    contradiction

/-- The path of a list of ascending atoms. -/
def ofAtoms : (as : List Atom) → as ≠ [] → Path
  | [], nonempty => absurd rfl nonempty
  | [a], _ => .single a
  | a :: b :: as, _ => .several ⟨a :: b :: as, Nat.le_add_left 2 as.length⟩

/-- Drop the literals that a pattern of the same list matches. -/
def dropCovered (as : List Atom) : List Atom :=
  as.filter fun
    | .literal text => !as.any fun a => a.isPattern && a.covers text
    | .pattern _ => true

/-- The atoms of either path, but for the literals that a pattern of either matches. -/
def joined (p q : Path) : List Atom :=
  dropCovered (q.atoms.foldl (fun as a => a.insert as) p.atoms)

theorem foldl_insert_ne_nil {as : List Atom} (nonempty : as ≠ []) (bs : List Atom) :
    bs.foldl (fun as a => a.insert as) as ≠ [] := by
  induction bs generalizing as with
  | nil => exact nonempty
  | cons b bs ih => exact ih (b.insert_ne_nil as)

/-- Something is kept of what was there: a literal that is dropped was matched by a pattern, and no
pattern is dropped. -/
theorem dropCovered_ne_nil {as : List Atom} (nonempty : as ≠ []) : dropCovered as ≠ [] := by
  intro dropped
  rw [dropCovered, List.filter_eq_nil_iff] at dropped
  -- So there were literals alone, and none of them is dropped without a pattern.
  have noPattern (p : Pattern) : .pattern p ∉ as := fun listed => dropped _ listed rfl
  obtain ⟨a, listed⟩ := List.exists_mem_of_ne_nil as nonempty
  cases a with
  | pattern p => exact noPattern p listed
  | literal text =>
    have matched : as.any (fun a => a.isPattern && a.covers text) = true := by
      simpa using dropped _ listed
    obtain ⟨b, among, covered⟩ := List.any_eq_true.1 matched
    cases b with
    | pattern p => exact noPattern p among
    | literal other => contradiction

theorem joined_ne_nil {p q : Path} (notAny : ¬(p.isAny || q.isAny)) : p.joined q ≠ [] := by
  obtain ⟨notAny, -⟩ : p.isAny = false ∧ q.isAny = false := by simpa using notAny
  exact dropCovered_ne_nil (foldl_insert_ne_nil (atoms_ne_nil notAny) q.atoms)

/-- **The path of the addresses that either path means.** -/
def union (p q : Path) : Path :=
  if notAny : p.isAny || q.isAny then .any else ofAtoms (p.joined q) (joined_ne_nil notAny)

/-- **The texts that stand for the path on the wire.** None for the path of all addresses, which
cannot be sent to. -/
def addresses (p : Path) : List String := p.atoms.map Atom.source

/-- The path as shown to people. -/
def text : Path → String
  | .any => "//*"
  | .single a => a.source
  | .several union => String.intercalate " | " (union.atoms.map Atom.source)

/-- Everything first, then single atoms, then unions, which compare atom by atom. -/
instance : Ord Path where
  compare
    | .any, .any => .eq
    | .any, _ => .lt
    | _, .any => .gt
    | .single a, .single b => compare a b
    | .single _, .several _ => .lt
    | .several _, .single _ => .gt
    | .several u, .several v => compare u.atoms v.atoms

end Path

end SoundControl.Address
