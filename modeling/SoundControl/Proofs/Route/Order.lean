import SoundControl.Proofs.Address.NormalForm
import SoundControl.Route

/-! # The order of routes

Routes are listed in the order of their paths and, for one path, of their signatures.  Both are
compared part by part, and routes that compare equal are equal.

* **`Tag`**, **`TypeSpec`**, **`Path`**, **`Route`** — instances of `Std.TransOrd` and
  `Std.LawfulEqOrd`. -/

namespace SoundControl

open Address

/-! ## Types and signatures -/

instance : Std.TransOrd Tag := inferInstanceAs (Std.TransCmp (compareOn Tag.code))

/-- Types with one character are the same. -/
theorem Tag.code_injective : Function.Injective Tag.code := fun s t same => by
  simpa using congrArg Tag.ofCode? same

instance : Std.LawfulEqOrd Tag where
  compare_self {t} := Std.compare_self (α := Char) (a := t.code)
  eq_of_compare {s t} h :=
    Tag.code_injective (Std.LawfulEqOrd.eq_of_compare (a := s.code) (b := t.code) h)

instance : Std.TransOrd TypeSpec where
  eq_swap {s t} := by
    cases s <;> cases t
    case typed.typed => exact Std.OrientedOrd.eq_swap (α := List Tag)
    all_goals rfl
  isLE_trans {s t u} hst htu := by
    cases s <;> cases t <;> cases u
    case typed.typed.typed => exact Std.TransOrd.isLE_trans (α := List Tag) hst htu
    all_goals first | rfl | contradiction

instance : Std.LawfulEqOrd TypeSpec where
  compare_self {s} := by
    cases s
    case typed first rest => exact Std.compare_self (a := first :: rest)
    all_goals rfl
  eq_of_compare {s t} h := by
    cases s <;> cases t
    case typed.typed first rest first' rest' =>
      obtain ⟨rfl, rfl⟩ := List.cons.inj (Std.LawfulEqOrd.eq_of_compare (α := List Tag)
        (a := first :: rest) (b := first' :: rest') h)
      rfl
    all_goals first | rfl | contradiction

/-! ## Paths -/

instance : Std.TransOrd Path where
  eq_swap {p q} := by
    cases p <;> cases q
    case single.single => exact Std.OrientedOrd.eq_swap (α := Atom)
    case several.several => exact Std.OrientedOrd.eq_swap (α := List Atom)
    all_goals rfl
  isLE_trans {p q r} hpq hqr := by
    cases p <;> cases q <;> cases r
    case single.single.single => exact Std.TransOrd.isLE_trans (α := Atom) hpq hqr
    case several.several.several => exact Std.TransOrd.isLE_trans (α := List Atom) hpq hqr
    all_goals first | rfl | contradiction

instance : Std.LawfulEqOrd Path where
  compare_self {p} := by
    cases p
    case any => rfl
    case single atom => exact Std.compare_self (a := atom)
    case several union => exact Std.compare_self (a := union.atoms)
  eq_of_compare {p q} h := by
    cases p <;> cases q
    case single.single a b => exact congrArg Path.single (Std.LawfulEqOrd.eq_of_compare h)
    case several.several u v =>
      exact congrArg Path.several (Several.ext (Std.LawfulEqOrd.eq_of_compare h))
    all_goals first | rfl | contradiction

/-! ## Routes -/

instance : Std.TransOrd Route :=
  inferInstanceAs (Std.TransCmp (compareLex (compareOn Route.path) (compareOn Route.spec)))

instance : Std.LawfulEqOrd Route where
  compare_self {r} := by
    show (compare r.path r.path).then (compare r.spec r.spec) = .eq
    rw [Std.compare_self, Std.compare_self]
    rfl
  eq_of_compare {r q} h := by
    obtain ⟨path, spec⟩ := Ordering.then_eq_eq.1 h
    cases r
    cases q
    congr
    · exact Std.LawfulEqOrd.eq_of_compare path
    · exact Std.LawfulEqOrd.eq_of_compare spec

end SoundControl
