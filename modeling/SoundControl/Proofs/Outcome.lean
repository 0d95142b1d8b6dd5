import Mathlib.Data.List.Forall2

/-! # Computations that can fail

What succeeds as a whole succeeds in each of its parts.

* **`ok_bind`**, **`pure_eq_ok`** — going on after success.
* **`bind_eq_ok_iff`**, **`map_eq_ok_iff`**, **`map_eq_error_iff`** — a computation of two parts, and a
  result that is changed.
* **`mapM_eq_ok_iff`**, **`mem_of_mapM_eq_ok`**, **`exists_mapM_ok_iff`**, **`exists_mapM_error_iff`**,
  **`mapM_eq_error_iff`** — a computation for each item of a list. -/

namespace SoundControl

variable {α β ε : Type}

@[simp] theorem ok_bind (a : α) (second : α → Except ε β) : Except.ok a >>= second = second a := rfl

@[simp] theorem pure_eq_ok (a : α) : (pure a : Except ε α) = .ok a := rfl

@[simp] theorem throw_ne_ok (fault : ε) (a : α) : (throw fault : Except ε α) ≠ .ok a := nofun

/-- What succeeds in two parts succeeds in the first, and then in the second. -/
theorem bind_eq_ok_iff {first : Except ε α} {second : α → Except ε β} {b : β} :
    first >>= second = .ok b ↔ ∃ a, first = .ok a ∧ second a = .ok b := by
  cases first with
  | error fault => simp [bind, Except.bind]
  | ok a => simp

/-- What succeeds and is changed has succeeded. -/
theorem map_eq_ok_iff {first : Except ε α} {f : α → β} {b : β} :
    first.map f = .ok b ↔ ∃ a, first = .ok a ∧ f a = b := by
  cases first <;> simp [Except.map]

theorem exists_map_ok_iff {first : Except ε α} {f : α → β} :
    (∃ b, first.map f = .ok b) ↔ ∃ a, first = .ok a := by
  cases first <;> simp [Except.map]

theorem map_eq_error_iff {first : Except ε α} {f : α → β} {fault : ε} :
    first.map f = .error fault ↔ first = .error fault := by
  cases first <;> simp [Except.map]

theorem mapError_eq_ok_iff {δ : Type} {first : Except ε α} {translate : ε → δ} {a : α} :
    first.mapError translate = .ok a ↔ first = .ok a := by
  cases first <;> simp [Except.mapError]

theorem mapError_eq_error_iff {δ : Type} {first : Except ε α} {translate : ε → δ} {fault : δ} :
    first.mapError translate = .error fault ↔ ∃ own, first = .error own ∧ translate own = fault := by
  cases first <;> simp [Except.mapError]

theorem mapError_map {δ : Type} (first : Except ε α) (f : α → β) (translate : ε → δ) :
    (first.map f).mapError translate = (first.mapError translate).map f := by
  cases first <;> rfl

theorem mapError_bind {δ : Type} (first : Except ε α) (second : α → Except ε β) (translate : ε → δ) :
    (first >>= second).mapError translate =
      first.mapError translate >>= fun a => (second a).mapError translate := by
  cases first <;> rfl

/-- **What succeeds for a list** succeeds for each of its items. -/
theorem mapM_eq_ok_iff {f : α → Except ε β} {items : List α} {results : List β} :
    items.mapM f = .ok results ↔ List.Forall₂ (fun a b => f a = .ok b) items results := by
  induction items generalizing results with
  | nil => simp [eq_comm]
  | cons a items ih =>
    rw [List.mapM_cons, List.forall₂_cons_left_iff, bind_eq_ok_iff]
    constructor
    · rintro ⟨b, own, rest⟩
      obtain ⟨bs, others, rest⟩ := bind_eq_ok_iff.1 rest
      exact ⟨b, bs, own, ih.1 others, (Except.ok.inj rest).symm⟩
    · rintro ⟨b, bs, own, others, rfl⟩
      exact ⟨b, own, bind_eq_ok_iff.2 ⟨bs, ih.2 others, rfl⟩⟩

/-- The results for a list are those for its items. -/
theorem mem_of_mapM_eq_ok {f : α → Except ε β} {items : List α} {results : List β}
    (converted : items.mapM f = .ok results) {b : β} :
    b ∈ results ↔ ∃ a ∈ items, f a = .ok b := by
  rw [mapM_eq_ok_iff] at converted
  induction converted with
  | nil => simp
  | @cons a b' items results first _ ih =>
    rw [List.mem_cons, ih, List.exists_mem_cons_iff, first, Except.ok.injEq, eq_comm]

/-- What succeeds for each item succeeds for the list. -/
theorem exists_mapM_ok_iff {f : α → Except ε β} {items : List α} :
    (∃ results, items.mapM f = .ok results) ↔ ∀ a ∈ items, ∃ b, f a = .ok b := by
  simp only [mapM_eq_ok_iff]
  induction items with
  | nil => simp
  | cons a items ih =>
    rw [List.forall_mem_cons, ← ih]
    constructor
    · rintro ⟨_, each⟩
      obtain ⟨b, results, own, others, -⟩ := List.forall₂_cons_left_iff.1 each
      exact ⟨⟨b, own⟩, results, others⟩
    · rintro ⟨⟨b, own⟩, results, others⟩
      exact ⟨b :: results, .cons own others⟩

/-- **What fails for a list** fails for one of its items. -/
theorem exists_mapM_error_iff {f : α → Except ε β} {items : List α} :
    (∃ fault, items.mapM f = .error fault) ↔ ∃ a ∈ items, ∃ fault, f a = .error fault := by
  induction items with
  | nil => simp
  | cons a items ih =>
    rw [List.mapM_cons, List.exists_mem_cons_iff, ← ih]
    cases f a with
    | error fault => simp [bind, Except.bind]
    | ok b => cases items.mapM f <;> simp [bind, Except.bind]

/-- **The fault of a list** is that of the first item that fails. -/
theorem mapM_eq_error_iff {f : α → Except ε β} {items : List α} {fault : ε} :
    items.mapM f = .error fault ↔ ∃ front a back, items = front ++ a :: back ∧
      (∀ b ∈ front, ∃ c, f b = .ok c) ∧ f a = .error fault := by
  constructor
  · intro failed
    induction items with
    | nil => simp at failed
    | cons a items ih =>
      rw [List.mapM_cons] at failed
      cases own : f a with
      | error found =>
        rw [own] at failed
        cases failed
        exact ⟨[], a, items, rfl, by simp, own⟩
      | ok b =>
        have rest : items.mapM f = .error fault := by
          rw [own, ok_bind] at failed
          cases others : items.mapM f with
          | error found =>
            rw [others] at failed
            exact failed
          | ok results => simp [others] at failed
        obtain ⟨front, c, back, rfl, earlier, faulty⟩ := ih rest
        exact ⟨a :: front, c, back, rfl, List.forall_mem_cons.2 ⟨⟨b, own⟩, earlier⟩, faulty⟩
  · rintro ⟨front, a, back, rfl, earlier, faulty⟩
    obtain ⟨results, converted⟩ := exists_mapM_ok_iff.2 earlier
    rw [List.mapM_append, converted, ok_bind, List.mapM_cons, faulty]
    rfl

end SoundControl
