import SoundControl.Proofs.Address.NormalForm

/-! # What an address is written in

* **`printable_of_parse`** — an address that can be read starts with a slash and is printable.
* **`Path.Built.parse_atom`** — the atoms of a path that can be made are read from their sources.
* **`Path.Built.literal`** — a literal path is read from its address. -/

namespace SoundControl.Address

/-! ## One segment -/

/-- Characters are read to the end only if all of them are printable. -/
theorem printable_of_lex (position : Nat) (cs : List Char)
    (whole : (Glyph.lex position cs).2 = none) : ∀ c ∈ cs, isPrintable c = true := by
  fun_induction Glyph.lex position cs with
  | case1 => simp
  | case2 | case4 | case6 => simp at whole
  | case3 position c cs printable glyphs stop lexed ih =>
    have rest := ih (by rw [lexed]; exact whole)
    exact List.forall_mem_cons.2 ⟨by decide, List.forall_mem_cons.2 ⟨printable, rest⟩⟩
  | case5 position c cs _ _ printable glyphs stop lexed ih =>
    have rest := ih (by rw [lexed]; exact whole)
    exact List.forall_mem_cons.2 ⟨printable, rest⟩

/-- A fault behind the glyphs is not overlooked. -/
theorem ofGlyphs_of_fault (fault : Fault) (context : Context) (gs : List Glyph) :
    ∃ found, Token.ofGlyphs (some fault) context gs = .error found := by
  fun_induction Token.ofGlyphs (some fault) context gs with
  | case1 | case7 | case8 | case12 | case16 => exact ⟨_, rfl⟩
  | case2 _ whole => simp at whole
  | case3 _ _ _ ih | case4 _ _ _ _ ih | case10 _ _ _ _ _ _ ih | case13 _ _ _ _ _ _ _ _ ih
  | case14 _ _ _ _ _ _ ih | case17 _ _ _ _ _ _ _ _ ih => exact ih
  | case5 _ _ _ _ _ ih | case6 _ _ _ _ _ _ ih | case9 _ _ _ _ _ _ _ _ ih
  | case11 _ _ _ _ _ _ _ ih =>
    obtain ⟨found, faulty⟩ := ih
    exact ⟨found, by rw [faulty]; rfl⟩
  | case15 start negated members _ _ _ _ ih =>
    obtain ⟨found, faulty⟩ := ih
    cases Token.ofMembers start negated members.reverse with
    | error earlier => exact ⟨earlier, rfl⟩
    | ok token => exact ⟨found, by rw [faulty]; rfl⟩

/-- Glyphs from which tokens are read have no fault behind them. -/
theorem stop_eq_none_of_ofGlyphs {stop : Option Fault} {context : Context} {gs : List Glyph}
    {tokens : List Token} (read : Token.ofGlyphs stop context gs = .ok tokens) : stop = none := by
  cases stop with
  | none => rfl
  | some fault =>
    obtain ⟨found, faulty⟩ := ofGlyphs_of_fault fault context gs
    rw [faulty] at read
    contradiction

/-- A segment that can be read is printable. -/
theorem printable_of_read {position : Nat} {text : List Char} {segment : Segment}
    (read : Segment.read position text = .ok segment) : ∀ c ∈ text, isPrintable c = true := by
  refine printable_of_lex position text ?_
  unfold Segment.read at read
  split at read
  next empty =>
    rw [List.isEmpty_iff.1 empty]
    rfl
  next =>
    obtain ⟨tokens, formed, -⟩ := map_eq_ok_iff.1 read
    exact stop_eq_none_of_ofGlyphs formed

/-! ## Whole addresses -/

/-- A character between slashes is in one of the texts. -/
theorem mem_splitSlashes {c : Char} {cs : List Char} (listed : c ∈ cs) :
    c = '/' ∨ ∃ text ∈ splitSlashes cs, c ∈ text := by
  induction cs with
  | nil => simp at listed
  | cons d cs ih =>
    rw [splitSlashes]
    split
    next slash =>
      rcases List.mem_cons.1 listed with rfl | later
      · exact .inl slash
      · exact (ih later).imp_right fun ⟨text, found, inside⟩ =>
          ⟨text, List.mem_cons_of_mem _ found, inside⟩
    next =>
      split
      next empty =>
        rcases List.mem_cons.1 listed with rfl | later
        · exact .inr ⟨_, List.mem_singleton_self _, List.mem_singleton_self _⟩
        · exact (ih later).imp_right fun ⟨text, found, _⟩ => by simp [empty] at found
      next first texts pieces =>
        rcases List.mem_cons.1 listed with rfl | later
        · exact .inr ⟨_, List.mem_cons_self, List.mem_cons_self⟩
        · refine (ih later).imp_right fun ⟨text, found, inside⟩ => ?_
          rcases List.mem_cons.1 (pieces ▸ found) with rfl | found
          · exact ⟨_, List.mem_cons_self, List.mem_cons_of_mem _ inside⟩
          · exact ⟨text, List.mem_cons_of_mem _ found, inside⟩

theorem printable_of_readSegments {position : Nat} {texts : List (List Char)}
    {segments : List Segment} (read : readSegments position texts = .ok segments) :
    ∀ text ∈ texts, ∀ c ∈ text, isPrintable c = true := by
  induction texts generalizing position segments with
  | nil => simp
  | cons text texts ih =>
    rw [readSegments, bind_eq_ok_iff] at read
    obtain ⟨segment, own, read⟩ := read
    obtain ⟨segments, others, -⟩ := bind_eq_ok_iff.1 read
    exact List.forall_mem_cons.2 ⟨printable_of_read own, ih others⟩

/-- **An address that can be read** starts with a slash and is printable. -/
theorem printable_of_parse {source : String} {segments : List Segment}
    (read : parse source = .ok segments) :
    source.toList.head? = some '/' ∧ ∀ c ∈ source.toList, isPrintable c = true := by
  unfold parse at read
  split at read
  next => simp at read
  next c cs written =>
    split at read
    next slash =>
      rw [written, slash]
      refine ⟨rfl, List.forall_mem_cons.2 ⟨by decide, fun d listed => ?_⟩⟩
      rcases mem_splitSlashes listed with rfl | ⟨text, found, inside⟩
      · decide
      · exact printable_of_readSegments read text found d inside
    next => simp at read

/-! ## Atoms -/

/-- What an atom is read from is its source, and can be read. -/
theorem Atom.source_of_parse {source : String} {atom : Atom} (read : Atom.parse source = .ok atom) :
    atom.source = source ∧ ∃ segments, Address.parse source = .ok segments := by
  unfold Atom.parse Pattern.compile at read
  split at read
  next segments parsed =>
    obtain rfl := Except.ok.inj read
    dsimp only
    refine ⟨?_, segments, parsed⟩
    split <;> rfl
  next => simp [Except.map] at read

namespace Path

/-- **The atoms of a path that can be made** are read from their sources. -/
theorem Built.parse_atom {path : Path} (built : path.Built) {atom : Atom}
    (listed : atom ∈ path.atoms) : Atom.parse atom.source = .ok atom := by
  induction built with
  | any => simp [atoms] at listed
  | parsed read =>
    obtain ⟨only, own, rfl⟩ := exists_single_of_parse read
    obtain rfl : atom = only := by simpa [atoms] using listed
    rwa [(Atom.source_of_parse own).1]
  | @union p q _ _ ihp ihq =>
    cases all : (p.union q).isAny with
    | true =>
      rw [eq_any_of_isAny all] at listed
      simp [atoms] at listed
    | false =>
      cases atom with
      | pattern _ => exact ((mem_atoms_union_pattern all).1 listed).elim ihp ihq
      | literal _ => exact ((mem_atoms_union_literal all).1 listed).1.elim ihp ihq

/-- **A literal path that can be made** is read from its address, which starts with a slash and has
no zero character. -/
theorem Built.literal {path : Path} (built : path.Built) {text : String}
    (literal : path.asLiteral? = some text) :
    path = .single (.literal text) ∧ parse text = .ok path ∧
      text.toList.head? = some '/' ∧ '\x00' ∉ text.toList := by
  obtain rfl : path = .single (.literal text) := by
    unfold asLiteral? at literal
    split at literal
    · cases literal
      rfl
    · simp at literal
  have again : Atom.parse text = .ok (.literal text) := built.parse_atom List.mem_cons_self
  obtain ⟨-, segments, read⟩ := Atom.source_of_parse again
  obtain ⟨slash, printable⟩ := printable_of_parse read
  refine ⟨rfl, by rw [parse, again]; rfl, slash, fun listed => ?_⟩
  exact absurd (printable _ listed) (by decide)

end Path

end SoundControl.Address
