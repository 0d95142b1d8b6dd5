import Mathlib.Data.List.Chain
import SoundControl.Proofs.Address.Grammar

/-! # Productions are read as they are formed

The reader of a segment goes through its letters once and remembers what it is inside of.  Whatever
tokens it makes are formed by the letters it went through, and letters that form tokens are read as
these, except that literal runs side by side become one.

* **`Context.Reads`** — what was read so far of the production that the reader is inside of.
* **`Token.formedEach_of_ofGlyphs`** — tokens are formed by the letters they were read from.
* **`Token.Formed.ofGlyphs_append`** — the letters of a token are read as that token.
* **`Token.FormedEach.ofGlyphs_eq`**, **`Token.FormedEach.foldr_push`** — letters that form tokens are
  read, and as they are if no literal run stands beside another. -/

namespace SoundControl.Address

/-! ## From texts to productions -/

theorem Avoids.append {reserved : List Char} {letters more : List Letter}
    (front : Avoids reserved letters) (back : Avoids reserved more) :
    Avoids reserved (letters ++ more) := fun c listed found =>
  (List.mem_append.1 found).elim (front c listed) (back c listed)

theorem Glyph.avoids_iff {reserved : List Char} {g : Glyph} :
    Avoids reserved [g.letter] ↔ ∀ c ∈ reserved, ¬g.is c = true :=
  forall₂_congr fun c _ => by rw [Glyph.is_iff, List.mem_singleton, eq_comm]

/-- Letters between commas, the last of them told apart. -/
theorem intercalate_concat (separator : List Letter) (items : List (List Letter))
    (last : List Letter) : List.intercalate separator (items ++ [last]) =
      items.flatMap (· ++ separator) ++ last := by
  induction items with
  | nil => simp
  | cons item items ih =>
    cases items with
    | nil => simp [List.intercalate]
    | cons second items =>
      rw [List.cons_append, List.cons_append, List.intercalate_cons_cons, ← List.cons_append, ih]
      simp

/-- **What was read so far** of the production that a context is inside of. -/
def Context.Reads : Context → List Letter → Prop
  | .plain, read => read = []
  | .array _ items item, read => ∃ (finished : List (List Letter)) (current : List Letter),
    read = ('{', false) :: List.intercalate [(',', false)] (finished ++ [current]) ∧
      (∀ part ∈ finished ++ [current], Avoids ['{', '}', ','] part) ∧
      items.reverse = finished.map meant ∧ item.reverse = meant current
  | .chars _ negated members, read =>
    read = ('[', false) :: (signOf negated ++ members.reverse.map Glyph.letter) ∧
      Avoids ['[', ']'] (members.reverse.map Glyph.letter) ∧
      (negated = false → (members.reverse.map Glyph.letter).head? ≠ some ('!', false))

/-- A token other than a literal run may stand beside any. -/
theorem Token.Separate.cons {token : Token} {tokens : List Token} (pattern : token.isPattern = true)
    (separate : Separate tokens) : Separate (token :: tokens) :=
  List.isChain_cons.2 ⟨fun other _ => by simp [pattern], separate⟩

/-- A character in front of the tokens is in front of their letters. -/
theorem Token.formedEach_consLiteral {g : Glyph} {tokens : List Token} {letters : List Letter}
    (plain : Avoids ['{', '}', '[', ']', '*', '?'] [g.letter]) (formed : FormedEach tokens letters)
    (separate : Separate tokens) : FormedEach (consLiteral g.char tokens) (g.letter :: letters) ∧
      Separate (consLiteral g.char tokens) := by
  unfold consLiteral
  split
  next text tokens =>
    cases formed with
    | cons run others =>
      cases run with
      | literal nonempty avoids =>
        have longer := plain.append avoids
        exact ⟨FormedEach.cons (.literal (List.cons_ne_nil _ _) longer) others,
          List.isChain_cons.2 (List.isChain_cons.1 separate)⟩
  next apart =>
    have run : Formed (.literal [g.char]) [g.letter] := .literal (List.cons_ne_nil _ _) plain
    refine ⟨.cons run formed, ?_⟩
    refine List.isChain_cons.2 ⟨fun other leading => ?_, separate⟩
    cases other with
    | literal text =>
      obtain ⟨others, rfl⟩ := List.head?_eq_some_iff.1 leading
      exact absurd rfl (apart text others)
    | _ => rfl

/-- **The tokens of a segment are formed by its letters,** with no literal run beside another. -/
theorem Token.formedEach_of_ofGlyphs {context : Context} {gs : List Glyph} {tokens : List Token}
    (read : ofGlyphs none context gs = .ok tokens) {before : List Letter}
    (reads : context.Reads before) :
    FormedEach tokens (before ++ gs.map Glyph.letter) ∧ Separate tokens := by
  induction gs generalizing context tokens before with
  | nil =>
    cases context with
    | plain =>
      cases read
      cases reads
      exact ⟨.nil, List.isChain_nil⟩
    | array | chars => simp [ofGlyphs, Context.unterminated] at read
  | cons g gs ih =>
    have others {tokens : List Token} (rest : ofGlyphs none .plain gs = .ok tokens) :
        FormedEach tokens (gs.map Glyph.letter) ∧ Separate tokens := ih rest rfl
    cases context with
    | plain =>
      obtain rfl := reads
      rw [ofGlyphs] at read
      rw [List.nil_append, List.map_cons]
      -- The productions in the order in which they are tried, as in the reader.
      split at read
      next brace =>
        rw [Glyph.is_iff.1 brace]
        exact ih read ⟨[], [], rfl, by simp [Avoids], rfl, rfl⟩
      split at read
      next bracket =>
        rw [Glyph.is_iff.1 bracket]
        exact ih read ⟨rfl, by simp [Avoids], by simp⟩
      split at read
      next star =>
        obtain ⟨tokens, rest, rfl⟩ := map_eq_ok_iff.1 read
        rw [Glyph.is_iff.1 star]
        exact ⟨.cons .wildcard (others rest).1, .cons rfl (others rest).2⟩
      split at read
      next mark =>
        obtain ⟨tokens, rest, rfl⟩ := map_eq_ok_iff.1 read
        rw [Glyph.is_iff.1 mark]
        exact ⟨.cons .maybe (others rest).1, .cons rfl (others rest).2⟩
      split at read
      next => simp at read
      split at read
      next => simp at read
      next =>
        obtain ⟨tokens, rest, rfl⟩ := map_eq_ok_iff.1 read
        have plain : Avoids ['{', '}', '[', ']', '*', '?'] [g.letter] :=
          Glyph.avoids_iff.2 (by simp [*])
        exact formedEach_consLiteral plain (others rest).1 (others rest).2
    | array start items item =>
      obtain ⟨finished, current, rfl, avoids, items_eq, item_eq⟩ := reads
      rw [ofGlyphs] at read
      split at read
      next comma =>
        have continued := ih read ⟨finished ++ [current], [], rfl,
          by simpa [Avoids, or_imp, forall_and] using avoids,
          by simp [items_eq, item_eq], rfl⟩
        rw [intercalate_concat] at continued ⊢
        simpa [Glyph.is_iff.1 comma] using continued
      split at read
      next brace =>
        obtain ⟨tokens, rest, rfl⟩ := map_eq_ok_iff.1 read
        have formed := Token.Formed.array (by simp : finished ++ [current] ≠ []) avoids
        rw [List.map_append, List.map_singleton, ← items_eq, ← item_eq] at formed
        have whole := FormedEach.cons formed (others rest).1
        refine ⟨?_, .cons rfl (others rest).2⟩
        simpa [Glyph.is_iff.1 brace] using whole
      split at read
      next => simp at read
      next =>
        have plain : Avoids ['{', '}', ','] [g.letter] := Glyph.avoids_iff.2 (by simp [*])
        have continued := ih read ⟨finished, current ++ [g.letter], rfl, fun part listed => ?_,
          items_eq, by simp [item_eq, meant, Glyph.letter]⟩
        · rw [intercalate_concat] at continued ⊢
          simpa using continued
        · rcases List.mem_append.1 listed with earlier | last
          · exact avoids part (List.mem_append_left _ earlier)
          · obtain rfl := List.mem_singleton.1 last
            exact (avoids current (by simp)).append plain
    | chars start negated members =>
      obtain ⟨rfl, avoids, bare⟩ := reads
      rw [ofGlyphs] at read
      split at read
      next mark =>
        simp only [Bool.and_eq_true, Bool.not_eq_true', List.isEmpty_iff] at mark
        obtain ⟨⟨mark, rfl⟩, rfl⟩ := mark
        have continued := ih read ⟨rfl, avoids, by simp⟩
        simpa [signOf, Glyph.is_iff.1 mark] using continued
      split at read
      next bracket =>
        obtain ⟨token, class_eq, read⟩ := bind_eq_ok_iff.1 read
        obtain ⟨tokens, rest, result⟩ := bind_eq_ok_iff.1 read
        obtain rfl := Except.ok.inj result
        obtain ⟨filled, ranges, grouped, rfl⟩ := ofMembers_eq_ok_iff.1 class_eq
        have formed := formed_class (by simpa using filled) bare avoids grouped
        refine ⟨?_, .cons rfl (others rest).2⟩
        simpa [Glyph.is_iff.1 bracket] using FormedEach.cons formed (others rest).1
      split at read
      next => simp at read
      next =>
        have plain : Avoids ['[', ']'] [g.letter] := Glyph.avoids_iff.2 (by simp [*])
        have bare : negated = false →
            ((g :: members).reverse.map Glyph.letter).head? ≠ some ('!', false) := by
          intro positive
          cases listed : members with
          | nil => simp_all [Glyph.is_iff]
          | cons => simpa [listed] using bare positive
        have avoids : Avoids ['[', ']'] ((g :: members).reverse.map Glyph.letter) := by
          simpa using avoids.append plain
        simpa using ih read ⟨rfl, avoids, bare⟩

/-! ## From productions to texts -/

/-- A token in front of others; a literal run goes on in the one behind it. -/
def Token.push : Token → List Token → List Token
  | .literal text, tokens => text.foldr consLiteral tokens
  | token, tokens => token :: tokens

/-- A letter that is avoided is not a glyph of the text. -/
theorem Avoids.cons_iff {reserved : List Char} {g : Glyph} {gs : List Glyph} :
    Avoids reserved ((g :: gs).map Glyph.letter) ↔
      (∀ c ∈ reserved, g.is c = false) ∧ Avoids reserved (gs.map Glyph.letter) := by
  constructor
  · intro avoids
    refine ⟨fun c listed => ?_, fun c listed found => avoids c listed (List.mem_cons_of_mem _ found)⟩
    rw [Bool.eq_false_iff, Ne, Glyph.is_iff]
    exact fun same => avoids c listed (List.mem_cons.2 (.inl same.symm))
  · rintro ⟨own, others⟩ c listed found
    rcases List.mem_cons.1 found with same | found
    · simpa [own c listed] using Glyph.is_iff.2 same.symm
    · exact others c listed found

/-- The last letter is that of the last glyph. -/
theorem Glyph.exists_concat {gs : List Glyph} {letters : List Letter} {last : Letter}
    (same : gs.map letter = letters ++ [last]) :
    ∃ body g, gs = body ++ [g] ∧ body.map letter = letters ∧ g.letter = last := by
  obtain ⟨body, more, rfl, others, single⟩ := List.map_eq_append_iff.1 same
  obtain ⟨g, rfl, only⟩ := List.map_eq_singleton_iff.1 single
  exact ⟨body, g, rfl, others, only⟩

/-- A run of letters is read as a literal run. -/
theorem Token.ofGlyphs_literal {gs : List Glyph} (rest : List Glyph)
    (avoids : Avoids ['{', '}', '[', ']', '*', '?'] (gs.map Glyph.letter)) :
    ofGlyphs none .plain (gs ++ rest) = (ofGlyphs none .plain rest).map
      (push (.literal (meant (gs.map Glyph.letter)))) := by
  induction gs with
  | nil => cases h : ofGlyphs none .plain rest <;> simp [Except.map, push, meant, h]
  | cons g gs ih =>
    obtain ⟨other, avoids⟩ := Avoids.cons_iff.1 avoids
    simp only [List.forall_mem_cons] at other
    rw [List.cons_append, ofGlyphs, ih avoids]
    simp only [other, Bool.false_eq_true, if_false]
    cases ofGlyphs none .plain rest <;> rfl

/-- An item is read up to its end. -/
theorem Token.ofGlyphs_item {start : Nat} {items : List (List Char)} {item : List Char}
    {gs : List Glyph} (rest : List Glyph) (avoids : Avoids ['{', '}', ','] (gs.map Glyph.letter)) :
    ofGlyphs none (.array start items item) (gs ++ rest) =
      ofGlyphs none
        (.array start items ((meant (gs.map Glyph.letter)).reverse ++ item)) rest := by
  induction gs generalizing item with
  | nil => rfl
  | cons g gs ih =>
    obtain ⟨other, avoids⟩ := Avoids.cons_iff.1 avoids
    simp only [List.forall_mem_cons] at other
    rw [List.cons_append, ofGlyphs]
    simp only [other, Bool.false_eq_true, if_false]
    rw [ih avoids]
    simp [meant, Glyph.letter]

/-- The items of an array are read up to the brace that closes it. -/
theorem Token.ofGlyphs_items {start : Nat} {earlier : List (List Char)} {items : List (List Letter)}
    (filled : items ≠ []) (avoids : ∀ item ∈ items, Avoids ['{', '}', ','] item) {gs : List Glyph}
    (same : gs.map Glyph.letter = List.intercalate [(',', false)] items) {brace : Glyph}
    (closing : brace.letter = ('}', false)) (rest : List Glyph) :
    ofGlyphs none (.array start earlier []) (gs ++ brace :: rest) =
      (ofGlyphs none .plain rest).map
        (.array (earlier.reverse ++ items.map meant) :: ·) := by
  induction items generalizing earlier gs with
  | nil => contradiction
  | cons item items ih =>
    obtain ⟨own, others⟩ := List.forall_mem_cons.1 avoids
    cases items with
    | nil =>
      obtain rfl : gs.map Glyph.letter = item := by simpa [List.intercalate] using same
      rw [ofGlyphs_item _ own, ofGlyphs]
      simp [Glyph.is_of_letter closing, meant]
    | cons second items =>
      rw [List.intercalate_cons_cons] at same
      obtain ⟨before, more, rfl, front, later⟩ := List.map_eq_append_iff.1 same
      obtain ⟨body, comma, rfl, rfl, separates⟩ := Glyph.exists_concat front
      rw [List.append_assoc, List.append_assoc, ofGlyphs_item _ own, List.singleton_append,
        ofGlyphs, if_pos (Glyph.is_iff.2 separates), ih (List.cons_ne_nil _ _) others later]
      simp

/-- The members of a class are read up to its end. -/
theorem Token.ofGlyphs_members {start : Nat} {negated : Bool} {members gs : List Glyph}
    (rest : List Glyph) (avoids : Avoids ['[', ']'] (gs.map Glyph.letter))
    (bare : negated = false → members = [] →
      (gs.map Glyph.letter).head? ≠ some ('!', false)) :
    ofGlyphs none (.chars start negated members) (gs ++ rest) =
      ofGlyphs none (.chars start negated (gs.reverse ++ members)) rest := by
  induction gs generalizing members with
  | nil => rfl
  | cons g gs ih =>
    obtain ⟨other, avoids⟩ := Avoids.cons_iff.1 avoids
    simp only [List.forall_mem_cons] at other
    have member : (g.is '!' && !negated && members.isEmpty) = false := by
      simp only [Bool.and_eq_false_iff, Bool.not_eq_false', List.isEmpty_eq_false_iff]
      by_cases fresh : negated = false ∧ members = []
      · have other := bare fresh.1 fresh.2
        refine .inl (.inl (Bool.eq_false_iff.2 fun mark => other ?_))
        rw [List.map_cons, Glyph.is_iff.1 mark, List.head?_cons]
      · grind
    rw [List.cons_append, ofGlyphs, member]
    simp only [other, Bool.false_eq_true, if_false]
    rw [ih avoids (by simp)]
    simp

/-- A bracket opens a class. -/
theorem Token.ofGlyphs_bracket {opening : Glyph} (opens : opening.letter = ('[', false))
    (gs : List Glyph) : ofGlyphs none .plain (opening :: gs) =
      ofGlyphs none (.chars opening.position false []) gs := by
  rw [ofGlyphs]
  simp only [Glyph.is_of_letter opens]
  rfl

/-- A class whose members were read is closed by its bracket. -/
theorem Token.ofGlyphs_class {start : Nat} {negated : Bool} {gs : List Glyph}
    {ranges : List (Char × Char)} (filled : gs ≠ []) (avoids : Avoids ['[', ']'] (gs.map Glyph.letter))
    (bare : negated = false → (gs.map Glyph.letter).head? ≠ some ('!', false))
    (grouped : Grouped (gs.map Glyph.letter) ranges) {bracket : Glyph}
    (closing : bracket.letter = (']', false)) (rest : List Glyph) :
    ofGlyphs none (.chars start negated []) (gs ++ bracket :: rest) =
      (ofGlyphs none .plain rest).map (.chars negated ranges :: ·) := by
  have made : ofMembers start negated gs = .ok (.chars negated ranges) :=
    ofMembers_eq_ok_iff.2 ⟨filled, ranges, grouped, rfl⟩
  rw [ofGlyphs_members _ avoids fun positive _ => bare positive, List.append_nil, ofGlyphs]
  simp only [Glyph.is_of_letter closing, List.reverse_reverse, made]
  cases ofGlyphs none .plain rest <;> rfl

/-- **The letters of a token are read as that token,** whatever stands behind them. -/
theorem Token.Formed.ofGlyphs_append {token : Token} {letters : List Letter}
    (formed : token.Formed letters) {gs : List Glyph} (same : gs.map Glyph.letter = letters)
    (rest : List Glyph) :
    ofGlyphs none .plain (gs ++ rest) = (ofGlyphs none .plain rest).map token.push := by
  cases formed with
  | literal _ avoids =>
    subst same
    exact ofGlyphs_literal rest avoids
  | array filled avoids =>
    obtain ⟨opening, inside, rfl, opens, within⟩ := List.map_eq_cons_iff.1 same
    obtain ⟨body, brace, rfl, items, closes⟩ := Glyph.exists_concat within
    rw [List.cons_append, ofGlyphs, if_pos (Glyph.is_iff.2 opens), List.append_assoc]
    exact ofGlyphs_items filled avoids items closes rest
  | chars filled bare avoids grouped =>
    obtain ⟨opening, inside, rfl, opens, within⟩ := List.map_eq_cons_iff.1 same
    obtain ⟨members, bracket, rfl, rfl, closes⟩ := Glyph.exists_concat within
    rw [List.cons_append, List.append_assoc, ofGlyphs_bracket opens]
    exact ofGlyphs_class (by simpa using filled) avoids (fun _ => bare) grouped closes rest
  | negated filled avoids grouped =>
    obtain ⟨opening, inside, rfl, opens, within⟩ := List.map_eq_cons_iff.1 same
    obtain ⟨mark, inside, rfl, negates, within⟩ := List.map_eq_cons_iff.1 within
    obtain ⟨members, bracket, rfl, rfl, closes⟩ := Glyph.exists_concat within
    rw [List.cons_append, List.cons_append, List.append_assoc, ofGlyphs_bracket opens, ofGlyphs,
      Glyph.is_iff.2 negates]
    have positive : true = false → (members.map Glyph.letter).head? ≠ some ('!', false) := by simp
    exact ofGlyphs_class (by simpa using filled) avoids positive grouped closes rest
  | wildcard =>
    obtain ⟨star, rfl, is⟩ := List.map_eq_singleton_iff.1 same
    rw [List.singleton_append, ofGlyphs]
    simp only [Glyph.is_of_letter is]
    rfl
  | maybe =>
    obtain ⟨mark, rfl, is⟩ := List.map_eq_singleton_iff.1 same
    rw [List.singleton_append, ofGlyphs]
    simp only [Glyph.is_of_letter is]
    rfl

/-- **What is formed by letters is read from them,** with literal runs as long as can be. -/
theorem Token.FormedEach.ofGlyphs_eq {tokens : List Token} {letters : List Letter}
    (formed : FormedEach tokens letters) {gs : List Glyph} (same : gs.map Glyph.letter = letters) :
    ofGlyphs none .plain gs = .ok (tokens.foldr push []) := by
  induction formed generalizing gs with
  | nil =>
    obtain rfl := List.map_eq_nil_iff.1 same
    rfl
  | cons formed _ ih =>
    obtain ⟨front, rest, rfl, own, others⟩ := List.map_eq_append_iff.1 same
    rw [formed.ofGlyphs_append own, ih others]
    rfl

/-- A literal run stays as it is in front of another production. -/
theorem Token.foldr_consLiteral {c : Char} {text : List Char} {tokens : List Token}
    (apart : ∀ token ∈ tokens.head?, token.isPattern = true) :
    (c :: text).foldr consLiteral tokens = .literal (c :: text) :: tokens := by
  induction text generalizing c with
  | nil =>
    cases tokens with
    | nil => rfl
    | cons token tokens =>
      have pattern : token.isPattern = true := apart token rfl
      cases token <;> first | rfl | contradiction
  | cons d text ih =>
    rw [List.foldr_cons, ih]
    rfl

/-- **Tokens are read as they are** if no literal run stands beside another. -/
theorem Token.FormedEach.foldr_push {tokens : List Token} {letters : List Letter}
    (formed : FormedEach tokens letters) (separate : Separate tokens) :
    tokens.foldr push [] = tokens := by
  induction formed with
  | nil => rfl
  | @cons token tokens _ _ formed _ ih =>
    obtain ⟨apart, others⟩ := List.isChain_cons.1 separate
    rw [List.foldr_cons, ih others]
    cases formed with
    | @literal letters filled _ =>
      obtain ⟨letter, letters, rfl⟩ := List.exists_cons_of_ne_nil filled
      exact foldr_consLiteral fun other listed => by simpa [isPattern] using apart other listed
    | _ => rfl

end SoundControl.Address
