import SoundControl.Address.Regex

/-! # Reading the text of an expression

A part of an expression's text contributes the same signs to the text, and the same items to the
group being read, whatever stands around it. So the text of a pattern is read part by part.

* **`Lexes`** — the signs that a part of a text contributes.
* **`Parses`** — the items that signs contribute to the group being read.
* **`Spells`** — both steps together.
* **`spells_charText`**, **`spells_class`**, **`Spells.group`**, **`Spells.repeated`** — the parts
  that the texts of patterns are made of. -/

namespace SoundControl.Address.Regex

/-! ## Signs -/

/-- **A text is read as the given signs**, whatever follows it. -/
def Lexes (text : List Char) (ls : List Lexeme) : Prop :=
  ∀ rest, lex none (text ++ rest) = (lex none rest).map (ls ++ ·)

/-- No text, no signs. -/
theorem Lexes.nil : Lexes [] [] := by
  intro rest
  simp

/-- The signs of two texts one after the other. -/
theorem Lexes.append {a b : List Char} {xs ys : List Lexeme} (ha : Lexes a xs) (hb : Lexes b ys) :
    Lexes (a ++ b) (xs ++ ys) := by
  intro rest
  rw [List.append_assoc, ha, hb, Option.map_map]
  simp [Function.comp_def]

/-- The signs of several texts one after another. -/
theorem Lexes.flatMap {α : Type} {text : α → List Char} {signs : α → List Lexeme}
    (h : ∀ a, Lexes (text a) (signs a)) (as : List α) :
    Lexes (as.flatMap text) (as.flatMap signs) := by
  induction as with
  | nil => exact .nil
  | cons a as ih =>
    rw [List.flatMap_cons, List.flatMap_cons]
    exact (h a).append ih

/-- A character that is no sign stands for itself. -/
theorem lexes_char {c : Char} (h : c ∉ signs) : Lexes [c] [.text c] := by
  intro cs
  rw [List.singleton_append, lex]
  · simp [h]
  -- The other readings begin with a sign.
  all_goals
    intros
    subst_vars
    simp [signs] at h

/-- A sign that opens nothing stands for itself as well. -/
theorem lexes_sign {c : Char} (h : c ∈ ['-', ']', '|', ')', '?', '+']) : Lexes [c] [.sign c] := by
  simp only [List.mem_cons, List.not_mem_nil, or_false] at h
  rcases h with rfl | rfl | rfl | rfl | rfl | rfl
  all_goals
    intro rest
    simp [lex, signs]

/-- The value of an upper-case digit. -/
theorem hexValue?_digitChar {d : Nat} (h : d < 16) : hexValue? d.digitChar.toUpper = some d := by
  revert d
  decide

/-- No digit closes an escape. -/
theorem digitChar_ne_brace {d : Nat} (h : d < 16) : d.digitChar.toUpper ≠ '}' := by
  revert d
  decide

/-- One more digit of an escape. -/
theorem lex_digitChar {d : Nat} (h : d < 16) (value : Nat) (cs : List Char) :
    lex (some value) (d.digitChar.toUpper :: cs) = lex (some (16 * value + d)) cs := by
  rw [lex, if_neg (digitChar_ne_brace h), hexValue?_digitChar h]

/-- The digits of a number add up to it. -/
theorem lex_toDigits (n : Nat) (cs : List Char) :
    lex (some 0) ((Nat.toDigits 16 n).map Char.toUpper ++ cs) = lex (some n) cs := by
  induction n using Nat.strongRecOn generalizing cs with
  | _ n ih =>
    rw [Nat.toDigits_eq_if (by decide)]
    split
    · rename_i hn
      rw [List.map_singleton, List.singleton_append, lex_digitChar hn, Nat.mul_zero, Nat.zero_add]
    · have hmod : n % 16 < 16 := Nat.mod_lt n (by decide)
      rw [List.map_append, List.append_assoc, ih (n / 16) (by omega), List.map_singleton,
        List.singleton_append, lex_digitChar hmod, Nat.div_add_mod]

/-- A number in hexadecimal begins with a digit. -/
theorem toDigits_eq_cons (n : Nat) :
    ∃ d cs, d < 16 ∧ (Nat.toDigits 16 n).map Char.toUpper = d.digitChar.toUpper :: cs := by
  induction n using Nat.strongRecOn with
  | _ n ih =>
    rw [Nat.toDigits_eq_if (by decide)]
    split
    · rename_i hn
      exact ⟨n, [], hn, rfl⟩
    · obtain ⟨d, cs, hd, hcs⟩ := ih (n / 16) (by omega)
      refine ⟨d, cs ++ [(n % 16).digitChar.toUpper], hd, ?_⟩
      rw [List.map_append, hcs]
      rfl

/-- The padding in front of a single digit adds nothing to its value. -/
theorem lex_hexText (n : Nat) (cs : List Char) :
    lex (some 0) (hexText n ++ cs) = lex (some n) cs := by
  rw [hexText]
  split
  · have hzero := @lex_digitChar 0 (by decide) 0
    exact (hzero _).trans (lex_toDigits n cs)
  · exact lex_toDigits n cs

/-- The text of a number begins with a digit. -/
theorem hexText_eq_cons (n : Nat) :
    ∃ d cs, d < 16 ∧ hexText n = d.digitChar.toUpper :: cs := by
  rw [hexText]
  split
  · exact ⟨0, _, by decide, rfl⟩
  · exact toDigits_eq_cons n

/-- **An escape stands for its character.** -/
theorem lexes_escapeText (c : Char) : Lexes (escapeText c) [.text c] := by
  intro rest
  obtain ⟨d, ds, hd, hds⟩ := hexText_eq_cons c.toNat
  -- What opens an escape is read together with its first digit.
  have hopen : lex none (escapeText c ++ rest) = lex (some 0) (hexText c.toNat ++ '}' :: rest) := by
    have hfirst : lex (some 0) (d.digitChar.toUpper :: ds ++ '}' :: rest) =
        lex (some d) (ds ++ '}' :: rest) := by
      rw [List.cons_append, lex_digitChar hd, Nat.mul_zero, Nat.zero_add]
    rw [escapeText, hds, hfirst]
    simp [lex, hexValue?_digitChar hd]
  have hvalid : c.toNat.isValidChar := c.valid
  rw [hopen, lex_hexText, lex, if_pos rfl, if_pos hvalid, Char.ofNat_toNat]
  rfl

/-- No sign is a letter or digit. -/
theorem isAlphanum_of_mem_signs (c : Char) (h : c ∈ signs) : c.isAlphanum = false := by
  have hall : signs.all (fun c => !c.isAlphanum) = true := by decide
  have hc := List.all_eq_true.1 hall c h
  rwa [Bool.not_eq_true'] at hc

/-- A character is written as itself or as an escape. -/
theorem lexes_charText (c : Char) : Lexes (charText c) [.text c] := by
  rw [charText]
  split
  · rename_i hc
    refine lexes_char fun hsign => ?_
    rw [isAlphanum_of_mem_signs c hsign] at hc
    exact absurd hc (by decide)
  · exact lexes_escapeText c

/-! ## Items -/

/-- A frame with more items. -/
def Frame.addAll (frame : Frame) (items : List Regex) : Frame :=
  { frame with items := items.reverse ++ frame.items }

/-- **Signs contribute the given items** to the group being read, whatever stands around them. -/
def Parses (ls : List Lexeme) (items : List Regex) : Prop :=
  ∀ stack frame rest,
    parse stack frame .outside (ls ++ rest) = parse stack (frame.addAll items) .outside rest

/-- No signs, no items. -/
theorem Parses.nil : Parses [] [] := by
  intro stack frame rest
  rfl

/-- The items of signs one after the other. -/
theorem Parses.append {a b : List Lexeme} {xs ys : List Regex} (ha : Parses a xs)
    (hb : Parses b ys) : Parses (a ++ b) (xs ++ ys) := by
  intro stack frame rest
  rw [List.append_assoc, ha, hb]
  simp [Frame.addAll]

/-- The items of several lists of signs one after another. -/
theorem Parses.flatMap {α : Type} {signs : α → List Lexeme} {items : α → List Regex}
    (h : ∀ a, Parses (signs a) (items a)) (as : List α) :
    Parses (as.flatMap signs) (as.flatMap items) := by
  induction as with
  | nil => exact .nil
  | cons a as ih =>
    rw [List.flatMap_cons, List.flatMap_cons]
    exact (h a).append ih

/-- A character is an item. -/
theorem parses_text (c : Char) : Parses [.text c] [.one false [(c, c)]] := by
  intro stack frame rest
  rfl

/-- A sign of repetition changes the item in front of it. -/
theorem Parses.repeated {ls : List Lexeme} {item : Regex} (h : Parses ls [item]) :
    Parses (ls ++ [.sign '*']) [.star item] ∧ Parses (ls ++ [.sign '+']) [.plus item] ∧
      Parses (ls ++ [.sign '?']) [.optional item] := by
  refine ⟨?_, ?_, ?_⟩
  all_goals
    intro stack frame rest
    rw [List.append_assoc, h]
    rfl

/-! ## Classes -/

/-- The signs of a range. -/
def rangeSigns (range : Char × Char) : List Lexeme :=
  if range.1 = range.2 then [.text range.1] else [.text range.1, .sign '-', .text range.2]

/-- The signs of the text of a range. -/
theorem lexes_rangeText (range : Char × Char) : Lexes (rangeText range) (rangeSigns range) := by
  rw [rangeText, rangeSigns]
  split
  · exact lexes_escapeText range.1
  · have hdash : Lexes ['-'] [.sign '-'] := lexes_sign (by decide)
    exact (lexes_escapeText range.1).append (hdash.append (lexes_escapeText range.2))

/-- No range closes its class. -/
theorem not_mem_rangeSigns (range : Char × Char) : .sign ']' ∉ rangeSigns range := by
  rw [rangeSigns]
  split <;> simp

/-- A range begins with a character. -/
theorem rangeSigns_eq_cons (range : Char × Char) :
    ∃ ls, rangeSigns range = .text range.1 :: ls := by
  rw [rangeSigns]
  split
  · exact ⟨_, rfl⟩
  · exact ⟨_, rfl⟩

/-- A member stands for itself unless a dash follows it. -/
theorem ranges?_text_cons {c : Char} {ls : List Lexeme} (h : ∀ rest, ls ≠ .sign '-' :: rest) :
    ranges? (.text c :: ls) = (ranges? ls).map ((c, c) :: ·) := by
  rw [ranges?]
  intro high rest hls
  exact absurd hls (h _)

/-- The ranges are read off their signs, if none is reversed. -/
theorem ranges?_rangeSigns {ranges : List (Char × Char)} (h : ∀ r ∈ ranges, r.1 ≤ r.2) :
    ranges? (ranges.flatMap rangeSigns) = some ranges := by
  induction ranges with
  | nil => rfl
  | cons range ranges ih =>
    obtain ⟨low, high⟩ := range
    have ih := ih fun r hr => h r (List.mem_cons_of_mem _ hr)
    rw [List.flatMap_cons, rangeSigns]
    split
    · rename_i hsame
      obtain rfl : low = high := hsame
      rw [List.singleton_append, ranges?_text_cons, ih]
      · rfl
      · intro rest hrest
        -- The next range begins with a character, not with a dash.
        cases ranges with
        | nil => simp at hrest
        | cons second ranges =>
          obtain ⟨ls, hls⟩ := rangeSigns_eq_cons second
          rw [List.flatMap_cons, hls] at hrest
          simp at hrest
    · have hle : low ≤ high := h (low, high) List.mem_cons_self
      simp [ranges?, hle, ih]

/-- **The signs of a class** that is not negated; its first range does not begin with a sign. -/
theorem lexes_class {ranges : List (Char × Char)} (hne : ranges ≠ []) :
    Lexes (['['] ++ ranges.flatMap rangeText ++ [']'])
      (.openClass false :: ranges.flatMap rangeSigns ++ [.sign ']']) := by
  intro rest
  have hclose : Lexes [']'] [.sign ']'] := lexes_sign (by decide)
  -- A class would be negated if its first range began with a caret, but it begins with an escape.
  have hfirst : ∃ cs, ranges.flatMap rangeText = '\\' :: cs := by
    obtain ⟨range, ranges, rfl⟩ := List.exists_cons_of_ne_nil hne
    rw [List.flatMap_cons, rangeText]
    split
    · exact ⟨_, rfl⟩
    · exact ⟨_, rfl⟩
  have hopen : lex none ('[' :: (ranges.flatMap rangeText ++ [']'] ++ rest)) =
      (lex none (ranges.flatMap rangeText ++ [']'] ++ rest)).map (.openClass false :: ·) := by
    obtain ⟨cs, hcs⟩ := hfirst
    rw [hcs, lex]
    simp
  rw [List.append_assoc, List.append_assoc, List.singleton_append, ← List.append_assoc, hopen,
    (Lexes.flatMap lexes_rangeText ranges).append hclose, Option.map_map]
  rfl

/-- The members of a class are collected up to its end. -/
theorem parse_inside {members : List Lexeme} (hmembers : .sign ']' ∉ members) (stack : List Frame)
    (frame : Frame) (negated : Bool) (before rest : List Lexeme) :
    parse stack frame (.inside negated before) (members ++ rest) =
      parse stack frame (.inside negated (members.reverse ++ before)) rest := by
  induction members generalizing before with
  | nil => rfl
  | cons l members ih =>
    rw [List.mem_cons, not_or] at hmembers
    rw [List.cons_append, parse, if_neg (Ne.symm hmembers.1), ih hmembers.2]
    simp

/-- **A class contributes one character**, inside its ranges or outside. -/
theorem parses_class {ranges : List (Char × Char)} (negated : Bool) (hne : ranges ≠ [])
    (h : ∀ r ∈ ranges, r.1 ≤ r.2) :
    Parses (.openClass negated :: ranges.flatMap rangeSigns ++ [.sign ']']) [.one negated ranges] := by
  intro stack frame rest
  have hclose : .sign ']' ∉ ranges.flatMap rangeSigns := by
    intro hmem
    obtain ⟨range, -, hrange⟩ := List.mem_flatMap.mp hmem
    exact not_mem_rangeSigns range hrange
  have hmembers : ranges.flatMap rangeSigns ≠ [] := by
    obtain ⟨range, ranges, rfl⟩ := List.exists_cons_of_ne_nil hne
    obtain ⟨ls, hls⟩ := rangeSigns_eq_cons range
    rw [List.flatMap_cons, hls]
    exact List.cons_ne_nil _ _
  rw [List.cons_append, List.cons_append, parse, List.append_assoc, parse_inside hclose]
  simp [parse, hmembers, ranges?_rangeSigns h, Frame.add, Frame.addAll]

/-! ## Groups -/

/-- **Several alternatives as one expression**; the last one needs no alternative of its own. -/
def alternation : List Regex → Regex
  | [] => empty
  | [r] => r
  | r :: rest => either r (alternation rest)

/-- The signs of several texts with bars between them. -/
theorem Lexes.intercalate {α : Type} {text : α → List Char} {signs : α → List Lexeme}
    (h : ∀ a, Lexes (text a) (signs a)) (as : List α) :
    Lexes (List.intercalate ['|'] (as.map text))
      (List.intercalate [.sign '|'] (as.map signs)) := by
  have hbar : Lexes ['|'] [.sign '|'] := lexes_sign (by decide)
  induction as with
  | nil => exact .nil
  | cons a as ih =>
    cases as with
    | nil => simpa using h a
    | cons b as =>
      simp only [List.map_cons, List.intercalate_cons_cons] at ih ⊢
      exact ((h a).append hbar).append ih

/-- The alternatives of a group are collected up to its end. -/
theorem parse_alternatives {α : Type} {signs : α → List Lexeme} {items : α → List Regex}
    (h : ∀ a, Parses (signs a) (items a)) {as : List α} (hne : as ≠ []) (before : List Regex)
    (outer : Frame) (stack : List Frame) (rest : List Lexeme) :
    parse (outer :: stack) { alternatives := before } .outside
        (List.intercalate [.sign '|'] (as.map signs) ++ .sign ')' :: rest) =
      parse stack
        (outer.add (before.foldl (fun rest alternative => either alternative rest)
          (alternation (as.map fun a => sequence (items a)))))
        .outside rest := by
  induction as generalizing before with
  | nil => exact absurd rfl hne
  | cons a as ih =>
    cases as with
    | nil =>
      rw [List.map_singleton, List.intercalate_singleton, h a]
      simp [parse, Frame.close, Frame.addAll, alternation]
    | cons b as =>
      -- At the bar the alternative read so far is put in front of those before it.
      have hnext : (Frame.addAll { alternatives := before } (items a)).next =
          { alternatives := sequence (items a) :: before } := by
        simp [Frame.addAll, Frame.next]
      rw [List.map_cons, List.map_cons, List.intercalate_cons_cons, List.append_assoc,
        List.append_assoc, h a, List.singleton_append, parse, if_pos rfl, hnext, ← List.map_cons,
        ih (List.cons_ne_nil b as)]
      rfl

/-- **A group contributes one item**, which stands for any of its alternatives. -/
theorem parses_group {α : Type} {signs : α → List Lexeme} {items : α → List Regex}
    (h : ∀ a, Parses (signs a) (items a)) {as : List α} (hne : as ≠ []) :
    Parses (.openGroup :: List.intercalate [.sign '|'] (as.map signs) ++ [.sign ')'])
      [alternation (as.map fun a => sequence (items a))] := by
  intro stack frame rest
  rw [List.append_assoc, List.singleton_append, List.cons_append, parse,
    parse_alternatives h hne []]
  rfl

/-! ## Both steps together -/

/-- **A text contributes the given items** to the group being read, whatever stands around it. -/
def Spells (text : List Char) (items : List Regex) : Prop :=
  ∃ ls, Lexes text ls ∧ Parses ls items

/-- No text, no items. -/
theorem Spells.nil : Spells [] [] :=
  ⟨[], .nil, .nil⟩

/-- The items of two texts one after the other. -/
theorem Spells.append {a b : List Char} {xs ys : List Regex} (ha : Spells a xs)
    (hb : Spells b ys) : Spells (a ++ b) (xs ++ ys) := by
  obtain ⟨as, hlexa, hparsea⟩ := ha
  obtain ⟨bs, hlexb, hparseb⟩ := hb
  exact ⟨as ++ bs, hlexa.append hlexb, hparsea.append hparseb⟩

/-- The items of several texts one after another. -/
theorem Spells.flatMap {α : Type} {text : α → List Char} {items : α → List Regex} {as : List α}
    (h : ∀ a ∈ as, Spells (text a) (items a)) :
    Spells (as.flatMap text) (as.flatMap items) := by
  induction as with
  | nil => exact .nil
  | cons a as ih =>
    rw [List.flatMap_cons, List.flatMap_cons]
    exact (h a List.mem_cons_self).append (ih fun b hb => h b (List.mem_cons_of_mem a hb))

/-- **A text inside the anchors is read as its items.** -/
theorem Spells.read {text : List Char} {items : List Regex} (h : Spells text items) :
    Regex.read ('^' :: text ++ ['$']) = some (sequence items) := by
  obtain ⟨ls, hlex, hparse⟩ := h
  have hend : lex none ['$'] = some [.sign '$'] := by
    simp [lex, signs]
  have hstart : lex none ('^' :: text ++ ['$']) = some (.sign '^' :: (ls ++ [.sign '$'])) := by
    rw [List.cons_append, lex, hlex, hend]
    · simp [signs]
    all_goals simp
  rw [Regex.read, hstart]
  simp only [hparse [] {} [.sign '$']]
  simp [parse, Frame.addAll, Frame.close]

end SoundControl.Address.Regex
