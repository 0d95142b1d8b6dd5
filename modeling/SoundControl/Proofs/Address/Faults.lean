import SoundControl.Proofs.Address.Parsing

/-! # Where the fault of an address lies

A segment is read from left to right, and its fault is reported at a character that was met: the one
that cannot be read, or the bracket or backslash before it.  Everything in front of that is printable,
so counting characters is counting bytes, and a segment by itself has its fault at the same place.

* **`Reached`** — the places of a text that have only printable characters in front.
* **`Token.position_of_ofGlyphs`**, **`Segment.reached_of_read`** — faults lie at such places.
* **`Segment.read_add`** — a segment is read alike wherever it starts.
* **`readSegments_eq_error_iff`** — the first segment that is malformed by itself decides.
* **`Blames`**, **`fault_in_first_bad_segment`** — the place of a fault in bytes, and what it does not
  depend on. -/

namespace SoundControl.Address

/-! ## Places of a text -/

/-- **A place with only printable characters in front** and a character behind, in a text that begins
at `start`. -/
def Reached (start : Nat) (text : List Char) (position : Nat) : Prop :=
  ∃ front c back, text = front ++ c :: back ∧ (∀ d ∈ front, isPrintable d = true) ∧
    position = start + front.length

theorem Reached.here (start : Nat) (c : Char) (cs : List Char) : Reached start (c :: cs) start :=
  ⟨[], c, cs, rfl, List.forall_mem_nil _, rfl⟩

/-- What is reached behind printable characters is reached with them in front. -/
theorem Reached.behind {start position : Nat} {text : List Char} (front : List Char)
    (printable : ∀ c ∈ front, isPrintable c = true)
    (reached : Reached (start + front.length) text position) :
    Reached start (front ++ text) position := by
  obtain ⟨more, c, back, rfl, printable', rfl⟩ := reached
  refine ⟨front ++ more, c, back, by simp, ?_, by simp [Nat.add_assoc]⟩
  exact List.forall_mem_append.2 ⟨printable, printable'⟩

theorem Reached.before {start position : Nat} {text : List Char} (reached : Reached start text position)
    (back : List Char) : Reached start (text ++ back) position := by
  obtain ⟨front, c, more, rfl, printable, rfl⟩ := reached
  exact ⟨front, c, more ++ back, by simp, printable, rfl⟩

/-! ## Faults of a segment -/

/-- **Letters lie at places of the text,** and so does what stops their reading. -/
theorem Glyph.reached_of_lex (position : Nat) (text : List Char) :
    (∀ g ∈ (lex position text).1, Reached position text g.position) ∧
      ∀ fault ∈ (lex position text).2, Reached position text fault.position := by
  fun_induction lex position text with
  | case1 => simp
  | case2 position => simpa using Reached.here position '\\' []
  | case3 position c cs printable glyphs stop lexed ih =>
    have behind {place : Nat} (reached : Reached (position + 2) cs place) :
        Reached position ('\\' :: c :: cs) place :=
      Reached.behind ['\\', c] (by simp [printable]; decide) reached
    rw [lexed] at ih
    exact ⟨List.forall_mem_cons.2 ⟨.here _ _ _, fun g listed => behind (ih.1 g listed)⟩,
      fun fault listed => behind (ih.2 fault listed)⟩
  | case4 position c cs =>
    have behind : Reached position ('\\' :: c :: cs) (position + 1) :=
      Reached.behind ['\\'] (by simp; decide) (.here _ _ _)
    simpa using behind
  | case5 position c cs _ _ printable glyphs stop lexed ih =>
    have behind {place : Nat} (reached : Reached (position + 1) cs place) :
        Reached position (c :: cs) place :=
      Reached.behind [c] (by simpa using printable) reached
    rw [lexed] at ih
    exact ⟨List.forall_mem_cons.2 ⟨.here _ _ _, fun g listed => behind (ih.1 g listed)⟩,
      fun fault listed => behind (ih.2 fault listed)⟩
  | case6 position c cs => simpa using Reached.here position c cs

/-- Where the bracket stands that a context is inside of. -/
def Context.start? : Context → Option Nat
  | .plain => none
  | .array start _ _ => some start
  | .chars start _ _ => some start

theorem Context.closed_plain {place : Nat → Prop} (start : Nat)
    (opened : Context.plain.start? = some start) : place start := by
  contradiction

/-- A class is refused at its bracket. -/
theorem Token.position_of_ofMembers {start : Nat} {negated : Bool} {members : List Glyph} {fault : Fault}
    (failed : ofMembers start negated members = .error fault) : fault.position = start := by
  unfold ofMembers at failed
  split at failed
  next => cases failed; rfl
  next =>
    split at failed
    next => contradiction
    next => cases failed; rfl

/-- A bracket that is not closed is the fault where it stands. -/
theorem Context.start?_of_unterminated {context : Context} {fault : Fault}
    (unclosed : context.unterminated = some fault) : context.start? = some fault.position := by
  cases context <;> cases unclosed <;> rfl

/-- **A fault lies at a letter,** at the open bracket, or where reading stopped. -/
theorem Token.position_of_ofGlyphs {place : Nat → Prop} {stop : Option Fault} {context : Context}
    {gs : List Glyph} {fault : Fault} (letters : ∀ g ∈ gs, place g.position)
    (opened : ∀ start, context.start? = some start → place start)
    (stopped : ∀ found, stop = some found → place found.position)
    (failed : ofGlyphs stop context gs = .error fault) : place fault.position := by
  fun_induction ofGlyphs stop context gs with
  | case1 context found which =>
    cases failed
    rcases Option.or_eq_some_iff.1 which with behind | ⟨-, unclosed⟩
    · exact stopped fault behind
    · exact opened _ (Context.start?_of_unterminated unclosed)
  | case2 => contradiction
  -- A bracket opens, and stands where its letter does.
  | case3 g gs _ ih | case4 g gs _ _ ih =>
    obtain ⟨own, others⟩ := List.forall_mem_cons.1 letters
    exact ih others (fun _ same => Option.some.inj same ▸ own) failed
  | case5 g gs _ _ _ ih | case6 g gs _ _ _ _ ih | case9 g gs _ _ _ _ _ _ ih =>
    obtain ⟨-, others⟩ := List.forall_mem_cons.1 letters
    exact ih others Context.closed_plain (map_eq_error_iff.1 failed)
  | case7 g | case8 g | case12 _ _ _ g | case16 _ _ _ g =>
    cases failed
    exact letters g List.mem_cons_self
  | case10 _ _ _ g gs _ ih | case13 _ _ _ g gs _ _ _ ih | case14 _ _ _ g gs _ ih
  | case17 _ _ _ g gs _ _ _ ih =>
    obtain ⟨-, others⟩ := List.forall_mem_cons.1 letters
    exact ih others opened failed
  | case11 _ _ _ g gs _ _ ih =>
    obtain ⟨-, others⟩ := List.forall_mem_cons.1 letters
    exact ih others Context.closed_plain (map_eq_error_iff.1 failed)
  | case15 start negated members g gs _ _ ih =>
    obtain ⟨-, others⟩ := List.forall_mem_cons.1 letters
    cases made : ofMembers start negated members.reverse with
    | error found =>
      rw [made] at failed
      cases failed
      rw [position_of_ofMembers made]
      exact opened start rfl
    | ok token =>
      rw [made, ok_bind] at failed
      exact ih others Context.closed_plain (map_eq_error_iff.1 failed)

/-- **The fault of a segment** lies at a place of it that is reached. -/
theorem Segment.reached_of_read {position : Nat} {text : List Char} {fault : Fault}
    (failed : Segment.read position text = .error fault) : Reached position text fault.position := by
  obtain ⟨letters, stopped⟩ := Glyph.reached_of_lex position text
  rw [Segment.read] at failed
  split at failed
  next => contradiction
  next =>
    exact Token.position_of_ofGlyphs letters Context.closed_plain stopped (map_eq_error_iff.1 failed)

/-! ## Segments at another place -/

/-- The fault as far behind. -/
def Fault.add (fault : Fault) (count : Nat) : Fault := ⟨fault.position + count, fault.reason⟩

/-- The letter as far behind. -/
def Glyph.add (count : Nat) (g : Glyph) : Glyph := { g with position := g.position + count }

/-- The context of a bracket as far behind. -/
def Context.add (count : Nat) : Context → Context
  | .plain => .plain
  | .array start items item => .array (start + count) items item
  | .chars start negated members => .chars (start + count) negated (members.map (Glyph.add count))

@[simp] theorem Glyph.is_add (count : Nat) (g : Glyph) (c : Char) : (g.add count).is c = g.is c := rfl

@[simp] theorem Glyph.char_add (count : Nat) (g : Glyph) : (g.add count).char = g.char := rfl

@[simp] theorem Glyph.position_add (count : Nat) (g : Glyph) :
    (g.add count).position = g.position + count := rfl

theorem Glyph.lex_add (position count : Nat) (text : List Char) :
    lex (position + count) text =
      ((lex position text).1.map (add count), (lex position text).2.map (·.add count)) := by
  fun_induction lex position text with
  | case1 => rfl
  | case2 => rfl
  | case3 position c cs printable glyphs stop lexed ih =>
    rw [lexed] at ih
    rw [lex, if_pos printable, Nat.add_right_comm, ih]
    rfl
  | case4 position c cs unprintable =>
    rw [lex, if_neg unprintable, Nat.add_right_comm]
    rfl
  | case5 position c cs last before printable glyphs stop lexed ih =>
    rw [lexed] at ih
    rw [lex, if_pos printable, Nat.add_right_comm, ih]
    · rfl
    · exact last
    · exact before
  | case6 position c cs last before unprintable =>
    rw [lex, if_neg unprintable]
    · rfl
    · exact last
    · exact before

theorem classRanges_add (count : Nat) (members : List Glyph) :
    classRanges (members.map (Glyph.add count)) = classRanges members := by
  fun_induction classRanges members <;> simp_all [classRanges]

theorem Token.ofMembers_add (start count : Nat) (negated : Bool) (members : List Glyph) :
    ofMembers (start + count) negated (members.map (Glyph.add count)) =
      (ofMembers start negated members).mapError (·.add count) := by
  rw [ofMembers, ofMembers, classRanges_add, List.isEmpty_map]
  split
  next => rfl
  next => cases classRanges members <;> rfl

/-- **Letters farther behind are read alike,** with the fault as far behind. -/
theorem Token.ofGlyphs_add (count : Nat) (stop : Option Fault) (context : Context) (gs : List Glyph) :
    ofGlyphs (stop.map (·.add count)) (context.add count) (gs.map (Glyph.add count)) =
      (ofGlyphs stop context gs).mapError (·.add count) := by
  induction gs generalizing context with
  | nil => cases stop <;> cases context <;> rfl
  | cons g gs ih =>
    -- The letter leads to one of few contexts, and each of them has its own instance of `ih`.
    have plain := ih .plain
    cases context with
    | plain =>
      have braces := ih (.array g.position [] [])
      have brackets := ih (.chars g.position false [])
      simp only [Context.add, List.map_nil] at plain braces brackets
      simp only [List.map_cons, Context.add, ofGlyphs, Glyph.is_add, Glyph.position_add, Glyph.char_add,
        plain, braces, brackets, apply_ite (Except.mapError _), mapError_map]
      rfl
    | array start items item =>
      have after := ih (.array start (item.reverse :: items) [])
      have more := ih (.array start items (g.char :: item))
      simp only [Context.add] at plain after more
      simp only [List.map_cons, Context.add, ofGlyphs, Glyph.is_add, Glyph.position_add, Glyph.char_add,
        plain, after, more, apply_ite (Except.mapError _), mapError_map]
      rfl
    | chars start negated members =>
      have sign := ih (.chars start true [])
      have more := ih (.chars start negated (g :: members))
      simp only [Context.add, List.map_nil, List.map_cons] at plain sign more
      simp only [List.map_cons, Context.add, ofGlyphs, Glyph.is_add, Glyph.position_add, List.isEmpty_map,
        ← List.map_reverse, ofMembers_add, plain, sign, more, apply_ite (Except.mapError _), mapError_bind]
      rfl

/-- **A segment is read alike wherever it starts,** with the fault as far behind. -/
theorem Segment.read_add (position count : Nat) (text : List Char) :
    Segment.read (position + count) text = (Segment.read position text).mapError (·.add count) := by
  rw [Segment.read, Segment.read, Glyph.lex_add]
  split
  next => rfl
  next =>
    rw [mapError_map]
    exact congrArg (Except.map parts) (Token.ofGlyphs_add count _ .plain _)

/-- Whether a segment can be read does not depend on where it starts. -/
theorem Segment.read_eq_ok_iff (position : Nat) {text : List Char} {segment : Segment} :
    Segment.read position text = .ok segment ↔ Segment.read 0 text = .ok segment := by
  rw [← Nat.zero_add position, read_add, mapError_eq_ok_iff]

/-! ## The first bad segment -/

/-- **The first segment that cannot be read** is the one with the fault. -/
theorem readSegments_eq_error_iff {position : Nat} {texts : List (List Char)} {fault : Fault} :
    readSegments position texts = .error fault ↔ ∃ front bad later, texts = front ++ bad :: later ∧
      (∀ text ∈ front, ∃ segment, Segment.read 0 text = .ok segment) ∧
      Segment.read (position + (front.flatMap (· ++ ['/'])).length) bad = .error fault := by
  constructor
  · intro failed
    induction texts generalizing position with
    | nil => contradiction
    | cons text texts ih =>
      rw [readSegments] at failed
      cases own : Segment.read position text with
      | error found =>
        rw [own] at failed
        cases failed
        exact ⟨[], text, texts, rfl, List.forall_mem_nil _, own⟩
      | ok segment =>
        -- The fault is that of the others, which start behind the slash.
        rw [own, ok_bind] at failed
        cases others : readSegments (position + text.length + 1) texts with
        | ok segments => simp [others] at failed
        | error found =>
          rw [others] at failed
          cases failed
          obtain ⟨front, bad, later, rfl, earlier, faulty⟩ := ih others
          refine ⟨text :: front, bad, later, rfl, ?_, ?_⟩
          · exact List.forall_mem_cons.2 ⟨⟨segment, (Segment.read_eq_ok_iff position).1 own⟩, earlier⟩
          · simpa [Nat.add_assoc, Nat.add_comm, Nat.add_left_comm] using faulty
  · rintro ⟨front, bad, later, rfl, earlier, faulty⟩
    induction front generalizing position with
    | nil =>
      rw [List.nil_append, readSegments]
      rw [List.flatMap_nil, List.length_nil, Nat.add_zero] at faulty
      rw [faulty]
      rfl
    | cons text front ih =>
      obtain ⟨⟨segment, own⟩, earlier⟩ := List.forall_mem_cons.1 earlier
      rw [List.cons_append, readSegments, (Segment.read_eq_ok_iff position).2 own, ok_bind, ih earlier]
      · rfl
      · simpa [Nat.add_assoc, Nat.add_comm, Nat.add_left_comm] using faulty

theorem parse_slash (cs : List Char) :
    parse (String.ofList ('/' :: cs)) = readSegments 1 (splitSlashes cs) := by
  rw [parse, String.toList_ofList]
  rfl

/-- **A segment alone behind a slash** is read as it is among others. -/
theorem parse_segment {text : List Char} (inside : '/' ∉ text) :
    parse (String.ofList ('/' :: text)) = (Segment.read 1 text).map ([·]) := by
  rw [parse_slash, splitSlashes_eq_splitOn, List.splitOn_eq_singleton inside, readSegments]
  cases Segment.read 1 text <;> rfl

/-- **The text in front of a segment:** the first slash, and the segments before it, each with the slash
behind it. -/
def preceding (front : List (List Char)) : String := String.ofList ('/' :: front.flatMap (· ++ ['/']))

/-- **The fault is that of the first bad segment.** -/
structure Blames (fault : Fault) (front : List (List Char)) (bad : List Char) : Prop where
  /-- The segments before it are well-formed, each by itself. -/
  earlier : ∀ text ∈ front, ∃ segments, parse (String.ofList ('/' :: text)) = .ok segments
  /-- It is malformed by itself, for the same reason and at the same place of it. -/
  own : ∃ own, parse (String.ofList ('/' :: bad)) = .error own ∧ own.reason = fault.reason ∧
    own.position + (preceding front).utf8ByteSize = fault.position + 1
  /-- The fault lies inside of it. -/
  inside : (preceding front).utf8ByteSize ≤ fault.position ∧
    fault.position < (preceding front).utf8ByteSize + (String.ofList bad).utf8ByteSize
  /-- Whatever stands behind it, the fault is the same. -/
  later : ∀ cs texts, splitSlashes cs = front ++ bad :: texts →
    parse (String.ofList ('/' :: cs)) = .error fault

/-! ## Bytes -/

/-- A printable character is one byte. -/
theorem utf8ByteSize_of_printable {cs : List Char} (printable : ∀ c ∈ cs, isPrintable c = true) :
    (String.ofList cs).utf8ByteSize = cs.length := by
  induction cs with
  | nil => simp
  | cons c cs ih =>
    obtain ⟨own, others⟩ := List.forall_mem_cons.1 printable
    have single : c.utf8Size = 1 := by
      rw [Char.utf8Size_eq_one_iff, UInt32.le_iff_toNat_le]
      simp only [isPrintable, Bool.and_eq_true, decide_eq_true_eq] at own
      exact Nat.le_trans own.2 (by decide)
    rw [String.ofList_cons, String.utf8ByteSize_append, String.utf8ByteSize_singleton, single, ih others,
      List.length_cons, Nat.add_comm]

/-- A place that is reached lies inside of the text, in bytes. -/
theorem Reached.inside {start position : Nat} {text : List Char} (reached : Reached start text position) :
    start ≤ position ∧ position < start + (String.ofList text).utf8ByteSize := by
  obtain ⟨front, c, back, rfl, printable, rfl⟩ := reached
  have positive := c.utf8Size_pos
  rw [String.ofList_append, String.ofList_cons, String.utf8ByteSize_append, String.utf8ByteSize_append,
    String.utf8ByteSize_singleton, utf8ByteSize_of_printable printable]
  omega

/-- **A place that is reached lies at a boundary of characters.** -/
theorem Reached.isValid {source : String} {position : Nat} (reached : Reached 0 source.toList position) :
    (String.Pos.Raw.mk position).IsValid source := by
  obtain ⟨front, c, back, pieces, printable, rfl⟩ := reached
  refine String.Pos.Raw.isValid_iff_exists_append.2
    ⟨String.ofList front, String.ofList (c :: back), ?_, ?_⟩
  · rw [← String.ofList_append, ← pieces, String.ofList_toList]
  · rw [Nat.zero_add, ← utf8ByteSize_of_printable printable]
    rfl

/-! ## The place of a fault -/

/-- Segments with slashes between them: the first ones, one of them, and the rest. -/
theorem exists_intercalate_eq (front : List (List Char)) (bad : List Char) (later : List (List Char)) :
    ∃ rest, List.intercalate ['/'] (front ++ bad :: later) =
      front.flatMap (· ++ ['/']) ++ (bad ++ rest) := by
  induction front with
  | nil =>
    cases later with
    | nil => exact ⟨[], by simp [List.intercalate]⟩
    | cons text later =>
      exact ⟨_, by rw [List.nil_append, List.intercalate_cons_cons, List.append_assoc]; rfl⟩
  | cons text front ih =>
    obtain ⟨rest, pieces⟩ := ih
    refine ⟨rest, ?_⟩
    cases front with
    | nil => simpa [List.intercalate_cons_cons] using pieces
    | cons second front =>
      rw [List.cons_append, List.cons_append, List.intercalate_cons_cons, ← List.cons_append, pieces]
      simp

/-- An address is what stands in front of one of its segments, the segment, and the rest. -/
theorem exists_eq_preceding {source : String} {cs : List Char} (slash : source.toList = '/' :: cs)
    {front : List (List Char)} {bad : List Char} {later : List (List Char)}
    (pieces : splitSlashes cs = front ++ bad :: later) :
    ∃ rest, source = preceding front ++ (String.ofList bad ++ rest) := by
  obtain ⟨rest, joined⟩ := exists_intercalate_eq front bad later
  refine ⟨String.ofList rest, ?_⟩
  rw [← pieces, splitSlashes_eq_splitOn, List.intercalate_splitOn] at joined
  rw [← String.ofList_toList (s := source), slash, joined, preceding, ← String.ofList_append,
    ← String.ofList_append, List.cons_append]

/-- What stands in front of a segment is as many bytes as characters, if it can be read. -/
theorem utf8ByteSize_preceding {front : List (List Char)}
    (earlier : ∀ text ∈ front, ∃ segment, Segment.read 0 text = .ok segment) :
    (∀ c ∈ (preceding front).toList, isPrintable c = true) ∧
      (preceding front).utf8ByteSize = 1 + (front.flatMap (· ++ ['/'])).length := by
  have printable : ∀ c ∈ '/' :: front.flatMap (· ++ ['/']), isPrintable c = true := by
    refine List.forall_mem_cons.2 ⟨by decide, fun c listed => ?_⟩
    obtain ⟨text, among, member⟩ := List.mem_flatMap.1 listed
    obtain ⟨segment, read⟩ := earlier text among
    rcases List.mem_append.1 member with inside | slash
    · exact printable_of_read read c inside
    · obtain rfl := List.mem_singleton.1 slash
      decide
  refine ⟨by rwa [preceding, String.toList_ofList], ?_⟩
  rw [preceding, utf8ByteSize_of_printable printable, List.length_cons, Nat.add_comm]

/-- **A fault is that of the first bad segment,** if it is that of the segments. -/
theorem blames_of_readSegments {cs : List Char} {fault : Fault} {front : List (List Char)}
    {bad : List Char} {later : List (List Char)} (pieces : splitSlashes cs = front ++ bad :: later)
    (earlier : ∀ text ∈ front, ∃ segment, Segment.read 0 text = .ok segment)
    (faulty : Segment.read (1 + (front.flatMap (· ++ ['/'])).length) bad = .error fault) :
    Blames fault front bad := by
  have whole {text : List Char} (listed : text ∈ front ++ bad :: later) : '/' ∉ text :=
    no_slash_of_mem_splitSlashes (pieces ▸ listed)
  have size := (utf8ByteSize_preceding earlier).2
  refine ⟨fun text listed => ?_, ?_, ?_, fun cs' texts pieces' => ?_⟩
  · obtain ⟨segment, read⟩ := earlier text listed
    rw [parse_segment (whole (List.mem_append_left _ listed)), (Segment.read_eq_ok_iff 1).2 read]
    exact ⟨_, rfl⟩
  · rw [Segment.read_add, mapError_eq_error_iff] at faulty
    obtain ⟨own, alone, rfl⟩ := faulty
    refine ⟨own, ?_, rfl, ?_⟩
    · rw [parse_segment (whole (by simp)), alone]
      rfl
    · simp only [size, Fault.add]
      omega
  · rw [size]
    exact (Segment.reached_of_read faulty).inside
  · rw [parse_slash, readSegments_eq_error_iff]
    exact ⟨front, bad, texts, pieces', earlier, faulty⟩

/-- **A fault lies in the first bad segment.** Whatever text is refused, the fault lies inside of it in
bytes, at a boundary of its characters.  If the text starts with a slash, then it is the fault of the
first segment that is malformed by itself, and whatever stands behind that segment does not matter. -/
theorem fault_in_first_bad_segment {source : String} {fault : Fault} (nonempty : source ≠ "")
    (failed : parse source = .error fault) :
    fault.position < source.utf8ByteSize ∧ (String.Pos.Raw.mk fault.position).IsValid source ∧
    ∀ cs, source.toList = '/' :: cs → ∃ front bad later, splitSlashes cs = front ++ bad :: later ∧
      (∃ rest, source = preceding front ++ (String.ofList bad ++ rest)) ∧ Blames fault front bad := by
  have cut {cs : List Char} (slash : source.toList = '/' :: cs) : ∃ front bad later,
      splitSlashes cs = front ++ bad :: later ∧
      (∀ text ∈ front, ∃ segment, Segment.read 0 text = .ok segment) ∧
      Segment.read (1 + (front.flatMap (· ++ ['/'])).length) bad = .error fault := by
    rw [← String.ofList_toList (s := source), slash, parse_slash] at failed
    exact readSegments_eq_error_iff.1 failed
  have reached : Reached 0 source.toList fault.position := by
    cases written : source.toList with
    | nil => exact absurd (String.toList_eq_nil_iff.1 written) nonempty
    | cons c cs =>
      by_cases slash : c = '/'
      · subst slash
        obtain ⟨front, bad, later, pieces, earlier, faulty⟩ := cut written
        obtain ⟨rest, parts⟩ := exists_eq_preceding written pieces
        obtain ⟨printable, -⟩ := utf8ByteSize_preceding earlier
        rw [← written, parts, String.toList_append, String.toList_append, String.toList_ofList]
        refine Reached.behind _ printable (Reached.before ?_ _)
        simpa [preceding, Nat.add_comm] using Segment.reached_of_read faulty
      -- Without a slash in front, it is the first character that is refused.
      · rw [parse, written] at failed
        simp only [if_neg slash] at failed
        cases failed
        exact .here 0 c cs
  have inside := reached.inside
  rw [String.ofList_toList, Nat.zero_add] at inside
  refine ⟨inside.2, reached.isValid, fun cs slash => ?_⟩
  obtain ⟨front, bad, later, pieces, earlier, faulty⟩ := cut slash
  exact ⟨front, bad, later, pieces, exists_eq_preceding slash pieces,
    blames_of_readSegments pieces earlier faulty⟩

/-- The second segment is refused for a character of two bytes, at its first byte; the third segment is
malformed too, and does not matter. -/
theorem fault_in_first_bad_segment_two_bytes :
    let source := "/ok/a[\\é]/\x7b"
    let fault : Fault := ⟨7, .notPrintable⟩
    parse source = .error fault ∧ 7 < source.utf8ByteSize ∧ (String.Pos.Raw.mk 7).IsValid source ∧
      ∃ front bad later, splitSlashes source.toList.tail = front ++ bad :: later ∧
        (∃ rest, source = preceding front ++ (String.ofList bad ++ rest)) ∧ Blames fault front bad := by
  intro source fault
  have letters : source.toList =
      ['/', 'o', 'k', '/', 'a', '[', '\\', 'é', ']', '/', '\x7b'] := by
    simp [source]
  have failed : parse source = .error fault := by
    rw [parse, letters]
    rfl
  obtain ⟨inside, boundary, blamed⟩ := fault_in_first_bad_segment (by decide) failed
  exact ⟨failed, inside, boundary, blamed source.toList.tail (by rw [letters]; rfl)⟩

end SoundControl.Address
