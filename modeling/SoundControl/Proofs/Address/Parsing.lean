import SoundControl.Proofs.Address.Printable
import SoundControl.Proofs.Address.Productions

/-! # Exactly the addresses of the grammar are read

* **`Segment.Written.read_eq`**, **`Segment.written_of_read`** — segments.
* **`written_iff_forall₂`** — an address is a slash and segments between slashes.
* **`Written.parse_eq`**, **`written_of_parse`** — addresses.
* **`parse_eq_ok_iff`** — exactly the texts of the grammar are read, each in its one reading in which
  no literal run stands beside another. -/

namespace SoundControl.Address

/-! ## Segments -/

/-- The segment with its literal runs as long as can be. -/
def Segment.merge : Segment → Segment
  | .traverse => .traverse
  | .parts tokens => .parts (tokens.foldr Token.push [])

/-- Every production has a letter. -/
theorem Token.Formed.ne_nil {token : Token} {letters : List Letter} (formed : token.Formed letters) :
    letters ≠ [] := by
  cases formed with
  | literal filled => exact filled
  | _ => exact List.cons_ne_nil _ _

theorem Token.formedEach_nil_iff {tokens : List Token} : FormedEach tokens [] ↔ tokens = [] := by
  constructor
  · intro formed
    generalize empty : ([] : List Letter) = letters at formed
    cases formed with
    | nil => rfl
    | cons formed => exact absurd (List.append_eq_nil_iff.1 empty.symm).1 formed.ne_nil
  · rintro rfl
    exact .nil

theorem spelled_nil_iff {letters : List Letter} : Spelled letters [] ↔ letters = [] :=
  ⟨fun spelled => by cases spelled; rfl, fun empty => empty ▸ .nil⟩

/-- A slash belongs to no segment. -/
theorem Segment.Written.no_slash {segment : Segment} {text : List Char}
    (written : segment.Written text) : '/' ∉ text := by
  cases written with
  | traverse => simp
  | parts _ _ spelled => exact spelled.no_slash

/-- **What can be written as a segment is read as one,** with its literal runs as long as can be. -/
theorem Segment.Written.read_eq {segment : Segment} {text : List Char}
    (written : segment.Written text) (position : Nat) :
    Segment.read position text = .ok segment.merge := by
  cases written with
  | traverse => rfl
  | @parts tokens letters text filled formed spelled =>
    have nonempty : text.isEmpty = false := by
      refine Bool.eq_false_iff.2 fun empty => filled ?_
      obtain rfl := List.isEmpty_iff.1 empty
      obtain rfl := spelled_nil_iff.1 spelled
      exact Token.formedEach_nil_iff.1 formed
    obtain ⟨same, whole⟩ := lex_of_spelled spelled position
    rw [Segment.read, nonempty]
    show (Token.ofGlyphs (Glyph.lex position text).2 .plain (Glyph.lex position text).1).map
      Segment.parts = _
    rw [whole, formed.ofGlyphs_eq same]
    rfl

/-- A separate segment has its literal runs as long as can be. -/
theorem Segment.Written.merge_eq {segment : Segment} {text : List Char}
    (written : segment.Written text) (separate : segment.Separate) : segment.merge = segment := by
  cases written with
  | traverse => rfl
  | parts _ formed _ => exact congrArg Segment.parts (formed.foldr_push separate)

/-- **What is read as a segment can be written as it,** with no literal run beside another. -/
theorem Segment.written_of_read {position : Nat} {text : List Char} {segment : Segment}
    (inside : '/' ∉ text) (read : Segment.read position text = .ok segment) :
    segment.Written text ∧ segment.Separate := by
  rw [Segment.read] at read
  split at read
  next empty =>
    cases read
    rw [List.isEmpty_iff.1 empty]
    exact ⟨.traverse, trivial⟩
  next nonempty =>
    obtain ⟨tokens, formed, rfl⟩ := map_eq_ok_iff.1 read
    have whole := stop_eq_none_of_ofGlyphs formed
    rw [whole] at formed
    have spelled := spelled_of_lex position text inside whole
    obtain ⟨formed, separate⟩ := Token.formedEach_of_ofGlyphs formed rfl
    refine ⟨.parts ?_ formed spelled, separate⟩
    -- Without tokens there would be no letters, and no text.
    rintro rfl
    cases written : (Glyph.lex position text).1.map Glyph.letter with
    | nil =>
      rw [written] at spelled
      cases spelled
      exact nonempty rfl
    | cons letter letters =>
      rw [written] at formed
      cases formed

/-! ## Addresses -/

/-- Splitting at slashes is splitting a list at a character. -/
theorem splitSlashes_eq_splitOn (cs : List Char) : splitSlashes cs = cs.splitOn '/' := by
  induction cs with
  | nil => rfl
  | cons c cs ih =>
    rw [splitSlashes, List.splitOn_eq_splitOnP, List.splitOnP_cons_eq_if_modifyHead,
      ← List.splitOn_eq_splitOnP, ih]
    by_cases slash : c = '/'
    · simp [slash]
    · cases texts : cs.splitOn '/' with
      | nil => exact absurd texts (List.splitOn_ne_nil '/' cs)
      | cons text texts => simp [slash]

/-- No slash is between two slashes. -/
theorem no_slash_of_mem_splitSlashes {cs text : List Char} (listed : text ∈ splitSlashes cs) :
    '/' ∉ text := by
  induction cs generalizing text with
  | nil =>
    obtain rfl : text = [] := by simpa [splitSlashes] using listed
    simp
  | cons c cs ih =>
    rw [splitSlashes] at listed
    split at listed
    next slash =>
      rcases List.mem_cons.1 listed with rfl | later
      · simp
      · exact ih later
    next other =>
      cases texts : splitSlashes cs with
      | nil =>
        obtain rfl : text = [c] := by simpa [texts] using listed
        simpa using Ne.symm other
      | cons first texts' =>
        rw [texts] at listed ih
        rcases List.mem_cons.1 listed with rfl | later
        · simpa using ⟨Ne.symm other, ih List.mem_cons_self⟩
        · exact ih (List.mem_cons_of_mem _ later)

/-- **An address is a slash and segments between slashes.** -/
theorem written_iff_forall₂ {segments : List Segment} {source : List Char} :
    Written segments source ↔ ∃ cs, source = '/' :: cs ∧
      List.Forall₂ Segment.Written segments (splitSlashes cs) := by
  constructor
  · intro written
    induction written with
    | @last segment text written =>
      refine ⟨text, rfl, ?_⟩
      rw [splitSlashes_eq_splitOn, List.splitOn_eq_singleton written.no_slash]
      exact .cons written .nil
    | @cons segment segments text _ written _ ih =>
      obtain ⟨cs, rfl, others⟩ := ih
      refine ⟨_, rfl, ?_⟩
      rw [splitSlashes_eq_splitOn, List.splitOn_append_cons_self_of_not_mem written.no_slash,
        ← splitSlashes_eq_splitOn]
      exact .cons written others
  · rintro ⟨cs, rfl, each⟩
    have joined : List.intercalate ['/'] (splitSlashes cs) = cs := by
      rw [splitSlashes_eq_splitOn, List.intercalate_splitOn]
    have nonempty : splitSlashes cs ≠ [] := by
      rw [splitSlashes_eq_splitOn]
      exact List.splitOn_ne_nil '/' cs
    rw [← joined]
    generalize splitSlashes cs = texts at each nonempty
    clear joined
    induction each with
    | nil => contradiction
    | @cons segment text segments texts written others ih =>
      cases others with
      | nil => simpa [List.intercalate] using Written.last written
      | cons second others =>
        rw [List.intercalate_cons_cons, List.append_assoc]
        exact .cons written (ih (List.cons_ne_nil _ _))

/-- Texts that can be written as segments are read, with their literal runs as long as can be. -/
theorem readSegments_of_forall₂ {segments : List Segment} {texts : List (List Char)}
    (each : List.Forall₂ Segment.Written segments texts) (position : Nat) :
    readSegments position texts = .ok (segments.map Segment.merge) := by
  induction each generalizing position with
  | nil => rfl
  | cons written _ ih =>
    rw [readSegments, written.read_eq, ok_bind, ih, ok_bind]
    rfl

theorem forall₂_of_readSegments {segments : List Segment} {texts : List (List Char)}
    (inside : ∀ text ∈ texts, '/' ∉ text) {position : Nat}
    (read : readSegments position texts = .ok segments) :
    List.Forall₂ Segment.Written segments texts ∧ ∀ segment ∈ segments, segment.Separate := by
  induction texts generalizing position segments with
  | nil =>
    cases read
    exact ⟨.nil, by simp⟩
  | cons text texts ih =>
    obtain ⟨here, others⟩ := List.forall_mem_cons.1 inside
    rw [readSegments, bind_eq_ok_iff] at read
    obtain ⟨segment, own, read⟩ := read
    obtain ⟨segments, rest, result⟩ := bind_eq_ok_iff.1 read
    obtain rfl := Except.ok.inj result
    obtain ⟨written, separate⟩ := Segment.written_of_read here own
    obtain ⟨each, apart⟩ := ih others rest
    exact ⟨.cons written each, List.forall_mem_cons.2 ⟨separate, apart⟩⟩

/-- **What can be written as an address is read,** with its literal runs as long as can be. -/
theorem Written.parse_eq {segments : List Segment} {source : String}
    (written : Written segments source.toList) :
    parse source = .ok (segments.map Segment.merge) := by
  obtain ⟨cs, start, each⟩ := written_iff_forall₂.1 written
  rw [parse, start]
  exact readSegments_of_forall₂ each 1

/-- Segments that are separate have their literal runs as long as can be. -/
theorem Written.map_merge {segments : List Segment} {source : List Char}
    (written : Written segments source) (separate : ∀ segment ∈ segments, segment.Separate) :
    segments.map Segment.merge = segments := by
  induction written with
  | last written =>
    obtain ⟨own, -⟩ := List.forall_mem_cons.1 separate
    rw [List.map_singleton, written.merge_eq own]
  | cons written _ ih =>
    obtain ⟨own, others⟩ := List.forall_mem_cons.1 separate
    rw [List.map_cons, written.merge_eq own, ih others]

/-- **What is read can be written,** with no literal run beside another. -/
theorem written_of_parse {source : String} {segments : List Segment}
    (read : parse source = .ok segments) :
    Written segments source.toList ∧ ∀ segment ∈ segments, segment.Separate := by
  unfold parse at read
  split at read
  next => simp at read
  next c cs start =>
    split at read
    next slash =>
      obtain ⟨each, separate⟩ :=
        forall₂_of_readSegments (fun _ => no_slash_of_mem_splitSlashes) read
      rw [start, slash]
      exact ⟨written_iff_forall₂.2 ⟨cs, rfl, each⟩, separate⟩
    next => simp at read

/-- **Exactly the texts of the grammar are read,** each as the one reading of it in which literal runs
are as long as can be: whatever other reading there is differs only in where they are cut. -/
theorem parse_eq_ok_iff (source : String) :
    ((∃ segments, parse source = .ok segments) ↔ ∃ segments, Written segments source.toList) ∧
    (∀ segments, parse source = .ok segments ↔
      Written segments source.toList ∧ ∀ segment ∈ segments, segment.Separate) ∧
    ∀ segments, Written segments source.toList →
      parse source = .ok (segments.map Segment.merge) := by
  refine ⟨⟨?_, ?_⟩, fun segments => ⟨written_of_parse, ?_⟩, fun segments => Written.parse_eq⟩
  · rintro ⟨segments, read⟩
    exact ⟨segments, (written_of_parse read).1⟩
  · rintro ⟨segments, written⟩
    exact ⟨_, written.parse_eq⟩
  · rintro ⟨written, separate⟩
    rw [written.parse_eq, written.map_merge separate]

/-- Every kind of production is read, runs of letters that are read apart are read as one, and a mark
of negation is no member. -/
theorem grammar_of_all_productions :
    let segments : List Segment := [.parts [.literal ['a', '{'], .array [['x'], [], []],
      .chars true [('a', 'c'), ('-', '-')], .wildcard, .maybe], .traverse,
      .parts [.chars false [('+', '9')]]]
    (parse "/a\\\x7b\x7bx,,\x7d[!a-c-]*?//[+-9]" = .ok segments ∧
      Written segments "/a\\\x7b\x7bx,,\x7d[!a-c-]*?//[+-9]".toList ∧
      ∀ segment ∈ segments, segment.Separate) ∧
    (Written [.parts [.literal ['a'], .literal ['b']]] "/ab".toList ∧
      parse "/ab" = .ok [.parts [.literal ['a', 'b']]]) ∧
    ¬∃ segments, Written segments "/[!]".toList := by
  intro segments
  have read : parse "/a\\\x7b\x7bx,,\x7d[!a-c-]*?//[+-9]" = .ok segments := by rfl
  have apart : Written [.parts [.literal ['a'], .literal ['b']]] "/ab".toList := by
    have a := @Token.Formed.literal [('a', false)] (by simp) (by simp [Avoids])
    have b := @Token.Formed.literal [('b', false)] (by simp) (by simp [Avoids])
    have spelled : Spelled [('a', false), ('b', false)] ['a', 'b'] :=
      .plain rfl (by decide) (by decide) (.plain rfl (by decide) (by decide) .nil)
    exact .last (.parts (List.cons_ne_nil _ _) (.cons a (.cons b .nil)) spelled)
  refine ⟨⟨read, ((parse_eq_ok_iff _).2.1 segments).1 read⟩,
    ⟨apart, (parse_eq_ok_iff _).2.2 _ apart⟩, fun written => ?_⟩
  obtain ⟨segments, read⟩ := (parse_eq_ok_iff "/[!]").1.2 written
  contradiction

end SoundControl.Address
