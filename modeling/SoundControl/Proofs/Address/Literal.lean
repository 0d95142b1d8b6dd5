import SoundControl.Address.Path
import SoundControl.Proofs.Address.Compilation

/-! # Literal addresses as paths and as patterns

An address without pattern productions can be taken in two ways.  As a path it is a literal, which is
kept as it was written and means that one text.  As a pattern it means the text with its escapes
resolved.  The two agree as long as nothing is escaped.

* **`unescape`** — a text with its escapes resolved.
* **`Written.matchesAll_iff`** — a literal matches the text that it spells.
* **`literal_covers_iff`** — what a literal means as a path and as a pattern, and when they agree.
* **`escaped_literal_apart`** — an escaped literal, where they do not. -/

namespace SoundControl.Address

/-- **A text with its escapes resolved:** of a backslash and the character behind it, only the
character is left. -/
def unescape : List Char → List Char
  | [] => []
  | ['\\'] => []
  | '\\' :: c :: cs => c :: unescape cs
  | c :: cs => c :: unescape cs

theorem unescape_cons {c : Char} (plain : c ≠ '\\') (cs : List Char) :
    unescape (c :: cs) = c :: unescape cs := by
  rw [unescape] <;> simp [plain]

/-- Resolving escapes makes no text longer. -/
theorem length_unescape_le (cs : List Char) : (unescape cs).length ≤ cs.length := by
  fun_induction unescape cs <;> simp <;> omega

/-- **Only texts without a backslash stay as they are.** -/
theorem unescape_eq_self_iff {cs : List Char} : unescape cs = cs ↔ '\\' ∉ cs := by
  fun_induction unescape cs with
  | case1 => simp
  | case2 => simp
  | case3 c cs ih =>
    have shorter := length_unescape_le cs
    refine iff_of_false (fun same => ?_) (by simp)
    have lengths := congrArg List.length same
    simp only [List.length_cons] at lengths
    omega
  | case4 c cs bare more ih =>
    have plain := ne_backslash bare more
    simp [ih, plain.symm]

/-- **Spelled letters are resolved to the characters that are meant,** whatever stands behind them. -/
theorem Spelled.unescape_append {letters : List Letter} {text : List Char}
    (spelled : Spelled letters text) (rest : List Char) :
    unescape (text ++ rest) = meant letters ++ unescape rest := by
  induction spelled with
  | nil => rfl
  | plain _ _ plain _ ih =>
    rw [List.cons_append, unescape_cons plain, ih]
    rfl
  | escaped _ _ _ ih =>
    rw [List.cons_append, List.cons_append, unescape, ih]
    rfl

theorem Spelled.unescape_eq {letters : List Letter} {text : List Char}
    (spelled : Spelled letters text) : unescape text = meant letters := by
  simpa [unescape] using spelled.unescape_append []

/-- One text in front of another is the two together. -/
theorem before_eq_iff {M P : List Char → Prop} {first last : List Char}
    (front : ∀ piece, M piece ↔ piece = first) (back : ∀ cs, P cs ↔ cs = last) {cs : List Char} :
    Before M P cs ↔ cs = first ++ last := by
  simp [Before, front, back]

/-- Literal runs match the characters that their letters mean. -/
theorem Token.FormedEach.matchesEach_iff {tokens : List Token} {letters : List Letter}
    (formed : FormedEach tokens letters) (plain : ∀ token ∈ tokens, token.isPattern = false)
    (piece : List Char) : MatchesEach tokens piece ↔ piece = meant letters := by
  induction formed generalizing piece with
  | nil => exact matchesEach_nil
  | @cons token tokens letters rest formed _ ih =>
    obtain ⟨own, others⟩ := List.forall_mem_cons.1 plain
    rw [matchesEach_cons]
    cases formed with
    | literal =>
      have run (piece : List Char) : (Token.literal (meant letters)).Matches piece ↔
          piece = meant letters := Iff.rfl
      rw [before_eq_iff run (ih others)]
      simp [meant]
    | _ => contradiction

/-- A segment without pattern productions matches a slash and the text that it spells. -/
theorem Segment.Written.matches_iff {segment : Segment} {text : List Char}
    (written : segment.Written text) (literal : segment.isPattern = false) (piece : List Char) :
    segment.Matches piece ↔ piece = '/' :: unescape text := by
  cases written with
  | traverse => contradiction
  | @parts tokens letters text _ formed spelled =>
    have runs : ∀ token ∈ tokens, token.isPattern = false := by
      simpa [isPattern] using literal
    rw [matches_parts_iff, before_eq_iff (fun _ => Iff.rfl) (formed.matchesEach_iff runs),
      spelled.unescape_eq, List.singleton_append]

/-- A segment's text is resolved apart from what stands behind it. -/
theorem Segment.Written.unescape_append {segment : Segment} {text : List Char}
    (written : segment.Written text) (rest : List Char) :
    unescape (text ++ rest) = unescape text ++ unescape rest := by
  cases written with
  | traverse => rfl
  | parts _ _ spelled =>
    rw [spelled.unescape_append rest, spelled.unescape_eq]

/-- **An address without pattern productions matches the text that it spells,** and no other. -/
theorem Written.matchesAll_iff {segments : List Segment} {source : List Char}
    (written : Written segments source)
    (literal : ∀ segment ∈ segments, segment.isPattern = false) (address : List Char) :
    MatchesAll segments address ↔ address = unescape source := by
  have slash : '/' ≠ '\\' := by decide
  induction written generalizing address with
  | last written =>
    obtain ⟨own, -⟩ := List.forall_mem_cons.1 literal
    rw [matchesAll_cons, before_eq_iff (written.matches_iff own) (fun _ => matchesAll_nil),
      List.append_nil, unescape_cons slash]
  | cons written _ ih =>
    obtain ⟨own, others⟩ := List.forall_mem_cons.1 literal
    rw [matchesAll_cons, before_eq_iff (written.matches_iff own) (ih others), unescape_cons slash,
      written.unescape_append, List.cons_append]

/-- **What a literal address means.** As a path it is the text that was written; as a pattern, the text
with its escapes resolved.  The two agree on every address if and only if nothing is escaped. -/
theorem literal_covers_iff {source : String} (literal : isPattern source = .ok false) :
    ∃ path pattern, Path.parse source = .ok path ∧ Pattern.compile source = .ok pattern ∧
      (∀ address : String, path.covers address = true ↔ address = source) ∧
      (∀ address : String,
        pattern.covers address = true ↔ address.toList = unescape source.toList) ∧
      ((∀ address : String, path.covers address = pattern.covers address) ↔
        '\\' ∉ source.toList) := by
  obtain ⟨segments, read, plain⟩ := map_eq_ok_iff.1 literal
  have compiled := Pattern.compile_of_parse read
  have parsed : Path.parse source = .ok (.single (.literal source)) := by
    rw [Path.parse, Atom.parse, compiled]
    simp only [Except.map, Pattern.isPattern, plain]
    rfl
  have path (address : String) :
      (Path.single (.literal source)).covers address = true ↔ address = source := by
    rw [Path.covers, Atom.covers, beq_iff_eq, eq_comm]
  have pattern (address : String) : matchesAll segments address.toList = true ↔
      address.toList = unescape source.toList := by
    rw [Address.matchesAll_iff]
    refine (written_of_parse read).1.matchesAll_iff (fun segment listed => ?_) _
    exact Bool.eq_false_iff.2 (List.any_eq_false.1 plain segment listed)
  refine ⟨_, _, parsed, compiled, path, pattern, ?_⟩
  rw [← unescape_eq_self_iff]
  constructor
  · intro agree
    have covered : matchesAll segments source.toList = true :=
      (agree source).symm.trans ((path source).2 rfl)
    exact ((pattern source).1 covered).symm
  · intro same address
    rw [Bool.eq_iff_iff, path, Pattern.covers, pattern, same, String.toList_inj]

/-- A literal with escaped braces. -/
theorem literal_with_braces : isPattern "/u\\\x7b1,2\\\x7d" = .ok false ∧
    ∃ path pattern, Path.parse "/u\\\x7b1,2\\\x7d" = .ok path ∧
      Pattern.compile "/u\\\x7b1,2\\\x7d" = .ok pattern ∧
      (∀ address : String, path.covers address = true ↔ address = "/u\\\x7b1,2\\\x7d") ∧
      (∀ address : String, pattern.covers address = true ↔
        address.toList = unescape "/u\\\x7b1,2\\\x7d".toList) ∧
      ((∀ address : String, path.covers address = pattern.covers address) ↔
        '\\' ∉ "/u\\\x7b1,2\\\x7d".toList) :=
  ⟨by rfl, literal_covers_iff (by rfl)⟩

/-- **An escaped literal means different addresses** as a path and as a pattern. -/
theorem escaped_literal_apart : isPattern "/x\\*" = .ok false ∧
    ∃ path pattern, Path.parse "/x\\*" = .ok path ∧ Pattern.compile "/x\\*" = .ok pattern ∧
      (path.covers "/x\\*" = true ∧ pattern.covers "/x\\*" = false) ∧
      path.covers "/x*" = false ∧ pattern.covers "/x*" = true := by
  have read : parse "/x\\*" = .ok [.parts [.literal ['x', '*']]] := by rfl
  exact ⟨by rfl, .single (.literal "/x\\*"), _, by rfl, Pattern.compile_of_parse read,
    ⟨by rfl, by rfl⟩, by rfl, by rfl⟩

end SoundControl.Address
