import SoundControl.Proofs.Address.Compilation

/-! # The slashes of the addresses that a pattern covers

A pattern is read segment by segment, and its segments hold no slash.  Its productions keep to one
segment of an address as well, with one exception: a class that is not negated and has a range from
a character below the slash to one above it, such as `+-9`, takes the slash too.

* **`Inner`**, **`Token.Inside`** — the characters that a production can name: the slash is none.
* **`Token.admitsSlash`**, **`looseClasses`** — the classes that take a slash, and how many.
* **`Token.slash_of_matches`** — a piece with a slash is the slash that such a class takes.
* **`Slashes`** — how many slashes the pieces of a production have.
* **`matchesAll_slashes`**, **`covers_slashes`** — one for each segment, and up to one more for each
  such class. -/

namespace SoundControl.Address

/-! ## The characters that productions name -/

/-- **A character that a production can name:** a printable one that is no slash. -/
def Inner (c : Char) : Prop := isPrintable c = true ∧ c ≠ '/'

/-- **The characters that a production names.** -/
def Token.Inside : Token → Prop
  | .literal text => ∀ c ∈ text, Inner c
  | .array items => ∀ item ∈ items, ∀ c ∈ item, Inner c
  | .chars _ ranges => ∀ r ∈ ranges, Inner r.1 ∧ Inner r.2
  | _ => True

/-- Letters are written in characters that can be named. -/
theorem Spelled.inner {letters : List Letter} {text : List Char} (spelled : Spelled letters text) :
    ∀ letter ∈ letters, Inner letter.1 := by
  induction spelled with
  | nil => exact List.forall_mem_nil _
  | plain printable other _ _ ih => exact List.forall_mem_cons.2 ⟨⟨printable, other⟩, ih⟩
  | escaped printable other _ ih => exact List.forall_mem_cons.2 ⟨⟨printable, other⟩, ih⟩

/-- The ends of ranges are members. -/
theorem Grouped.inner {members : List Letter} {ranges : List (Char × Char)}
    (grouped : Grouped members ranges) (inner : ∀ letter ∈ members, Inner letter.1) :
    ∀ r ∈ ranges, Inner r.1 ∧ Inner r.2 := by
  induction grouped with
  | nil => exact List.forall_mem_nil _
  | range _ _ ih =>
    obtain ⟨low, joined⟩ := List.forall_mem_cons.1 inner
    obtain ⟨-, joined⟩ := List.forall_mem_cons.1 joined
    obtain ⟨high, others⟩ := List.forall_mem_cons.1 joined
    exact List.forall_mem_cons.2 ⟨⟨low, high⟩, ih others⟩
  | single _ _ ih =>
    obtain ⟨member, others⟩ := List.forall_mem_cons.1 inner
    exact List.forall_mem_cons.2 ⟨⟨member, member⟩, ih others⟩

/-- The letters of an item are letters of the list. -/
theorem mem_intercalate_of_mem {separator item : List Letter} {items : List (List Letter)}
    {letter : Letter} (listed : item ∈ items) (member : letter ∈ item) :
    letter ∈ List.intercalate separator items := by
  induction items with
  | nil => contradiction
  | cons first items ih =>
    cases items with
    | nil =>
      obtain rfl := List.mem_singleton.1 listed
      simpa [List.intercalate] using member
    | cons second items =>
      rw [List.intercalate_cons_cons, List.mem_append, List.mem_append]
      obtain rfl | others := List.mem_cons.1 listed
      · exact .inl (.inl member)
      · exact .inr (ih others)

/-- **A production names characters of its letters.** -/
theorem Token.Formed.inside {token : Token} {letters : List Letter} (formed : token.Formed letters)
    (inner : ∀ letter ∈ letters, Inner letter.1) : token.Inside := by
  cases formed with
  | literal =>
    intro c member
    obtain ⟨letter, listed, rfl⟩ := List.mem_map.1 member
    exact inner letter listed
  | array =>
    intro text listed c member
    obtain ⟨item, among, rfl⟩ := List.mem_map.1 listed
    obtain ⟨letter, own, rfl⟩ := List.mem_map.1 member
    refine inner letter (List.mem_cons_of_mem _ (List.mem_append_left _ ?_))
    exact mem_intercalate_of_mem among own
  | chars _ _ _ grouped =>
    refine grouped.inner fun letter member => inner letter ?_
    exact List.mem_cons_of_mem _ (List.mem_append_left _ member)
  | negated _ _ grouped =>
    refine grouped.inner fun letter member => inner letter ?_
    exact List.mem_cons_of_mem _ (List.mem_cons_of_mem _ (List.mem_append_left _ member))
  | wildcard | maybe => trivial

theorem Token.FormedEach.inside {tokens : List Token} {letters : List Letter}
    (formed : FormedEach tokens letters) (inner : ∀ letter ∈ letters, Inner letter.1) :
    ∀ token ∈ tokens, token.Inside := by
  induction formed with
  | nil => exact List.forall_mem_nil _
  | cons formed _ ih =>
    obtain ⟨own, others⟩ := List.forall_mem_append.1 inner
    exact List.forall_mem_cons.2 ⟨formed.inside own, ih others⟩

/-- **What the reader of addresses ensures of the tokens of a segment:** they are well-formed, and
name neither slashes nor characters that cannot be printed. -/
theorem Written.tokens {segments : List Segment} {source : List Char}
    (written : Written segments source) {tokens : List Token} (listed : .parts tokens ∈ segments) :
    ∀ token ∈ tokens, token.WellFormed ∧ token.Inside := by
  have segment {text : List Char} (written : (Segment.parts tokens).Written text) :
      ∀ token ∈ tokens, token.WellFormed ∧ token.Inside := by
    cases written with
    | parts _ formed spelled =>
      intro token member
      exact ⟨formed.wellFormed token member, formed.inside spelled.inner token member⟩
  induction written with
  | last written =>
    obtain rfl := List.mem_singleton.1 listed
    exact segment written
  | cons written _ ih =>
    obtain rfl | others := List.mem_cons.1 listed
    · exact segment written
    · exact ih others

/-- A source has one slash for each of its segments. -/
theorem Written.count_slash {segments : List Segment} {source : List Char}
    (written : Written segments source) : source.count '/' = segments.length := by
  induction written with
  | last written => simp [List.count_eq_zero.2 written.no_slash]
  | cons written _ ih => simp [List.count_eq_zero.2 written.no_slash, ih]

/-! ## The classes that take a slash -/

/-- **A class that takes a slash:** it is not negated, and one of its ranges spans the slash. -/
def Token.admitsSlash : Token → Bool
  | .chars false ranges => inRanges ranges '/'
  | _ => false

/-- **How many classes of a segment take a slash.** -/
def Segment.looseClasses : Segment → Nat
  | .traverse => 0
  | .parts tokens => tokens.countP Token.admitsSlash

/-- **How many classes take a slash.** -/
def looseClasses : List Segment → Nat
  | [] => 0
  | segment :: segments => segment.looseClasses + looseClasses segments

namespace Token

variable {token : Token} {piece : List Char}

/-- **A piece with a slash is the slash that a class takes.** -/
theorem slash_of_matches (inside : token.Inside) (covered : token.Matches piece)
    (slash : '/' ∈ piece) : token.admitsSlash = true ∧ piece = ['/'] := by
  match token with
  | .literal text =>
    obtain rfl : piece = text := covered
    exact absurd rfl (inside '/' slash).2
  | .array items => exact absurd rfl (inside piece covered '/' slash).2
  | .chars false ranges =>
    obtain ⟨c, rfl, within⟩ := covered
    obtain rfl := List.mem_singleton.1 slash
    exact ⟨within, rfl⟩
  | .chars true ranges =>
    obtain ⟨c, rfl, other, -⟩ := covered
    exact absurd (List.mem_singleton.1 slash).symm other
  | .wildcard => exact absurd rfl (covered.2 '/' slash)
  | .maybe =>
    obtain ⟨c, rfl, other⟩ := covered
    exact absurd (List.mem_singleton.1 slash).symm other

/-- What follows the last printable character lies in no range of those that can be named. -/
theorem delete_not_in_ranges {ranges : List (Char × Char)}
    (inside : ∀ r ∈ ranges, Inner r.1 ∧ Inner r.2) : ¬ inRanges ranges '\x7f' = true := by
  intro within
  obtain ⟨r, listed, within⟩ := List.any_eq_true.1 within
  obtain ⟨-, printable, -⟩ := inside r listed
  rw [isPrintable, Bool.and_eq_true, decide_eq_true_eq, decide_eq_true_eq] at printable
  rw [Bool.and_eq_true, decide_eq_true_eq, decide_eq_true_eq] at within
  have below : ('\x7f').toNat ≤ r.2.toNat := within.2
  exact absurd (below.trans printable.2) (by decide)

/-- Every production has a piece without a slash. -/
theorem exists_matches_without_slash (wellFormed : token.WellFormed) (inside : token.Inside) :
    ∃ piece, token.Matches piece ∧ '/' ∉ piece := by
  match token with
  | .literal text => exact ⟨text, rfl, fun slash => absurd rfl (inside '/' slash).2⟩
  | .array items =>
    obtain ⟨item, listed⟩ := List.exists_mem_of_ne_nil items wellFormed
    exact ⟨item, listed, fun slash => absurd rfl (inside item listed '/' slash).2⟩
  | .chars false ranges =>
    -- The lower end of a range lies in it, and is no slash.
    obtain ⟨r, listed⟩ := List.exists_mem_of_ne_nil ranges wellFormed.1
    have ordered := wellFormed.2 r listed
    refine ⟨[r.1], ⟨r.1, rfl, List.any_eq_true.2 ⟨r, listed, ?_⟩⟩, ?_⟩
    · simp [ordered]
    · simpa using (inside r listed).1.2.symm
  | .chars true ranges =>
    exact ⟨['\x7f'], ⟨'\x7f', rfl, by decide, delete_not_in_ranges inside⟩, by simp⟩
  | .wildcard => exact ⟨['a'], ⟨List.cons_ne_nil _ _, by simp⟩, by simp⟩
  | .maybe => exact ⟨['a'], ⟨'a', rfl, by decide⟩, by simp⟩

/-- A class that takes a slash has it as a piece. -/
theorem matches_slash_of_admits (admits : token.admitsSlash = true) : token.Matches ['/'] := by
  match token with
  | .chars false ranges => exact ⟨'/', rfl, admits⟩
  | .literal _ | .array _ | .chars true _ | .wildcard | .maybe => simp [admitsSlash] at admits

end Token

/-! ## How many slashes there are -/

/-- **How many slashes the pieces in `M` have:** any number from `least` to `most`, and no other. -/
structure Slashes (M : List Char → Prop) (least most : Nat) : Prop where
  /-- Every piece has as many. -/
  bounded : ∀ piece, M piece → least ≤ piece.count '/' ∧ piece.count '/' ≤ most
  /-- As many are had by some piece. -/
  reached : ∀ n, least ≤ n → n ≤ most → ∃ piece, M piece ∧ piece.count '/' = n
  /-- There is such a number. -/
  ordered : least ≤ most

namespace Slashes

variable {M P : List Char → Prop} {least most low high : Nat}

theorem congr (same : ∀ piece, M piece ↔ P piece) (slashes : Slashes P least most) :
    Slashes M least most := by
  have eq : M = P := funext fun piece => propext (same piece)
  exact eq ▸ slashes

/-- One text has the slashes that it has. -/
theorem singleton (text : List Char) :
    Slashes (· = text) (text.count '/') (text.count '/') where
  bounded := by
    rintro piece rfl
    exact ⟨le_rfl, le_rfl⟩
  reached n lower upper := ⟨text, rfl, le_antisymm lower upper⟩
  ordered := le_rfl

/-- **A piece and what follows it** have the slashes of both. -/
theorem before (front : Slashes M least most) (back : Slashes P low high) :
    Slashes (Before M P) (least + low) (most + high) where
  bounded := by
    rintro _ ⟨piece, rest, rfl, own, others⟩
    have own := front.bounded piece own
    have others := back.bounded rest others
    rw [List.count_append]
    omega
  reached n lower upper := by
    have ordered := front.ordered
    -- As many as can be behind the piece, and the others in it.
    obtain ⟨rest, others, behind⟩ := back.reached (min high (n - least)) (by
      have := back.ordered
      omega) (min_le_left _ _)
    obtain ⟨piece, own, within⟩ := front.reached (n - min high (n - least)) (by omega) (by omega)
    refine ⟨piece ++ rest, ⟨piece, rest, rfl, own, others⟩, ?_⟩
    rw [List.count_append, within, behind]
    omega
  ordered := Nat.add_le_add front.ordered back.ordered

/-- The numbers in between, as one equivalence. -/
theorem exists_iff (slashes : Slashes M least most) (n : Nat) :
    (∃ piece, M piece ∧ piece.count '/' = n) ↔ least ≤ n ∧ n ≤ most := by
  constructor
  · rintro ⟨piece, covered, rfl⟩
    exact slashes.bounded piece covered
  · rintro ⟨lower, upper⟩
    exact slashes.reached n lower upper

/-- All pieces have the least number if there is no other. -/
theorem forall_eq_iff (slashes : Slashes M least most) :
    (∀ piece, M piece → piece.count '/' = least) ↔ most = least := by
  constructor
  · intro same
    obtain ⟨piece, covered, count⟩ := slashes.reached most slashes.ordered le_rfl
    rw [← count, same piece covered]
  · rintro rfl piece covered
    exact le_antisymm (slashes.bounded piece covered).2 (slashes.bounded piece covered).1

end Slashes

/-- **A production has no slash,** unless it is a class that takes one. -/
theorem Token.slashes {token : Token} (wellFormed : token.WellFormed) (inside : token.Inside) :
    Slashes token.Matches 0 (if token.admitsSlash then 1 else 0) where
  bounded piece covered := by
    refine ⟨Nat.zero_le _, ?_⟩
    by_cases slash : '/' ∈ piece
    · obtain ⟨admits, rfl⟩ := slash_of_matches inside covered slash
      simp [admits]
    · rw [List.count_eq_zero.2 slash]
      exact Nat.zero_le _
  reached n _ upper := by
    obtain rfl | positive := Nat.eq_zero_or_pos n
    · obtain ⟨piece, covered, absent⟩ := exists_matches_without_slash wellFormed inside
      exact ⟨piece, covered, List.count_eq_zero.2 absent⟩
    · split at upper
      next admits => exact ⟨['/'], matches_slash_of_admits admits, le_antisymm positive upper⟩
      next => exact absurd positive (Nat.not_lt.2 upper)
  ordered := Nat.zero_le _

/-- Several productions have up to one slash for each class that takes one. -/
theorem Token.matchesEach_slashes {tokens : List Token}
    (each : ∀ token ∈ tokens, token.WellFormed ∧ token.Inside) :
    Slashes (MatchesEach tokens) 0 (tokens.countP admitsSlash) := by
  induction tokens with
  | nil => exact (Slashes.singleton []).congr fun _ => matchesEach_nil
  | cons token tokens ih =>
    obtain ⟨⟨wellFormed, inside⟩, others⟩ := List.forall_mem_cons.1 each
    rw [List.countP_cons, Nat.add_comm]
    exact ((slashes wellFormed inside).before (ih others)).congr fun _ => matchesEach_cons

/-- A segment has its own slash besides. -/
theorem Segment.slashes {tokens : List Token}
    (each : ∀ token ∈ tokens, token.WellFormed ∧ token.Inside) :
    Slashes (Segment.parts tokens).Matches 1 (1 + (Segment.parts tokens).looseClasses) :=
  ((Slashes.singleton ['/']).before (Token.matchesEach_slashes each)).congr
    fun _ => matches_parts_iff

/-- **An address has one slash for each segment,** and up to one more for each class that takes
one, unless a segment is a traversal. -/
theorem matchesAll_slashes {segments : List Segment} (apart : .traverse ∉ segments)
    (each : ∀ tokens, .parts tokens ∈ segments →
      ∀ token ∈ tokens, token.WellFormed ∧ token.Inside) :
    Slashes (MatchesAll segments) segments.length (segments.length + looseClasses segments) := by
  induction segments with
  | nil => exact (Slashes.singleton []).congr fun _ => matchesAll_nil
  | cons segment segments ih =>
    rw [List.mem_cons, not_or] at apart
    have others := ih apart.2 fun tokens listed => each tokens (List.mem_cons_of_mem _ listed)
    cases segment with
    | traverse => exact absurd rfl apart.1
    | parts tokens =>
      have both := (Segment.slashes (each tokens List.mem_cons_self)).before others
      have most : (segments.length + 1) + looseClasses (.parts tokens :: segments) =
          (1 + (Segment.parts tokens).looseClasses) + (segments.length + looseClasses segments) := by
        rw [looseClasses]
        omega
      rw [List.length_cons, most, Nat.add_comm segments.length 1]
      exact both.congr fun _ => matchesAll_cons

/-- A pattern covers an address if its segments match it. -/
theorem Pattern.covers_iff (pattern : Pattern) (address : String) :
    pattern.covers address = true ↔ MatchesAll pattern.segments address.toList :=
  matchesAll_iff pattern.segments address.toList

/-- **The slashes of the addresses that a pattern covers.** A source without an empty segment has
one slash for each of its segments.  The addresses that it covers have as many, or more: any number
up to one more for each class that takes a slash.  So they have exactly as many if and only if there
is no such class, and a slash inside a production is always one that such a class takes alone. -/
theorem covers_slashes {source : String} {segments : List Segment}
    (read : parse source = .ok segments) (apart : .traverse ∉ segments) :
    source.toList.count '/' = segments.length ∧
    ∃ pattern, Pattern.compile source = .ok pattern ∧
      (∀ n, (∃ address : String, pattern.covers address = true ∧ address.toList.count '/' = n) ↔
        segments.length ≤ n ∧ n ≤ segments.length + looseClasses segments) ∧
      ((∀ address : String, pattern.covers address = true →
        address.toList.count '/' = segments.length) ↔ looseClasses segments = 0) ∧
      ∀ tokens, .parts tokens ∈ segments → ∀ token ∈ tokens, ∀ piece, token.Matches piece →
        '/' ∈ piece → token.admitsSlash = true ∧ piece = ['/'] := by
  have written := (written_of_parse read).1
  have slashes := matchesAll_slashes apart fun _ listed => written.tokens listed
  refine ⟨written.count_slash, _, Pattern.compile_of_parse read, fun n => ?_, ?_, ?_⟩
  · rw [← slashes.exists_iff n]
    simp only [Pattern.covers_iff]
    constructor
    · rintro ⟨address, covered, count⟩
      exact ⟨address.toList, covered, count⟩
    · rintro ⟨piece, covered, count⟩
      refine ⟨String.ofList piece, ?_⟩
      rw [String.toList_ofList]
      exact ⟨covered, count⟩
  · have equal : looseClasses segments = 0 ↔
        segments.length + looseClasses segments = segments.length := by omega
    rw [equal, ← slashes.forall_eq_iff]
    simp only [Pattern.covers_iff]
    constructor
    · intro same piece covered
      rw [← String.toList_ofList (l := piece)] at covered ⊢
      exact same _ covered
    · intro same address covered
      exact same address.toList covered
  · intro tokens listed token member piece covered slash
    exact Token.slash_of_matches (written.tokens listed token member).2 covered slash

/-- Two segments with all kinds of productions: the addresses covered have two slashes or three. -/
theorem covers_slashes_all_productions :
    let segments : List Segment :=
      [.parts [.literal ['x'], .chars false [('+', '9')], .wildcard],
        .parts [.chars true [('+', '9')], .maybe, .array [['1'], [], ['1', '0']]]]
    parse "/x[+-9]*/[!+-9]?\x7b1,,10\x7d" = .ok segments ∧ .traverse ∉ segments ∧
    "/x[+-9]*/[!+-9]?\x7b1,,10\x7d".toList.count '/' = 2 ∧
    ∃ pattern, Pattern.compile "/x[+-9]*/[!+-9]?\x7b1,,10\x7d" = .ok pattern ∧
      ∀ n, (∃ address : String, pattern.covers address = true ∧ address.toList.count '/' = n) ↔
        2 ≤ n ∧ n ≤ 3 := by
  intro segments
  have read : parse "/x[+-9]*/[!+-9]?\x7b1,,10\x7d" = .ok segments := by rfl
  have apart : .traverse ∉ segments := by decide
  obtain ⟨count, pattern, compiled, numbers, -⟩ := covers_slashes read apart
  exact ⟨read, apart, count, pattern, compiled, numbers⟩

/-- A class that spans the slash covers it, so that an address of two segments is covered by a
pattern of one. -/
theorem slash_covered_by_class :
    parse "/x[+-9]y" = .ok [.parts [.literal ['x'], .chars false [('+', '9')], .literal ['y']]] ∧
    ∃ pattern, Pattern.compile "/x[+-9]y" = .ok pattern ∧
      pattern.covers "/x/y" = true ∧ "/x/y".toList.count '/' = 2 :=
  have read : parse "/x[+-9]y" =
      .ok [.parts [.literal ['x'], .chars false [('+', '9')], .literal ['y']]] := by rfl
  ⟨read, _, Pattern.compile_of_parse read, by rfl, by decide⟩

end SoundControl.Address
