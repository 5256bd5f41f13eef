import Mathlib.Data.List.Infix
import Prognosis.Token.Scan

/-! The tokens tile the text. Every character belongs to exactly one stretch: a token, a blank, a
comment, or a single character that is reported. The stretches carry their offsets, and the
places of tokens and reports are those of the offsets.
-/

namespace Prognosis

-----------------------------------------------------------------------------------------
-- Places by offsets
-----------------------------------------------------------------------------------------

namespace Span

/-- The place of an offset: the line counts the line ends in front of it, the column the
characters since the last of them.
-/
def ofOffset (cs : List Char) (offset : Nat) : Span :=
  ⟨1 + (cs.take offset).count '\n',
    ((cs.take offset).reverse.takeWhile (· != '\n')).length + 1⟩

/-- The place comes earlier in a text than the other one. -/
def Before (a b : Span) : Prop :=
  a.line < b.line ∨ a.line = b.line ∧ a.column < b.column

theorem Before.trans {a b c : Span} (first : a.Before b) (second : b.Before c) : a.Before c := by
  unfold Before at *
  omega

theorem past_append (span : Span) (cs ds : List Char)
    : span.past (cs ++ ds) = (span.past cs).past ds :=
  List.foldl_append ..

theorem before_after (span : Span) (c : Char) : span.Before (span.after c) := by
  unfold after
  split
  case isTrue => exact Or.inl (Nat.lt_succ_self _)
  case isFalse => exact Or.inr ⟨rfl, Nat.lt_succ_self _⟩

/-- Reading on leads to a later place. -/
theorem before_past (span : Span) (c : Char) (cs : List Char)
    : span.Before (span.past (c :: cs)) := by
  induction cs generalizing span c with
  | nil => exact before_after span c
  | cons d ds ih => exact (before_after span c).trans (ih (span.after c) d)

/-- Reading from the start of a text counts its lines and columns. By induction from the end, as
only the last line end decides the column.
-/
theorem past_start (cs : List Char)
    : Span.past ⟨1, 1⟩ cs
      = ⟨1 + cs.count '\n', (cs.reverse.takeWhile (· != '\n')).length + 1⟩ := by
  induction cs using List.reverseRecOn with
  | nil => rfl
  | append_singleton ds d ih =>
      rw [past_append, ih, List.count_append, List.reverse_append]
      by_cases ending : d = '\n'
      · subst ending
        rfl
      · simp [past, after, ending]

theorem ofOffset_eq_past (cs : List Char) (offset : Nat)
    : ofOffset cs offset = Span.past ⟨1, 1⟩ (cs.take offset) :=
  (past_start _).symm

/-- The place behind some characters at an offset. -/
theorem ofOffset_behind {cs chars behind : List Char} {offset : Nat}
    (split : cs.drop offset = chars ++ behind)
    : ofOffset cs (offset + chars.length) = (ofOffset cs offset).past chars := by
  rw [ofOffset_eq_past, ofOffset_eq_past, ← past_append, List.take_add, split, List.take_left]

/-- Different offsets have different places, in the same order. -/
theorem ofOffset_before {cs : List Char} {i j : Nat} (lt : i < j) (inside : i < cs.length)
    : (ofOffset cs i).Before (ofOffset cs j) := by
  have split : cs.take j = cs.take i ++ cs[i] :: (cs.drop (i + 1)).take (j - (i + 1)) := by
    obtain ⟨width, rfl⟩ := Nat.exists_eq_add_of_lt lt
    rw [Nat.add_assoc, List.take_add, List.drop_eq_getElem_cons inside, List.take_succ_cons,
      Nat.add_sub_add_left]
    simp
  rw [ofOffset_eq_past, ofOffset_eq_past, split, past_append]
  exact before_past ..

end Span

/-- The finding reports a character that starts nothing. -/
def LexicalFinding.isUnexpected : LexicalFinding → Bool
  | unexpectedCharacter _ => true
  | _ => false

namespace Token

open Text

variable {α : Type}

-----------------------------------------------------------------------------------------
-- Comments
-----------------------------------------------------------------------------------------

/-- The characters are a comment in front of what is behind them: two slashes and the rest of the
line with its end, or a slash and an asterisk up to the first asterisk and slash. Either may be
cut off by the end of the text.
-/
inductive IsComment : (chars behind : List Char) → Prop where
  | line {body behind} (within : '\n' ∉ body) : IsComment ('/' :: '/' :: (body ++ ['\n'])) behind
  | lastLine {body} (within : '\n' ∉ body) : IsComment ('/' :: '/' :: body) []
  | block {body behind} (first : ¬ ['*', '/'] <:+: body ++ ['*'])
      : IsComment ('/' :: '*' :: (body ++ ['*', '/'])) behind
  | unclosed {body} (never : ¬ ['*', '/'] <:+: body) : IsComment ('/' :: '*' :: body) []

/-- A line comment takes the rest of its line. By induction along the line. -/
theorem isComment_line (cs : List Char)
    : IsComment ('/' :: '/' :: cs.take (lineWidth cs)) (cs.drop (lineWidth cs)) := by
  have line : (∃ body, '\n' ∉ body ∧ cs.take (lineWidth cs) = body ++ ['\n'])
      ∨ ('\n' ∉ cs ∧ lineWidth cs = cs.length) := by
    fun_induction lineWidth cs with
    | case1 => exact Or.inr ⟨List.not_mem_nil, rfl⟩
    | case2 rest => exact Or.inl ⟨[], List.not_mem_nil, rfl⟩
    | case3 c rest other ih =>
        have inside : '\n' ≠ c := fun same => other same.symm
        rcases ih with ⟨body, within, taken⟩ | ⟨within, all⟩
        · exact Or.inl ⟨c :: body, List.not_mem_cons_of_ne_of_not_mem inside within,
            congrArg (c :: ·) taken⟩
        · exact Or.inr ⟨List.not_mem_cons_of_ne_of_not_mem inside within, congrArg (· + 1) all⟩
  rcases line with ⟨body, within, taken⟩ | ⟨within, all⟩
  · rw [taken]
    exact .line within
  · rw [all, List.take_length, List.drop_length]
    exact .lastLine within

/-- The asterisk and slash that close a comment are the first ones. By induction along the text.
-/
theorem commentWidth?_some {cs : List Char} {width : Nat} (is : commentWidth? cs = some width)
    : ∃ body behind, cs = body ++ '*' :: '/' :: behind ∧ width = body.length + 2
      ∧ ¬ ['*', '/'] <:+: body ++ ['*'] := by
  fun_induction commentWidth? cs generalizing width with
  | case1 rest =>
      cases is
      exact ⟨[], rest, rfl, rfl, by decide⟩
  | case2 c rest other ih =>
      obtain ⟨inner, found, rfl⟩ := Option.map_eq_some_iff.mp is
      obtain ⟨body, behind, rfl, rfl, first⟩ := ih found
      refine ⟨c :: body, behind, rfl, rfl, fun closes => ?_⟩
      rcases List.infix_cons_iff.mp closes with ⟨more, same⟩ | later
      · -- the comment would have ended one character earlier
        obtain ⟨rfl, slash⟩ := List.cons.inj same
        cases body with
        | nil => simp at slash
        | cons d ds =>
            obtain ⟨rfl, -⟩ := List.cons.inj slash
            exact other _ rfl rfl
      · exact first later
  | case3 => cases is

theorem commentWidth?_none {cs : List Char} (is : commentWidth? cs = none)
    : ¬ ['*', '/'] <:+: cs := by
  fun_induction commentWidth? cs with
  | case1 => cases is
  | case2 c rest other ih =>
      intro closes
      rcases List.infix_cons_iff.mp closes with ⟨behind, same⟩ | later
      · obtain ⟨rfl, rfl⟩ := List.cons.inj same
        exact other behind rfl rfl
      · exact ih (Option.map_eq_none_iff.mp is) later
  | case3 => decide

/-- A block comment takes what stands up to the asterisk and slash that close it. -/
theorem isComment_block {cs : List Char} {width : Nat} (is : commentWidth? cs = some width)
    : IsComment ('/' :: '*' :: cs.take width) (cs.drop width) := by
  obtain ⟨body, behind, rfl, rfl, first⟩ := commentWidth?_some is
  have split : body ++ '*' :: '/' :: behind = (body ++ ['*', '/']) ++ behind := by simp
  have width : body.length + 2 = (body ++ ['*', '/']).length := by simp
  rw [split, width, List.take_left, List.drop_left]
  exact .block first

theorem isComment_unclosed {cs : List Char} (never : commentWidth? cs = none)
    : IsComment ('/' :: '*' :: cs.take cs.length) (cs.drop cs.length) := by
  rw [List.take_length, List.drop_length]
  exact .unclosed (commentWidth?_none never)

-----------------------------------------------------------------------------------------
-- Stretches of a text
-----------------------------------------------------------------------------------------

/-- What a stretch of a text is. -/
inductive Role (α : Type) where
  | token (kind : TokenKind α)
  | blank
  | comment
  | stray

namespace Role

/-- The token that a stretch makes. -/
def kind? : Role α → Option (TokenKind α)
  | token kind => some kind
  | _ => none

/-- What is reported of a stray character. -/
def report? : Role α → List Char → Option LexicalFinding
  | stray, [c] => some (.unexpectedCharacter c)
  | _, _ => none

/-- The characters are what the role says, in front of what is behind them. -/
def Fits : Role α → (chars behind : List Char) → Prop
  | token _, chars, _ => chars ≠ []
  | blank, chars, _ => ∃ c, chars = [c] ∧ isBlank c = true
  | comment, chars, behind => IsComment chars behind
  | stray, chars, _ => ∃ c, chars = [c] ∧ isBlank c = false

theorem Fits.ne_nil {role : Role α} {chars behind : List Char} (fits : role.Fits chars behind)
    : chars ≠ [] := by
  cases role with
  | token kind => exact fits
  | blank | stray =>
      obtain ⟨c, rfl, -⟩ := fits
      exact List.cons_ne_nil c []
  | comment => cases fits <;> exact List.cons_ne_nil _ _

end Role

/-- A stretch of a text with the number of characters in front of it. -/
structure Stretch (α : Type) where
  offset : Nat
  chars : List Char
  role : Role α

namespace Stretch

/-- The offset behind the stretch. -/
def stop (part : Stretch α) : Nat :=
  part.offset + part.chars.length

/-- The token that the stretch of a text makes. -/
def token? (cs : List Char) (part : Stretch α) : Option (Token α) :=
  part.role.kind?.map fun kind => ⟨kind, String.ofList part.chars, .ofOffset cs part.offset⟩

/-- The report of the stretch of a text, if it is a stray character. -/
def report? (cs : List Char) (part : Stretch α) : Option (Located LexicalFinding) :=
  (part.role.report? part.chars).map (⟨·, some (.ofOffset cs part.offset)⟩)

end Stretch

/-- The stretches are the text from an offset on: they are its slices, none overlaps another,
and every character belongs to one.
-/
structure Tiling (cs : List Char) (start : Nat) (parts : List (Stretch α)) : Prop where
  starts : ∀ part ∈ parts, start ≤ part.offset
  slices : ∀ part ∈ parts, part.chars = (cs.drop part.offset).take part.chars.length
  fits : ∀ part ∈ parts, part.role.Fits part.chars (cs.drop part.stop)
  apart : parts.Pairwise fun p q => p.stop ≤ q.offset
  covers : ∀ i, start ≤ i → i < cs.length → ∃ part ∈ parts, part.offset ≤ i ∧ i < part.stop
  whole : parts.flatMap (·.chars) = cs.drop start

variable {cs : List Char} {start : Nat} {parts : List (Stretch α)}

/-- Nothing is left at the end of the text. -/
theorem Tiling.stop (all : cs.drop start = []) : Tiling cs start ([] : List (Stretch α)) where
  starts := nofun
  slices := nofun
  fits := nofun
  apart := .nil
  covers i le lt := absurd (List.drop_eq_nil_iff.mp all) (by omega)
  whole := all.symm

theorem drop_behind {chars behind : List Char} (split : cs.drop start = chars ++ behind)
    : cs.drop (start + chars.length) = behind := by
  rw [← List.drop_drop, split, List.drop_left]

/-- A stretch in front of a tiling that starts where it stops. -/
theorem Tiling.cons {chars behind : List Char} {role : Role α}
    (split : cs.drop start = chars ++ behind) (fits : role.Fits chars behind)
    (tiling : Tiling cs (start + chars.length) parts)
    : Tiling cs start (⟨start, chars, role⟩ :: parts) := by
  have rest := drop_behind split
  refine ⟨?starts, ?slices, ?fits, ?apart, ?covers, ?whole⟩
  case starts =>
    intro part member
    rcases List.mem_cons.mp member with rfl | later
    · exact Nat.le_refl start
    · exact Nat.le_trans (Nat.le_add_right ..) (tiling.starts part later)
  case slices =>
    refine List.forall_mem_cons.mpr ⟨?_, tiling.slices⟩
    simp only [split, List.take_left]
  case fits =>
    refine List.forall_mem_cons.mpr ⟨?_, tiling.fits⟩
    simpa only [Stretch.stop, rest] using fits
  case apart => exact List.pairwise_cons.mpr ⟨tiling.starts, tiling.apart⟩
  case covers =>
    intro i le lt
    by_cases here : i < start + chars.length
    · exact ⟨_, List.mem_cons_self, le, here⟩
    · obtain ⟨part, member, inside⟩ := tiling.covers i (Nat.le_of_not_lt here) lt
      exact ⟨part, List.mem_cons_of_mem _ member, inside⟩
  case whole => rw [List.flatMap_cons, tiling.whole, rest, split]

/-- No two stretches start at the same offset, as none is empty. -/
theorem Tiling.offsets (tiling : Tiling cs start parts)
    : parts.Pairwise fun p q => p.offset < q.offset := by
  refine tiling.apart.imp_of_mem fun {p q} member _ le => Nat.lt_of_lt_of_le ?_ le
  have := List.length_pos_of_ne_nil (tiling.fits p member).ne_nil
  unfold Stretch.stop
  omega

/-- A stretch starts inside the text. -/
theorem Tiling.inside (tiling : Tiling cs start parts) {part : Stretch α} (member : part ∈ parts)
    : part.offset < cs.length := by
  have some := (tiling.fits part member).ne_nil
  rw [tiling.slices part member] at some
  by_contra outside
  exact some (by rw [List.drop_eq_nil_of_le (Nat.le_of_not_lt outside), List.take_nil])

/-- What is made of the stretches is in the order of their places. -/
theorem Tiling.pairwise {β : Type} {make : Stretch α → Option β} {order : β → β → Prop}
    (tiling : Tiling cs start parts)
    (made : ∀ p q a b, make p = some a → make q = some b →
      (Span.ofOffset cs p.offset).Before (Span.ofOffset cs q.offset) → order a b)
    : (parts.filterMap make).Pairwise order := by
  refine List.pairwise_filterMap.mpr (tiling.offsets.imp_of_mem ?_)
  intro p q member _ lt a isFirst b isSecond
  exact made p q a b isFirst isSecond (Span.ofOffset_before lt (tiling.inside member))

-----------------------------------------------------------------------------------------
-- Pieces of the scanner
-----------------------------------------------------------------------------------------

variable [Scalar α]

theorem readNumber_token (cs : List Char)
    : ∃ kind, (readNumber cs : Reading α).kind = some kind
      ∧ (readNumber cs : Reading α).finding = none := by
  unfold readNumber
  dsimp only
  repeat' split
  all_goals exact ⟨_, rfl, rfl⟩

theorem readDigits_token (cs : List Char)
    : ∃ kind, (readDigits cs : Reading α).kind = some kind
      ∧ (readDigits cs : Reading α).finding.filter (·.isUnexpected) = none := by
  unfold readDigits
  split
  case h_1 =>
    split
    case h_1 => exact ⟨_, rfl, rfl⟩
    case h_2 => exact ⟨_, rfl, rfl⟩
  case h_2 =>
    obtain ⟨kind, is, clean⟩ := readNumber_token (α := α) cs
    exact ⟨kind, is, by rw [clean]; rfl⟩

/-- What is read at the start of a text has a role there, and a character is reported exactly where
it is a stray one.
-/
def Reading.HasRole (reading : Reading α) (cs : List Char) : Prop :=
  ∃ role : Role α,
    role.Fits (cs.take reading.width) (cs.drop reading.width)
    ∧ reading.kind = role.kind?
    ∧ reading.finding.filter (·.isUnexpected) = role.report? (cs.take reading.width)

omit [Scalar α] in
theorem Reading.hasRole_of_token (reading : Reading α) {kind : TokenKind α}
    (is : reading.kind = some kind) (clean : reading.finding.filter (·.isUnexpected) = none)
    (c : Char) (cs : List Char)
    : reading.HasRole (c :: cs) := by
  obtain ⟨n, width⟩ := Nat.exists_eq_succ_of_ne_zero (Nat.ne_of_gt reading.width_pos)
  refine ⟨.token kind, ?_, is, clean⟩
  simp [Role.Fits, width]

theorem read_hasRole (c : Char) (cs : List Char)
    : (read c cs : Reading α).HasRole (c :: cs) := by
  unfold read
  split
  case isTrue blank => exact ⟨.blank, ⟨c, rfl, blank⟩, rfl, rfl⟩
  case isFalse plain =>
    split
    case isTrue slashes =>
      obtain ⟨rest, opens⟩ := List.isPrefixOf_iff_prefix.mp slashes
      obtain ⟨rfl, rfl⟩ := List.cons.inj opens
      exact ⟨.comment, isComment_line rest, rfl, rfl⟩
    case isFalse =>
      split
      case isTrue opens =>
        obtain ⟨rest, opens⟩ := List.isPrefixOf_iff_prefix.mp opens
        obtain ⟨rfl, rfl⟩ := List.cons.inj opens
        split
        case h_1 width found =>
          exact ⟨.comment, isComment_block found, rfl, rfl⟩
        case h_2 never =>
          exact ⟨.comment, isComment_unclosed never, rfl, rfl⟩
      case isFalse =>
        split
        case isTrue =>
          obtain ⟨kind, is, clean⟩ := readDigits_token (α := α) (c :: cs)
          exact Reading.hasRole_of_token _ is clean c cs
        case isFalse =>
          split
          case isTrue =>
            refine Reading.hasRole_of_token _ rfl ?_ c cs
            dsimp only
            split <;> rfl
          case isFalse =>
            split
            case isTrue => exact Reading.hasRole_of_token _ rfl rfl c cs
            case isFalse =>
              split
              case h_1 => exact Reading.hasRole_of_token _ rfl rfl c cs
              case h_2 => exact ⟨.stray, ⟨c, rfl, Bool.eq_false_iff.mpr plain⟩, rfl, rfl⟩

omit [Scalar α] in
/-- What a piece reports of a stray character stands at the start of the piece. -/
theorem Piece.located?_filter (piece : Piece α)
    : piece.located?.filter (·.finding.isUnexpected)
      = (piece.finding.filter (·.isUnexpected)).map (⟨·, some piece.span⟩) := by
  obtain ⟨span, chars, kind, finding⟩ := piece
  cases finding with
  | none => rfl
  | some finding => cases finding <;> rfl

omit [Scalar α] in
theorem filterMap_cons_congr {β γ : Type} {make : β → Option α} {other : γ → Option α} {b : β}
    {c : γ} {bs : List β} {cs : List γ} (head : make b = other c)
    (tail : bs.filterMap make = cs.filterMap other)
    : (b :: bs).filterMap make = (c :: cs).filterMap other := by
  rw [List.filterMap_cons, head, tail, List.filterMap_cons]

/-- The pieces of a text from an offset on are stretches that tile it from there. By induction
along the text.
-/
theorem tiling_of_pieces (cs : List Char) (start : Nat)
    : ∃ parts : List (Stretch α), Tiling cs start parts
      ∧ (pieces (.ofOffset cs start) (cs.drop start)).filterMap (·.token?)
        = parts.filterMap (·.token? cs)
      ∧ (pieces (.ofOffset cs start) (cs.drop start) : List (Piece α)).filterMap
          (·.located?.filter (·.finding.isUnexpected))
        = parts.filterMap (·.report? cs) := by
  match rest : cs.drop start with
  | [] => exact ⟨[], .stop rest, by rw [pieces]; rfl, by rw [pieces]; rfl⟩
  | c :: behind =>
      obtain ⟨role, fits, kind, report⟩ := read_hasRole (α := α) c behind
      have split := (List.take_append_drop (read c behind : Reading α).width (c :: behind)).symm
      have further := List.length_pos_of_ne_nil fits.ne_nil
      obtain ⟨parts, tiling, tokens, reports⟩ := tiling_of_pieces cs
        (start + ((c :: behind).take (read c behind : Reading α).width).length)
      rw [drop_behind (rest.trans split), Span.ofOffset_behind (rest.trans split)]
        at tokens reports
      refine ⟨_ :: parts, tiling.cons (rest.trans split) fits, ?_, ?_⟩ <;> rw [pieces]
      · exact filterMap_cons_congr (congrArg (Option.map _) kind) tokens
      · exact filterMap_cons_congr ((Piece.located?_filter _).trans
          (congrArg (Option.map _) report)) reports
termination_by cs.length - start
decreasing_by
  have inside := List.drop_eq_nil_iff.not.mp (rest ▸ List.cons_ne_nil c behind)
  omega

/-- The tokens of a text tile it: with blanks, comments and reported stray characters they are
the whole text, slice after slice. Each token and each report stands at the place of its offset,
so both are in the order of their places, and no two share one. The text ends at the place behind
its last character.
-/
theorem scan_tiles (source : String)
    : ∃ parts : List (Stretch α), Tiling source.toList 0 parts
      ∧ (TokenText.scan source).tokens = parts.filterMap (·.token? source.toList)
      ∧ (TokenText.scan source : TokenText α).findings.filter (·.finding.isUnexpected)
        = parts.filterMap (·.report? source.toList)
      ∧ ((TokenText.scan source : TokenText α).tokens.Pairwise fun t u => t.span.Before u.span)
      ∧ (((TokenText.scan source : TokenText α).findings.filter
            (·.finding.isUnexpected)).Pairwise
          fun f g => ∀ p ∈ f.span, ∀ q ∈ g.span, p.Before q)
      ∧ (TokenText.scan source : TokenText α).stop
        = .ofOffset source.toList source.toList.length := by
  obtain ⟨parts, tiling, tokens, reports⟩ := tiling_of_pieces (α := α) source.toList 0
  rw [← List.filter_filterMap] at reports
  have scanned : (TokenText.scan source).tokens = parts.filterMap (·.token? source.toList) :=
    tokens
  have reported : (TokenText.scan source : TokenText α).findings.filter (·.finding.isUnexpected)
      = parts.filterMap (·.report? source.toList) := reports
  refine ⟨parts, tiling, scanned, reported, ?_, ?_, ?_⟩
  · rw [scanned]
    refine tiling.pairwise fun p q t u first second before => ?_
    obtain ⟨_, -, rfl⟩ := Option.map_eq_some_iff.mp first
    obtain ⟨_, -, rfl⟩ := Option.map_eq_some_iff.mp second
    exact before
  · rw [reported]
    refine tiling.pairwise fun p q f g first second before => ?_
    obtain ⟨_, -, rfl⟩ := Option.map_eq_some_iff.mp first
    obtain ⟨_, -, rfl⟩ := Option.map_eq_some_iff.mp second
    rintro _ ⟨⟩ _ ⟨⟩
    exact before
  · rw [Span.ofOffset_eq_past, List.take_length]
    rfl

end Token

end Prognosis
