import Mathlib
import Prognosis.Proofs.Token.Word
import Prognosis.Syntax.Render

/-! Texts that are cut into known tokens. What is cut off depends on what comes after it, so the
characters that may come after belong to each statement; texts are then taken apart from left to
right.
-/

namespace Prognosis

namespace Token

open Text

variable {α : Type} [Scalar α]

-----------------------------------------------------------------------------------------
-- Texts and their tokens
-----------------------------------------------------------------------------------------

/-- The first characters, from the place on and with the other ones after them, are cut into the
tokens, and nothing is wrong with them.
-/
def Cuts (span : Span) (cs rest : List Char) (ts : List (Token α)) : Prop :=
  ∃ ps : List (Piece α), pieces span (cs ++ rest) = ps ++ pieces (span.past cs) rest
    ∧ ps.filterMap (·.token?) = ts ∧ ps.filterMap (·.located?) = []

variable {span : Span} {cs ds rest : List Char} {ts us : List (Token α)}

theorem cuts_nil : Cuts span [] rest ([] : List (Token α)) :=
  ⟨[], rfl, rfl, rfl⟩

theorem Cuts.append (first : Cuts span cs (ds ++ rest) ts) (second : Cuts (span.past cs) ds rest us)
    : Cuts span (cs ++ ds) rest (ts ++ us) := by
  obtain ⟨ps, cut, tokens, clean⟩ := first
  obtain ⟨qs, cutAfter, tokensAfter, cleanAfter⟩ := second
  refine ⟨ps ++ qs, ?_, ?_, ?_⟩
  · rw [List.append_assoc, cut, cutAfter, Span.past, Span.past, Span.past, List.foldl_append,
      List.append_assoc]
  · rw [List.filterMap_append, tokens, tokensAfter]
  · rw [List.filterMap_append, clean, cleanAfter, List.append_nil]

/-- A whole text that is cut has these tokens and no finding. -/
theorem Cuts.scan {source : String} (cut : Cuts ⟨1, 1⟩ source.toList [] ts)
    : (TokenText.scan source : TokenText α).tokens = ts
      ∧ (TokenText.scan source : TokenText α).findings = [] := by
  obtain ⟨ps, cut, tokens, clean⟩ := cut
  rw [List.append_nil, pieces, List.append_nil] at cut
  simp only [TokenText.scan, cut]
  exact ⟨tokens, clean⟩

/-- One piece that is a token. -/
theorem cuts_token {c : Char} {kind : TokenKind α}
    (width : (read c (cs ++ rest) : Reading α).width = cs.length + 1)
    (is : (read c (cs ++ rest) : Reading α).kind = some kind)
    (clean : (read c (cs ++ rest) : Reading α).finding = none)
    : Cuts span (c :: cs) rest [⟨kind, String.ofList (c :: cs), span⟩] := by
  have taken : (c :: (cs ++ rest)).take (cs.length + 1) = c :: cs := by simp
  have left : (c :: (cs ++ rest)).drop (cs.length + 1) = rest := by simp
  refine ⟨[⟨span, c :: cs, some kind, none⟩], ?_, rfl, rfl⟩
  rw [List.cons_append, pieces, width, taken, left, is, clean]
  rfl

/-- A space makes no token. -/
theorem cuts_space : Cuts span [' '] rest ([] : List (Token α)) := by
  refine ⟨[⟨span, [' '], none, none⟩], ?_, rfl, rfl⟩
  rw [List.cons_append, pieces]
  rfl

-----------------------------------------------------------------------------------------
-- Signs
-----------------------------------------------------------------------------------------

/-- Signs of one character that start no other sign and no comment. -/
theorem cuts_sign {c : Char} {sign : Sign}
    (plain : (c, sign) ∈ [('(', .lparen), (')', .rparen), (',', .comma), ('.', Sign.dot)])
    : Cuts span [c] rest [(⟨.sign sign, String.ofList [c], span⟩ : Token α)] := by
  simp only [List.mem_cons, Prod.mk.injEq, List.not_mem_nil, or_false] at plain
  rcases plain with ⟨rfl, rfl⟩ | ⟨rfl, rfl⟩ | ⟨rfl, rfl⟩ | ⟨rfl, rfl⟩ <;>
    exact cuts_token rfl rfl rfl

/-- What starts no sign and no comment otherwise is read as a sign. -/
theorem read_sign {c : Char} {chars : List Char} {sign : Sign}
    (plain : isBlank c = false ∧ (c == '/') = false ∧ c.isDigit = false ∧ (c == '"') = false
      ∧ isNameStart c = false)
    (found : signs.find? (fun entry => startsWith entry.1 (c :: cs)) = some (chars, sign))
    : (read c cs : Reading α) = .token (chars.length - 1 + 1) (Nat.succ_pos _) (.sign sign) := by
  obtain ⟨blank, slash, digit, quote, name⟩ := plain
  have comment (d : Char) : startsWith ['/', d] (c :: cs) = false := by
    rw [BEq.comm] at slash
    rw [startsWith, List.isPrefixOf_cons_cons, slash, Bool.false_and]
  unfold read
  simp only [blank, comment, digit, quote, name, found, Bool.false_eq_true, if_false]

/-- What continues no sign leaves the sign in front of it alone. -/
theorem cuts_sign_before {c d : Char} {sign : Sign}
    (is : (c, sign) ∈ [('-', .minus), ('+', .plus), ('±', .plusMinus), ('=', Sign.assign)])
    (arrow : d ≠ '>') (slash : d ≠ '/') (equals : d ≠ '=')
    : Cuts span [c] (d :: rest) [(⟨.sign sign, String.ofList [c], span⟩ : Token α)] := by
  have found : signs.find? (fun entry => startsWith entry.1 (c :: d :: rest))
      = some ([c], sign) := by
    simp only [List.mem_cons, Prod.mk.injEq, List.not_mem_nil, or_false] at is
    rcases is with ⟨rfl, rfl⟩ | ⟨rfl, rfl⟩ | ⟨rfl, rfl⟩ | ⟨rfl, rfl⟩ <;>
      simp [signs, startsWith, arrow.symm, slash.symm, equals.symm]
  have plain : isBlank c = false ∧ (c == '/') = false ∧ c.isDigit = false ∧ (c == '"') = false
      ∧ isNameStart c = false := by
    simp only [List.mem_cons, Prod.mk.injEq, List.not_mem_nil, or_false] at is
    rcases is with ⟨rfl, -⟩ | ⟨rfl, -⟩ | ⟨rfl, -⟩ | ⟨rfl, -⟩ <;> decide
  have read : (read c ([] ++ d :: rest) : Reading α) = .token 1 Nat.one_pos (.sign sign) :=
    read_sign plain found
  exact cuts_token (by rw [read]; rfl) (by rw [read]; rfl) (by rw [read]; rfl)

-----------------------------------------------------------------------------------------
-- Words
-----------------------------------------------------------------------------------------

/-- Names start with what is no blank, no digit, no slash and no quote. -/
theorem isNameStart_plain {c : Char} (start : isNameStart c = true)
    : isBlank c = false ∧ (c == '/') = false ∧ c.isDigit = false ∧ (c == '"') = false := by
  have range : 65 ≤ c.toNat ∧ c.toNat ≤ 122 := by
    simp only [isNameStart, Char.isAlpha, Char.isUpper, Char.isLower, Bool.or_eq_true,
      Bool.and_eq_true, decide_eq_true_eq, beq_iff_eq] at start
    rcases start with (⟨low, high⟩ | ⟨low, high⟩) | rfl
    · exact ⟨low, Nat.le_trans high (by decide)⟩
    · exact ⟨Nat.le_trans (by decide) low, high⟩
    · decide
  have other (d : Char) (small : d.toNat < 65) : (c == d) = false := by
    rw [beq_eq_false_iff_ne]
    rintro rfl
    omega
  refine ⟨?_, other '/' (by decide), ?_, other '"' (by decide)⟩
  · simp only [isBlank, inRanges, blankRanges, List.any_cons, List.any_nil, Bool.or_eq_false_iff,
      Bool.and_eq_false_iff, decide_eq_false_iff_not]
    and_intros
    all_goals first | trivial | omega
  · rw [Char.isDigit, Bool.and_eq_false_iff]
    right
    rw [decide_eq_false_iff_not]
    exact fun le => absurd (show c.toNat ≤ 57 from le) (by omega)

/-- A name ends where no name continues. -/
theorem cuts_word {name : String} (is : IsName name) (boundary : atBoundary rest = true)
    : Cuts span name.toList rest [(⟨.word, name, span⟩ : Token α)] := by
  obtain ⟨c, cs, chars, start, more⟩ := is
  obtain ⟨blank, slash, digit, quote⟩ := isNameStart_plain start
  have taken : (cs ++ rest).takeWhile isNameChar = cs := by
    rw [List.takeWhile_append_of_pos more]
    cases rest with
    | nil => simp
    | cons d others => 
        have stop : isNameChar d = false := by simpa [atBoundary] using boundary
        simp [stop]
  have comment (d : Char) : startsWith ['/', d] (c :: (cs ++ rest)) = false := by
    rw [BEq.comm] at slash
    rw [startsWith, List.isPrefixOf_cons_cons, slash, Bool.false_and]
  have read : (read c (cs ++ rest) : Reading α)
      = .token (cs.length + 1) (Nat.succ_pos _) .word := by
    unfold read
    simp only [blank, comment, digit, quote, start, taken, Bool.false_eq_true, if_false, if_true]
  have text : name = String.ofList (c :: cs) := by rw [← chars, String.ofList_toList]
  rw [text, String.toList_ofList]
  exact cuts_token (by rw [read]; rfl) (by rw [read]; rfl) (by rw [read]; rfl)

-----------------------------------------------------------------------------------------
-- Texts between quotes
-----------------------------------------------------------------------------------------

/-- An escaped text is read up to its closing quote, unless a line ends in it. By induction along
the text.
-/
theorem quotedText_escaped (rest : List Char) {chars : List Char} (oneLine : '\n' ∉ chars)
    : quotedText (chars.flatMap (fun c => if c == '\\' || c == '"' then ['\\', c] else [c])
        ++ '"' :: rest)
      = (chars,
          (chars.flatMap fun c => if c == '\\' || c == '"' then ['\\', c] else [c]).length + 1,
          true) := by
  induction chars with
  | nil => simp [quotedText]
  | cons c chars ih =>
      rw [List.mem_cons, not_or] at oneLine
      have ih := ih oneLine.2
      by_cases special : (c == '\\' || c == '"') = true
      case pos =>
        have unescape : unescaped c = c := by
          rcases (by simpa using special : c = '\\' ∨ c = '"') with rfl | rfl <;> rfl
        simp only [List.flatMap_cons, special, if_true, List.cons_append, List.nil_append,
          quotedText, ih, unescape, List.length_cons]
      case neg =>
        have plain : c ≠ '\\' ∧ c ≠ '"' := by simpa using special
        have line : c ≠ '\n' := Ne.symm oneLine.1
        simp only [List.flatMap_cons, special, if_false, Bool.false_eq_true, List.cons_append,
          List.nil_append]
        rw [quotedText.eq_def]
        split
        case h_1 none => cases none
        case h_2 same => exact absurd (List.cons.inj same).1 plain.2
        case h_3 same => exact absurd (List.cons.inj same).1 line
        case h_4 same => exact absurd (List.cons.inj same).1 plain.1
        case h_5 same =>
          obtain ⟨rfl, rfl⟩ := List.cons.inj same
          simp only [ih, List.length_cons]

theorem cuts_quoted {value : String} (oneLine : '\n' ∉ value.toList)
    : Cuts span (Expr.quotedText value).toList rest
        [(⟨.text value, Expr.quotedText value, span⟩ : Token α)] := by
  obtain ⟨escaped, is⟩ : ∃ escaped,
      escaped = value.toList.flatMap fun c => if c == '\\' || c == '"' then ['\\', c] else [c] :=
    ⟨_, rfl⟩
  have quoted := quotedText_escaped rest oneLine
  rw [← is] at quoted
  have read : (read '"' (escaped ++ ['"'] ++ rest) : Reading α)
      = ⟨escaped.length + 1 + 1, Nat.succ_pos _, some (.text value), none⟩ := by
    have blank : isBlank '"' = false := by decide
    have comment (d : Char) (cs : List Char) : startsWith ['/', d] ('"' :: cs) = false := rfl
    unfold read
    simp [blank, comment, quoted]
  have text : Expr.quotedText value = String.ofList ('"' :: (escaped ++ ['"'])) := by
    rw [Expr.quotedText, is]
    rfl
  rw [text, String.toList_ofList]
  exact cuts_token (by rw [read]; simp) (by rw [read]) (by rw [read])

end Token

end Prognosis
