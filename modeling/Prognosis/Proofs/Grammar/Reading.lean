import Prognosis.Proofs.Grammar.Derivation
import Prognosis.Token.Scan

/-! What the readers of expressions read: for each of them, from what it takes a value and what it
leaves. Proofs about expressions build on these equivalences and do not unfold the readers.
-/

namespace Prognosis.Token

variable {α : Type} {t : Token α}

theorem isSign_iff {sign : Sign} : t.isSign sign = true ↔ t.kind = .sign sign := by
  unfold isSign
  split
  case h_1 other is => simp [is]
  case h_2 no => exact iff_of_false nofun (no sign)

theorem isAnyWord_iff : t.isAnyWord = true ↔ t.kind = .word := by
  unfold isAnyWord
  split
  case h_1 is => simp [is]
  case h_2 no => exact iff_of_false nofun no

end Prognosis.Token

namespace Prognosis.Grammar

variable {α β γ : Type} {ts rest : List (Token α)}

-----------------------------------------------------------------------------------------
-- Values and what is left
-----------------------------------------------------------------------------------------

/-- The construct was read; its value and the tokens after it are the given ones. -/
def Attempt.Reads (a : Attempt α β ts) (value : β) (rest : List (Token α)) : Prop :=
  ∃ p, a = .ok p ∧ p.value = value ∧ p.rest = rest

/-- The same for what may have been read from no token at all. -/
def MayRead (a : Except Failure (Continued α β ts)) (value : β) (rest : List (Token α)) : Prop :=
  ∃ p, a = .ok p ∧ p.value = value ∧ p.rest = rest

namespace Attempt

variable {value : β}

@[simp]
theorem reads_error {e : Failure} : ¬Reads (.error e : Attempt α β ts) value rest := by
  rintro ⟨p, read, -⟩
  cases read

@[simp]
theorem reads_ok {p : Parsed α β ts}
    : Reads (.ok p) value rest ↔ p.value = value ∧ p.rest = rest := by
  constructor
  · rintro ⟨q, read, is⟩
    cases read
    exact is
  · exact fun is => ⟨p, rfl, is⟩

/-- A construct is read in one way. -/
theorem Reads.unique {a : Attempt α β ts} {value' : β} {rest' : List (Token α)}
    (reads : a.Reads value rest) (reads' : a.Reads value' rest')
    : value = value' ∧ rest = rest' := by
  obtain ⟨p, is, rfl, rfl⟩ := reads
  obtain ⟨q, is', rfl, rfl⟩ := reads'
  cases is.symm.trans is'
  exact ⟨rfl, rfl⟩

theorem Reads.length_lt {a : Attempt α β ts} (reads : a.Reads value rest)
    : rest.length < ts.length := by
  obtain ⟨p, -, -, rfl⟩ := reads
  exact p.shorter

end Attempt

open Attempt

theorem MayRead.length_le {a : Except Failure (Continued α β ts)} {value : β}
    (reads : MayRead a value rest)
    : rest.length ≤ ts.length := by
  obtain ⟨p, -, -, rfl⟩ := reads
  exact p.notLonger

-----------------------------------------------------------------------------------------
-- Signs and names
-----------------------------------------------------------------------------------------

variable {t : Token α}

/-- A sign is read from a token that is the sign. -/
theorem expectSign_reads_iff {sign : Sign} (what : String)
    : (expectSign sign what ts).Reads () rest ↔ ∃ t, ts = t :: rest ∧ t.kind = .sign sign := by
  cases ts with
  | nil => simp [expectSign, failAtEnd]
  | cons t more =>
      rw [expectSign]
      split
      case isFalse other =>
        refine iff_of_false Attempt.reads_error ?_
        rintro ⟨_, same, is⟩
        cases same
        exact other (Token.isSign_iff.2 is)
      case isTrue is =>
        rw [Attempt.reads_ok]
        constructor
        · rintro ⟨-, rfl⟩
          exact ⟨t, rfl, Token.isSign_iff.1 is⟩
        · rintro ⟨_, same, -⟩
          exact ⟨rfl, (List.cons.inj same).2⟩

/-- No dot and no segment, or a dot with its segment and the segments after it. -/
theorem segments_reads_iff {names : List String}
    : MayRead (segments ts) names rest
      ↔ atSign ts .dot = false ∧ names = [] ∧ rest = ts
        ∨ ∃ dot u more others, ts = dot :: u :: more ∧ dot.kind = .sign .dot
            ∧ u.kind = .word ∧ MayRead (segments more) others rest
            ∧ names = u.text :: others := by
  constructor
  · rintro ⟨p, read, rfl, rfl⟩
    unfold segments at read
    split at read
    case h_1 =>
      cases read
      exact Or.inl ⟨rfl, rfl, rfl⟩
    case h_2 dot more =>
      split at read
      case isFalse plain =>
        cases read
        exact Or.inl ⟨by simpa [atSign] using plain, rfl, rfl⟩
      case isTrue is =>
        split at read
        case h_1 => cases read
        case h_2 u more =>
          split at read
          case isFalse => cases read
          case isTrue word =>
            split at read
            case h_1 => cases read
            case h_2 s readSegments =>
              cases read
              exact Or.inr ⟨dot, u, more, _, rfl, Token.isSign_iff.1 is, Token.isAnyWord_iff.1 word,
                ⟨s, readSegments, rfl, rfl⟩, rfl⟩
  · rintro (⟨plain, rfl, rfl⟩
      | ⟨dot, u, more, _, rfl, is, word, ⟨s, readSegments, rfl, rfl⟩, rfl⟩)
    · refine ⟨.stay [], ?_, rfl, rfl⟩
      cases rest with
      | nil => rfl
      | cons t more =>
          rw [segments.eq_def]
          simp [show t.isSign .dot = false from plain]
    · refine ⟨⟨u.text :: s.value, s.rest, ?_⟩, ?_, rfl, rfl⟩
      · have := s.notLonger
        simp only [List.length_cons]
        omega
      · rw [segments]
        simp [Token.isSign_iff.2 is, Token.isAnyWord_iff.2 word, readSegments]

-----------------------------------------------------------------------------------------
-- Operators
-----------------------------------------------------------------------------------------

variable {level : Level} {e left : Expr α}

theorem operator?_eq_some_iff {op : BinaryOp}
    : operator? level t = some op ↔ t.Writes op ∧ op.precedence = level.strength := by
  unfold operator?
  constructor
  · intro found
    split at found
    case h_1 is | h_2 is =>
      split at found
      case isTrue text =>
        cases found
        exact ⟨⟨is, eq_of_beq text⟩, rfl⟩
      case isFalse => cases found
    case h_14 => cases found
    all_goals
      cases found
      exact ⟨by assumption, rfl⟩
  · rintro ⟨writes, strength⟩
    cases op <;> cases level <;> cases strength <;>
      simp_all [Token.Writes, BinaryOp.sign?, Token.Spells, BinaryOp.text]

theorem leadingOperator?_eq_some_iff {op : UnaryOp}
    : leadingOperator? t = some op ↔ t.Leads op := by
  unfold leadingOperator?
  constructor
  · intro found
    split at found
    case h_4 is =>
      split at found
      case isTrue text =>
        cases found
        exact ⟨is, eq_of_beq text⟩
      case isFalse => cases found
    case h_5 => cases found
    all_goals
      cases found
      assumption
  · intro leads
    cases op <;> simp_all [Token.Leads, UnaryOp.sign?, Token.Spells, UnaryOp.text]

/-- The reader of a stratum. -/
def readAs : Stratum → (ts : List (Token α)) → Attempt α (Expr α) ts
  | .binary level => binary level
  | .unary => unary
  | .power => power
  | .primary => primary

theorem operand_eq_readAs (level : Level) (ts : List (Token α))
    : operand level ts = readAs level.operands ts := by
  cases level <;> rw [operand.eq_def] <;> rfl

/-- A first operand, and operators of the level with their operands. -/
theorem binary_reads_iff
    : (binary level ts).Reads e rest
      ↔ ∃ first more, (operand level ts).Reads first more
          ∧ MayRead (chain level first more) e rest := by
  constructor
  · rintro ⟨p, read, rfl, rfl⟩
    unfold binary at read
    split at read
    case h_1 => cases read
    case h_2 first readFirst =>
      split at read
      case h_1 => cases read
      case h_2 all readAll =>
        cases read
        exact ⟨_, _, ⟨first, readFirst, rfl, rfl⟩, all, readAll, rfl, rfl⟩
  · rintro ⟨_, _, ⟨first, readFirst, rfl, rfl⟩, all, readAll, rfl, rfl⟩
    exact ⟨first.followed all, by rw [binary, readFirst]; simp [readAll], rfl, rfl⟩

/-- No operator of the level, or one with its right operand and what may come after that. -/
theorem chain_reads_iff
    : MayRead (chain level left ts) e rest
      ↔ (∀ t, ts.head? = some t → operator? level t = none) ∧ e = left ∧ rest = ts
        ∨ ∃ t more op right others, ts = t :: more ∧ operator? level t = some op
            ∧ (operand level more).Reads right others
            ∧ MayRead (chain level (.binary op left right (some t.span)) others) e rest := by
  constructor
  · rintro ⟨p, read, rfl, rfl⟩
    unfold chain at read
    split at read
    case h_1 =>
      cases read
      refine Or.inl ⟨fun t head => ?_, rfl, rfl⟩
      cases head
    case h_2 t more =>
      split at read
      case h_1 plain =>
        cases read
        refine Or.inl ⟨fun t' head => ?_, rfl, rfl⟩
        cases head
        exact plain
      case h_2 op is =>
        split at read
        case h_1 => cases read
        case h_2 right readRight =>
          split at read
          case h_1 => cases read
          case h_2 all readAll =>
            cases read
            exact Or.inr ⟨t, more, op, _, _, rfl, is, ⟨right, readRight, rfl, rfl⟩, all, readAll,
              rfl, rfl⟩
  · rintro (⟨plain, rfl, rfl⟩
      | ⟨t, more, op, _, _, rfl, is, ⟨right, readRight, rfl, rfl⟩, all, readAll, rfl, rfl⟩)
    · refine ⟨.stay e, ?_, rfl, rfl⟩
      unfold chain
      cases rest with
      | nil => rfl
      | cons t more => simp [plain t rfl]
    · refine ⟨⟨all.value, all.rest, ?_⟩, ?_, rfl, rfl⟩
      · have := all.notLonger
        have := right.shorter
        simp only [List.length_cons]
        omega
      · rw [chain]
        simp [is, readRight, readAll]

/-- An operator in front of an operand, or a power. -/
theorem unary_reads_iff
    : (unary ts).Reads e rest
      ↔ (∃ t more op inner, ts = t :: more ∧ leadingOperator? t = some op
            ∧ (unary more).Reads inner rest ∧ e = .unary op inner (some t.span))
        ∨ (∀ t, ts.head? = some t → leadingOperator? t = none) ∧ (power ts).Reads e rest := by
  constructor
  · rintro ⟨p, read, rfl, rfl⟩
    unfold unary at read
    split at read
    case h_1 =>
      rw [primary] at read
      cases read
    case h_2 t more =>
      split at read
      case h_1 op is =>
        split at read
        case h_1 => cases read
        case h_2 inner readInner =>
          cases read
          exact Or.inl ⟨t, more, op, _, rfl, is, ⟨inner, readInner, rfl, rfl⟩, rfl⟩
      case h_2 plain =>
        refine Or.inr ⟨fun t' head => ?_, p, read, rfl, rfl⟩
        cases head
        exact plain
  · rintro (⟨t, more, op, _, rfl, is, ⟨inner, readInner, rfl, rfl⟩, rfl⟩
      | ⟨plain, p, read, rfl, rfl⟩)
    · refine ⟨(inner.map fun e => .unary op e (some t.span)).afterToken t, ?_, rfl, rfl⟩
      rw [unary]
      simp [is, readInner]
    · refine ⟨p, ?_, rfl, rfl⟩
      cases ts with
      | nil =>
          rw [power, primary] at read
          cases read
      | cons t more =>
          rw [unary]
          simp only [plain t rfl]
          exact read

/-- A base without an exponent, or one with its exponent. -/
theorem power_reads_iff
    : (power ts).Reads e rest
      ↔ ∃ base more, (primary ts).Reads base more
          ∧ (atSign more .caret = false ∧ e = base ∧ rest = more
            ∨ ∃ t others exponent, more = t :: others ∧ t.kind = .sign .caret
                ∧ (unary others).Reads exponent rest
                ∧ e = .binary .pow base exponent (some t.span)) := by
  constructor
  · rintro ⟨p, read, rfl, rfl⟩
    unfold power at read
    split at read
    case h_1 => cases read
    case h_2 base readBase =>
      refine ⟨_, _, ⟨base, readBase, rfl, rfl⟩, ?_⟩
      split at read
      case h_1 nothing =>
        cases read
        exact Or.inl ⟨by rw [nothing]; rfl, rfl, rfl⟩
      case h_2 t others after =>
        split at read
        case isFalse plain =>
          cases read
          exact Or.inl ⟨by simpa [after, atSign] using plain, rfl, rfl⟩
        case isTrue caret =>
          split at read
          case h_1 => cases read
          case h_2 exponent readExponent =>
            cases read
            exact Or.inr ⟨t, others, _, after, Token.isSign_iff.1 caret,
              ⟨exponent, readExponent, rfl, rfl⟩, rfl⟩
  · rintro ⟨_, _, ⟨base, readBase, rfl, rfl⟩,
      ⟨plain, rfl, rfl⟩ | ⟨t, others, _, after, caret, ⟨exponent, readExponent, rfl, rfl⟩, rfl⟩⟩
    · refine ⟨base, ?_, rfl, rfl⟩
      rw [power, readBase]
      dsimp only
      split
      case h_1 => rfl
      case h_2 t others after =>
        have plain : t.isSign .caret = false := by simpa [after, atSign] using plain
        simp [plain]
    · refine ⟨⟨.binary .pow base.value exponent.value (some t.span), exponent.rest, ?_⟩, ?_, rfl,
        rfl⟩
      · have := base.shorter_of_rest after
        have := exponent.shorter
        omega
      · rw [power, readBase]
        dsimp only
        split
        case h_1 nothing =>
          rw [after] at nothing
          cases nothing
        case h_2 t' others' after' =>
          rw [after] at after'
          cases after'
          simp [Token.isSign_iff.2 caret, readExponent]

-----------------------------------------------------------------------------------------
-- Operands
-----------------------------------------------------------------------------------------

/-- A literal, an expression in parentheses, a name, or a call. -/
theorem primary_reads_iff
    : (primary ts).Reads e rest
      ↔ ∃ t more, ts = t :: more
          ∧ (t.literal? = some e ∧ rest = more
            ∨ t.kind = .sign .lparen ∧ (∃ closing, closing.kind = .sign .rparen
                ∧ (binary .disjunction more).Reads e (closing :: rest))
            ∨ t.Namable
                ∧ (atSign more .lparen = false ∧ (∃ names, MayRead (segments more) names rest
                    ∧ e = .name ⟨t.text, names⟩ (some t.span))
                  ∨ ∃ u others positional named, more = u :: others ∧ u.kind = .sign .lparen
                      ∧ (arguments false others).Reads (positional, named) rest
                      ∧ e = .call t.text positional named (some t.span))) := by
  constructor
  · rintro ⟨p, read, rfl, rfl⟩
    unfold primary at read
    split at read
    case h_1 => cases read
    case h_2 t more =>
      refine ⟨t, more, rfl, ?_⟩
      split at read
      case h_1 value is | h_2 value is | h_4 value is =>
        cases read
        exact Or.inl ⟨by simp [Token.literal?, is, Parsed.single], rfl⟩
      case h_3 amount currency magnitude is =>
        cases read
        exact Or.inl ⟨by simp [Token.literal?, is, Parsed.single], rfl⟩
      case h_5 is =>
        split at read
        case h_1 => cases read
        case h_2 inner readInner =>
          split at read
          case h_1 => cases read
          case h_2 closed readClosed =>
            cases read
            obtain ⟨closing, next, isClosing⟩ :=
              (expectSign_reads_iff _).1 ⟨closed, readClosed, rfl, rfl⟩
            refine Or.inr (Or.inl ⟨is, closing, isClosing, ?_⟩)
            exact ⟨inner, readInner, rfl, next⟩
      case h_6 is =>
        split at read
        case isTrue boolean =>
          cases read
          refine Or.inl ⟨?_, rfl⟩
          rcases (by simpa using boolean : t.text = "true" ∨ t.text = "false") with text | text <;>
            simp [Token.literal?, is, text, Parsed.single]
        case isFalse =>
          split at read
          case isTrue => cases read
          case isFalse free =>
            refine Or.inr (Or.inr ⟨⟨is, by simpa using free⟩, ?_⟩)
            split at read
            case h_1 =>
              cases read
              exact Or.inl ⟨rfl, [], ⟨.stay [], rfl, rfl, rfl⟩, rfl⟩
            case h_2 u others =>
              split at read
              case isTrue isOpening =>
                split at read
                case h_1 => cases read
                case h_2 args readArgs =>
                  cases read
                  exact Or.inr ⟨u, others, _, _, rfl, Token.isSign_iff.1 isOpening,
                    ⟨args, readArgs, rfl, rfl⟩, rfl⟩
              case isFalse plain =>
                split at read
                case h_1 => cases read
                case h_2 s readSegments =>
                  cases read
                  exact Or.inl ⟨by simpa [atSign] using plain, _, ⟨s, readSegments, rfl, rfl⟩, rfl⟩
      case h_7 => cases read
  · rintro ⟨t, more, rfl, ⟨literal, rfl⟩ | ⟨is, closing, isClosing, ⟨inner, readInner, rfl, next⟩⟩
      | ⟨⟨is, free⟩, named⟩⟩
    · refine ⟨.single t e, ?_, rfl, rfl⟩
      unfold Token.literal? at literal
      rw [primary.eq_def]
      split at literal
      case h_1 is | h_2 is | h_3 is | h_4 is =>
        cases literal
        simp [is]
      case h_5 is =>
        split at literal
        case isTrue text =>
          cases literal
          simp [is, text]
        case isFalse =>
          split at literal
          case isTrue text =>
            cases literal
            simp [is, text]
          case isFalse => cases literal
      case h_6 => cases literal
    · obtain ⟨closed, readClosed, -, left⟩ :=
        (expectSign_reads_iff "')'").2 ⟨closing, next, isClosing⟩
      refine ⟨((inner.after closed).map fun _ => inner.value).afterToken t, ?_, rfl, left⟩
      rw [primary.eq_def]
      simp only [is, readInner, readClosed]
    · have bool : (t.text == "true" || t.text == "false") = false := by
        simp [reservedWords] at free
        simp [free]
      rcases named with ⟨plain, _, ⟨s, readSegments, rfl, rfl⟩, rfl⟩
        | ⟨u, others, _, _, rfl, isOpening, ⟨args, readArgs, args_eq, rfl⟩, rfl⟩
      · refine ⟨⟨.name ⟨t.text, s.value⟩ (some t.span), s.rest, Nat.lt_succ_of_le s.notLonger⟩,
          ?_, rfl, rfl⟩
        rw [primary.eq_def]
        cases more with
        | nil => 
          cases readSegments
          simp [is, bool, free]
          rfl
        | cons u others =>
          simp [is, bool, free, show u.isSign .lparen = false from plain, readSegments]
      · refine ⟨((args.map fun given =>
          Expr.call t.text given.1 given.2 (some t.span)).afterToken u).afterToken t, ?_, ?_, rfl⟩
        rw [primary.eq_def]
        · simp [is, bool, free, Token.isSign_iff.2 isOpening, readArgs]
        · simp [Parsed.afterToken, Parsed.map, args_eq]

theorem argumentName?_eq_some_iff {name : String} {value : List (Token α)}
    : argumentName? ts = some (name, value)
      ↔ ∃ t u, ts = t :: u :: value ∧ t.kind = .word
          ∧ (u.kind = .sign .assign ∨ u.kind = .sign .eq) ∧ name = t.text := by
  constructor
  · intro found
    unfold argumentName? at found
    split at found
    case h_2 => cases found
    case h_1 t u more =>
      split at found
      case isFalse => cases found
      case isTrue is =>
        cases found
        simp only [Bool.and_eq_true, Bool.or_eq_true, Token.isAnyWord_iff, Token.isSign_iff] at is
        exact ⟨t, u, rfl, is.1, is.2, rfl⟩
  · rintro ⟨t, u, rfl, word, equals, rfl⟩
    simp [argumentName?, Token.isAnyWord_iff, Token.isSign_iff, word, equals]

theorem argumentName?_eq_none_iff
    : argumentName? ts = none ↔ ¬BeginsNamed ts := by
  rw [Option.eq_none_iff_forall_not_mem]
  constructor
  · rintro none ⟨t, u, value, rfl, word, equals⟩
    exact none (t.text, value) (argumentName?_eq_some_iff.2 ⟨t, u, rfl, word, equals, rfl⟩)
  · rintro unnamed ⟨name, value⟩ found
    obtain ⟨t, u, rfl, word, equals, -⟩ := argumentName?_eq_some_iff.1 found
    exact unnamed ⟨t, u, value, rfl, word, equals⟩

variable {afterNamed : Bool} {args : Arguments α}

/-- The end of the arguments, a named argument, or a positional one where it may stand, with what
follows it.
-/
theorem arguments_reads_iff
    : (arguments afterNamed ts).Reads args rest
      ↔ (∃ t, ts = t :: rest ∧ t.kind = .sign .rparen ∧ args = ([], []))
        ∨ atSign ts .rparen = false
            ∧ ((∃ name value argument more others, argumentName? ts = some (name, value)
                  ∧ (binary .disjunction value).Reads argument more
                  ∧ (moreArguments true more).Reads others rest
                  ∧ args = (others.1, (name, argument) :: others.2))
              ∨ argumentName? ts = none ∧ afterNamed = false ∧ ∃ argument more others,
                  (binary .disjunction ts).Reads argument more
                  ∧ (moreArguments false more).Reads others rest
                  ∧ args = (argument :: others.1, others.2)) := by
  constructor
  · rintro ⟨p, read, rfl, rfl⟩
    unfold arguments at read
    split at read
    case h_1 =>
      split at read
      case isTrue | isFalse => cases read
    case h_2 t more =>
      split at read
      case isTrue isClosing =>
        cases read
        exact Or.inl ⟨t, rfl, Token.isSign_iff.1 isClosing, rfl⟩
      case isFalse open_ =>
        refine Or.inr ⟨by simpa [atSign] using open_, ?_⟩
        split at read
        case h_1 name value found =>
          split at read
          case h_1 => cases read
          case h_2 argument readArgument =>
            split at read
            case h_1 => cases read
            case h_2 others readOthers =>
              cases read
              exact Or.inl ⟨name, value, _, _, _, found, ⟨argument, readArgument, rfl, rfl⟩,
                ⟨others, readOthers, rfl, rfl⟩, rfl⟩
        case h_2 found =>
          split at read
          case isTrue => cases read
          case isFalse free =>
            split at read
            case h_1 => cases read
            case h_2 argument readArgument =>
              split at read
              case h_1 => cases read
              case h_2 others readOthers =>
                cases read
                exact Or.inr ⟨found, by simpa using free, _, _, _,
                  ⟨argument, readArgument, rfl, rfl⟩, ⟨others, readOthers, rfl, rfl⟩, rfl⟩
  · rintro (⟨t, rfl, isClosing, rfl⟩ | ⟨open_,
      ⟨name, value, _, _, _, found, ⟨argument, readArgument, rfl, rfl⟩,
        ⟨others, readOthers, rfl, rfl⟩, rfl⟩
      | ⟨found, rfl, _, _, _, ⟨argument, readArgument, rfl, rfl⟩,
        ⟨others, readOthers, rfl, rfl⟩, rfl⟩⟩)
    · refine ⟨.single t ([], []), ?_, rfl, rfl⟩
      rw [arguments]
      simp [Token.isSign_iff.2 isClosing]
    · cases ts with
      | nil => cases found
      | cons t more =>
          have open_ : t.isSign .rparen = false := open_
          refine ⟨⟨(others.value.1, (name, argument.value) :: others.value.2), others.rest, ?_⟩, ?_,
            rfl, rfl⟩
          · have := argumentName?_shorter found
            have := argument.shorter
            have := others.shorter
            omega
          · rw [arguments]
            simp only [open_, Bool.false_eq_true, if_false]
            split
            case h_1 found' =>
              rw [found] at found'
              cases found'
              simp only [readArgument, readOthers]
            case h_2 found' =>
              rw [found] at found'
              cases found'
    · cases ts with
      | nil => 
          have := argument.shorter
          cases this
      | cons t more =>
          have open_ : t.isSign .rparen = false := open_
          refine ⟨(argument.after others).map fun given =>
            (argument.value :: given.1, given.2), ?_, rfl, rfl⟩
          rw [arguments]
          simp only [open_, Bool.false_eq_true, if_false]
          split
          case h_1 found' =>
            rw [found] at found'
            cases found'
          case h_2 => simp only [readArgument, readOthers]

/-- The end of the arguments, or a comma and more of them. -/
theorem moreArguments_reads_iff
    : (moreArguments afterNamed ts).Reads args rest
      ↔ ∃ t more, ts = t :: more
          ∧ (t.kind = .sign .rparen ∧ args = ([], []) ∧ rest = more
            ∨ t.kind = .sign .comma ∧ (arguments afterNamed more).Reads args rest) := by
  constructor
  · rintro ⟨p, read, rfl, rfl⟩
    unfold moreArguments at read
    split at read
    case h_1 => cases read
    case h_2 t more =>
      refine ⟨t, more, rfl, ?_⟩
      split at read
      case isTrue isClosing =>
        cases read
        exact Or.inl ⟨Token.isSign_iff.1 isClosing, rfl, rfl⟩
      case isFalse =>
        split at read
        case isFalse => cases read
        case isTrue isComma =>
          split at read
          case h_1 => cases read
          case h_2 others readOthers =>
            cases read
            exact Or.inr ⟨Token.isSign_iff.1 isComma, others, readOthers, rfl, rfl⟩
  · rintro ⟨t, more, rfl, ⟨isClosing, rfl, rfl⟩ | ⟨isComma, others, readOthers, rfl, rfl⟩⟩
    · refine ⟨.single t ([], []), ?_, rfl, rfl⟩
      rw [moreArguments]
      simp [Token.isSign_iff.2 isClosing]
    · refine ⟨others.afterToken t, ?_, rfl, rfl⟩
      rw [moreArguments]
      simp [Token.isSign, isComma, readOthers]

-----------------------------------------------------------------------------------------
-- Sources
-----------------------------------------------------------------------------------------

/-- A source is an expression if its tokens are. -/
theorem exists_read [Scalar α] {source : String} {ts : List (Token α)} {e : Expr α}
    (tokens : (TokenText.scan source : TokenText α).tokens = ts)
    (read : (expression ts).toOption.map (fun p => (p.value, p.rest)) = some (e, []))
    : ∃ p, expression (TokenText.scan source : TokenText α).tokens = .ok p ∧ p.value = e
        ∧ p.rest = [] := by
  rw [tokens]
  cases result : expression ts with
  | error failure =>
      rw [result] at read
      cases read
  | ok p =>
      rw [result] at read
      obtain ⟨value, rest⟩ := Prod.mk.inj (Option.some.inj read)
      exact ⟨p, rfl, value, rest⟩

end Prognosis.Grammar
