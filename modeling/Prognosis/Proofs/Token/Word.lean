import Mathlib.Data.List.TakeWhile
import Prognosis.Grammar.Parsed
import Prognosis.Token.Scan

/-! Words of scenario texts are names: they start with a letter or an underscore and consist of
letters, digits and underscores.
-/

namespace Prognosis

/-- The name consists of characters of names. -/
def IsWord (name : String) : Prop :=
  ∀ c ∈ name.toList, Token.isNameChar c = true

instance (name : String) : Decidable (IsWord name) :=
  decidable_of_iff (name.toList.all Token.isNameChar = true) (by simp [IsWord])

theorem IsWord.not_mem {name : String} (word : IsWord name) {c : Char}
    (sign : Token.isNameChar c = false)
    : c ∉ name.toList := by
  intro member
  rw [word c member] at sign
  cases sign

/-- What stands before the first of a sign is determined, and so is what follows it. -/
theorem before_sign_inj {sign : Char} {front front' back back' : List Char}
    (plain : sign ∉ front) (plain' : sign ∉ front')
    (same : front ++ sign :: back = front' ++ sign :: back')
    : front = front' ∧ back = back' := by
  rcases List.append_eq_append_iff.mp same with ⟨gap, left, right⟩ | ⟨gap, left, right⟩
  · cases gap with
    | nil => exact ⟨by simpa using left.symm, (List.cons.inj right).2⟩
    | cons c rest =>
        obtain ⟨rfl, -⟩ := List.cons.inj right
        exact absurd (by simp [left]) plain'
  · cases gap with
    | nil => exact ⟨by simpa using left, (List.cons.inj right).2.symm⟩
    | cons c rest =>
        obtain ⟨rfl, -⟩ := List.cons.inj right
        exact absurd (by simp [left]) plain

/-- The text is a name: a letter or an underscore, and letters, digits and underscores. -/
def IsName (name : String) : Prop :=
  ∃ c cs, name.toList = c :: cs ∧ Token.isNameStart c = true
    ∧ ∀ d ∈ cs, Token.isNameChar d = true

theorem isName_iff {name : String} {c : Char} {cs : List Char} (chars : name.toList = c :: cs)
    : IsName name ↔ (Token.isNameStart c && cs.all Token.isNameChar) = true := by
  rw [Bool.and_eq_true, List.all_eq_true]
  constructor
  · rintro ⟨d, ds, same, is⟩
    obtain ⟨rfl, rfl⟩ := List.cons.inj (chars.symm.trans same)
    exact is
  · exact fun is => ⟨c, cs, chars, is⟩

instance (name : String) : Decidable (IsName name) :=
  match chars : name.toList with
  | [] => isFalse fun ⟨_, _, cons, _⟩ => nomatch chars.symm.trans cons
  | _ :: _ => decidable_of_iff _ (isName_iff chars).symm

namespace Token

variable {α : Type} [Scalar α]

omit [Scalar α] in
theorem isNameChar_of_isNameStart {c : Char} (start : isNameStart c = true)
    : isNameChar c = true := by
  simp only [isNameStart, isNameChar, Char.isAlphanum, Bool.or_eq_true] at *
  rcases start with letter | underscore
  · exact Or.inl (Or.inl letter)
  · exact Or.inr underscore

end Token

theorem IsName.isWord {name : String} (is : IsName name) : IsWord name := by
  obtain ⟨c, cs, chars, start, more⟩ := is
  intro d member
  rw [chars] at member
  rcases List.mem_cons.mp member with rfl | later
  · exact Token.isNameChar_of_isNameStart start
  · exact more d later

namespace Token

variable {α : Type} [Scalar α]

theorem readNumber_kind (cs : List Char) : (readNumber cs : Reading α).kind ≠ some .word := by
  unfold readNumber
  dsimp only
  repeat' split
  all_goals simp [Reading.token]

theorem readDigits_kind (cs : List Char) : (readDigits cs : Reading α).kind ≠ some .word := by
  unfold readDigits
  split
  case h_1 => split <;> simp [Reading.token]
  case h_2 => exact readNumber_kind cs

/-- What is read as a word is a name. -/
theorem isName_of_read {c : Char} {cs : List Char} {reading : Reading α}
    (is : read c cs = reading) (word : reading.kind = some .word)
    : IsName (String.ofList ((c :: cs).take reading.width)) := by
  unfold read at is
  split at is
  case isTrue => subst is; cases word
  case isFalse =>
    split at is
    case isTrue => subst is; cases word
    case isFalse =>
      split at is
      case isTrue => split at is <;> subst is <;> cases word
      case isFalse =>
        split at is
        case isTrue => subst is; exact absurd word (readDigits_kind _)
        case isFalse =>
          split at is
          case isTrue => subst is; cases word
          case isFalse =>
            split at is
            case isFalse => split at is <;> subst is <;> cases word
            case isTrue start =>
              subst is
              refine ⟨c, cs.takeWhile isNameChar, ?_, start, fun d => List.mem_takeWhile_imp⟩
              rw [String.toList_ofList, Reading.token, List.take_succ_cons,
                ← List.prefix_iff_eq_take.mp (List.takeWhile_prefix _)]

/-- Every piece is read at some place of the text. By induction along the text. -/
theorem exists_read_of_piece (span : Span) (cs : List Char) {piece : Piece α}
    (member : piece ∈ pieces span cs)
    : ∃ c rest,
        piece.kind = (read c rest : Reading α).kind
          ∧ piece.chars = (c :: rest).take (read c rest : Reading α).width
          ∧ piece.finding = (read c rest : Reading α).finding := by
  match cs with
  | [] => simp [pieces] at member
  | c :: cs =>
      unfold pieces at member
      rcases List.mem_cons.mp member with rfl | later
      · exact ⟨c, cs, rfl, rfl, rfl⟩
      · have shorter := (read c cs : Reading α).width_pos
        exact exists_read_of_piece _ _ later
termination_by cs.length
decreasing_by
  simp only [List.length_drop, List.length_cons]
  omega

/-- Every token is read at some place of the text. -/
theorem exists_read_of_scan {source : String} {t : Token α}
    (member : t ∈ (TokenText.scan source).tokens)
    : ∃ c rest,
        (read c rest : Reading α).kind = some t.kind
          ∧ t.text = String.ofList ((c :: rest).take (read c rest : Reading α).width) := by
  obtain ⟨piece, inside, is⟩ := List.mem_filterMap.mp member
  obtain ⟨kind, known, rfl⟩ := Option.map_eq_some_iff.mp is
  obtain ⟨c, rest, kinds, chars, -⟩ := exists_read_of_piece _ _ inside
  exact ⟨c, rest, kinds.symm.trans known, congrArg String.ofList chars⟩

theorem isName_of_scan {source : String} {t : Token α}
    (member : t ∈ (TokenText.scan source).tokens) (word : t.kind = .word)
    : IsName t.text := by
  obtain ⟨c, rest, kind, text⟩ := exists_read_of_scan member
  rw [text]
  exact isName_of_read rfl (kind.trans (congrArg some word))

theorem isWord_of_scan {source : String} {t : Token α}
    (member : t ∈ (TokenText.scan source).tokens) (word : t.isAnyWord = true)
    : IsWord t.text := by
  refine (isName_of_scan member ?_).isWord
  unfold isAnyWord at word
  split at word
  case h_1 is => exact is
  case h_2 => cases word

end Token

end Prognosis
