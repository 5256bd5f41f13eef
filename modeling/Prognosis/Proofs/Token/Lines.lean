import Prognosis.Proofs.Scalar.Exact
import Prognosis.Proofs.Token.Numeral
import Prognosis.Proofs.Token.Tiling

/-! Line ends in texts. A line end is to what stands in front of it as the end of the text is: no
token goes on behind it, nor does what is blank. Only a block comment may, and a text in which a
backslash stands before the line end. A line that leaves neither open is therefore cut into its
tokens whatever comes in the lines after it, and these are cut as if they stood alone, only further
down. A text that is at fault does not change how the lines after it are read.
-/

namespace Prognosis.Token

open Text

variable {α : Type}

-----------------------------------------------------------------------------------------
-- Parts of numbers in front of a line end
-----------------------------------------------------------------------------------------

section Parts

variable (cs rest : List Char)

/-- What no line end belongs to is over there. -/
theorem takeWhile_lineEnd {p : Char → Bool} (stops : p '\n' = false)
    : (cs ++ '\n' :: rest).takeWhile p = cs.takeWhile p := by
  induction cs with
  | nil => simp [stops]
  | cons c cs ih =>
      rw [List.cons_append, List.takeWhile_cons, List.takeWhile_cons, ih]

theorem drop_lineEnd {n : Nat} (le : n ≤ cs.length)
    : (cs ++ '\n' :: rest).drop n = cs.drop n ++ '\n' :: rest :=
  List.drop_append_of_le_length le

theorem leadingDigits_lineEnd : leadingDigits (cs ++ '\n' :: rest) = leadingDigits cs :=
  takeWhile_lineEnd cs rest (by decide)

theorem leadingDigits_length : (leadingDigits cs).length ≤ cs.length :=
  (List.takeWhile_prefix _).length_le

theorem atBoundary_lineEnd : atBoundary (cs ++ '\n' :: rest) = atBoundary cs := by
  cases cs <;> rfl

theorem endsDate_lineEnd : endsDate (cs ++ '\n' :: rest) = endsDate cs := by
  cases cs <;> rfl

theorem fractionDigits_lineEnd : fractionDigits (cs ++ '\n' :: rest) = fractionDigits cs := by
  cases cs with
  | nil => rfl
  | cons c cs =>
      by_cases point : c = '.'
      case pos =>
        subst point
        exact leadingDigits_lineEnd cs rest
      case neg => simp [fractionDigits, point]

theorem fractionDigits_length (some : fractionDigits cs ≠ [])
    : (fractionDigits cs).length + 1 ≤ cs.length := by
  unfold fractionDigits at some ⊢
  split at some
  case h_1 rest => exact Nat.succ_le_succ (leadingDigits_length rest)
  case h_2 => exact absurd rfl some

theorem exponentDigits_lineEnd : exponentDigits (cs ++ '\n' :: rest) = exponentDigits cs := by
  cases cs with
  | nil => rfl
  | cons c cs =>
      simp only [List.cons_append, exponentDigits]
      split
      case isFalse => rfl
      case isTrue =>
        cases cs with
        | nil => rfl
        | cons d ds =>
            by_cases minus : d = '-'
            case pos =>
              subst minus
              simp only [List.cons_append, leadingDigits_lineEnd]
            case neg =>
              by_cases plus : d = '+'
              case pos =>
                subst plus
                simp only [List.cons_append, leadingDigits_lineEnd]
              case neg =>
                have digits := leadingDigits_lineEnd (d :: ds) rest
                rw [List.cons_append] at digits
                simp [minus, plus, digits]

theorem exponentDigits_length (some : (exponentDigits cs).2.2 ≠ [])
    : (exponentDigits cs).2.1 + (exponentDigits cs).2.2.length ≤ cs.length := by
  unfold exponentDigits at some ⊢
  split at some
  case h_2 => exact absurd rfl some
  case h_1 e rest =>
    split at some
    case isFalse => exact absurd rfl some
    case isTrue is =>
      rw [if_pos is]
      split
      case h_1 more | h_2 more =>
        have := leadingDigits_length more
        simp only [List.length_cons]
        omega
      case h_3 =>
        have := leadingDigits_length rest
        simp only [List.length_cons]
        omega

/-- What is in front of the exponent of a number, as a part of the text. -/
theorem fractionWidth_le
    : (if (fractionDigits cs).isEmpty then 0 else (fractionDigits cs).length + 1) ≤ cs.length := by
  split
  case isTrue => exact Nat.zero_le _
  case isFalse some => exact fractionDigits_length cs (by simpa using some)

theorem exponentWidth_le
    : (if (exponentDigits cs).2.2.isEmpty then 0
        else (exponentDigits cs).2.1 + (exponentDigits cs).2.2.length) ≤ cs.length := by
  split
  case isTrue => exact Nat.zero_le _
  case isFalse some => exact exponentDigits_length cs (by simpa using some)

theorem writtenNumber_lineEnd : writtenNumber (cs ++ '\n' :: rest) = writtenNumber cs := by
  rw [writtenNumber_eq, writtenNumber_eq]
  simp only [leadingDigits_lineEnd, drop_lineEnd cs rest (leadingDigits_length cs),
    fractionDigits_lineEnd, drop_lineEnd _ rest (fractionWidth_le _), exponentDigits_lineEnd]

/-- A number is no wider than the text. -/
theorem writtenNumber_width : (writtenNumber cs).width ≤ cs.length := by
  have whole := leadingDigits_length cs
  have fraction := fractionWidth_le (cs.drop (leadingDigits cs).length)
  rw [writtenNumber_eq]
  dsimp only
  generalize (if (fractionDigits (cs.drop (leadingDigits cs).length)).isEmpty = true then 0
    else (fractionDigits (cs.drop (leadingDigits cs).length)).length + 1) = width at fraction ⊢
  have exponent := exponentWidth_le ((cs.drop (leadingDigits cs).length).drop width)
  rw [List.length_drop] at fraction
  rw [List.length_drop, List.length_drop] at exponent
  omega

/-- Behind a number that starts a text there is less left. -/
theorem writtenNumber_inside (some : cs ≠ []) : (writtenNumber cs).width - 1 + 1 ≤ cs.length := by
  have := writtenNumber_width cs
  have := List.length_pos_of_ne_nil some
  omega

end Parts

theorem isDecimalDigit_lineEnd : isDecimalDigit '\n' = false := by
  decide

-----------------------------------------------------------------------------------------
-- Dates and currencies in front of a line end
-----------------------------------------------------------------------------------------

section Dates

variable (cs rest : List Char)

theorem hyphenPair?_lineEnd
    : hyphenPair? (cs ++ '\n' :: rest)
      = (hyphenPair? cs).map fun pair => (pair.1, pair.2 ++ '\n' :: rest) := by
  cases cs with
  | nil => rfl
  | cons c cs =>
      by_cases hyphen : c = '-'
      case neg => simp [hyphenPair?, hyphen]
      case pos =>
        subst hyphen
        match cs with
        | [] => cases rest <;> rfl
        | [a] => cases rest <;> simp [hyphenPair?, isDecimalDigit_lineEnd]
        | a :: b :: more =>
            simp only [List.cons_append, hyphenPair?]
            split <;> rfl

theorem hyphenPair?_length {pair more : List Char} (is : hyphenPair? cs = some (pair, more))
    : cs.length = more.length + 3 := by
  unfold hyphenPair? at is
  split at is
  case h_1 =>
    split at is
    case isTrue =>
      cases is
      rfl
    case isFalse => cases is
  case h_2 => cases is

theorem writtenDate?_lineEnd : writtenDate? (cs ++ '\n' :: rest) = writtenDate? cs := by
  unfold writtenDate?
  by_cases short : cs.length < 4
  case pos =>
    have ended : ((cs ++ '\n' :: rest).take 4).all isDecimalDigit = false := by
      obtain ⟨left, more⟩ := Nat.exists_eq_add_of_lt short
      rw [List.take_append, show 4 - cs.length = left + 1 by omega, List.take_succ_cons,
        List.all_append, List.all_cons, isDecimalDigit_lineEnd, Bool.false_and, Bool.and_false]
    have few : ((cs.take 4).length == 4) = false := by
      rw [List.length_take, beq_eq_false_iff_ne]
      omega
    simp only [ended, few, Bool.and_false, Bool.false_and, Bool.false_eq_true, if_false]
  case neg =>
    rw [List.take_append_of_le_length (by omega), drop_lineEnd cs rest (by omega),
      hyphenPair?_lineEnd]
    cases hyphenPair? (cs.drop 4) with
    | none => rfl
    | some pair =>
        obtain ⟨month, more⟩ := pair
        simp only [Option.map_some, endsDate_lineEnd, hyphenPair?_lineEnd more rest]
        cases hyphenPair? more with
        | none => rfl
        | some pair => simp only [Option.map_some, endsDate_lineEnd]

theorem writtenDate?_width {date : WrittenDate} (is : writtenDate? cs = some date)
    : date.width ≤ cs.length := by
  unfold writtenDate? at is
  dsimp only at is
  split at is
  case isFalse => cases is
  case isTrue year =>
    split at is
    case h_1 => cases is
    case h_2 month more found =>
      have first := hyphenPair?_length _ found
      rw [List.length_drop] at first
      have withDay {day after : List Char} (two : hyphenPair? more = some (day, after))
          : 10 ≤ cs.length := by
        have second := hyphenPair?_length _ two
        omega
      unfold WrittenDate.width
      split at is
      case h_1 day withOne =>
        split at withOne
        case h_1 two =>
          have := withDay two
          split <;> omega
        case h_2 => cases withOne
      case h_2 =>
        split at is
        case isFalse => cases is
        case isTrue =>
          cases is
          change 7 ≤ cs.length
          omega

theorem ofCode?_some {code : List Char} {unit : Currency}
    (is : Currency.ofCode? (String.ofList code) = some unit)
    : '\n' ∉ code ∧ code.length = 3 := by
  have found := List.find?_some is
  have chars := congrArg String.toList (eq_of_beq found)
  rw [String.toList_ofList] at chars
  subst chars
  cases unit <;> decide

theorem currencyAfter?_lineEnd : currencyAfter? (cs ++ '\n' :: rest) = currencyAfter? cs := by
  unfold currencyAfter?
  dsimp only
  rw [takeWhile_lineEnd cs rest (by decide), drop_lineEnd cs rest
    (List.takeWhile_prefix _).length_le]
  generalize cs.drop _ = us
  by_cases long : 3 ≤ us.length
  case pos => rw [drop_lineEnd us rest long, atBoundary_lineEnd, List.take_append_of_le_length long]
  case neg =>
    have short : Currency.ofCode? (String.ofList (us.take 3)) = none := by
      rw [Option.eq_none_iff_forall_ne_some]
      intro unit is
      have := (ofCode?_some is).2
      rw [List.length_take] at this
      omega
    have ended : Currency.ofCode? (String.ofList ((us ++ '\n' :: rest).take 3)) = none := by
      rw [Option.eq_none_iff_forall_ne_some]
      intro unit is
      refine (ofCode?_some is).1 ?_
      obtain ⟨left, more⟩ := Nat.exists_eq_add_of_lt (Nat.lt_of_not_le long)
      rw [List.take_append, show 3 - us.length = left + 1 by omega, List.take_succ_cons]
      exact List.mem_append_right _ List.mem_cons_self
    rw [short, ended]
    simp only [Option.map_none, ite_self]

theorem currencyAfter?_width {extra : Nat} {unit : Currency}
    (is : currencyAfter? cs = some (extra, unit))
    : extra ≤ cs.length := by
  unfold currencyAfter? at is
  dsimp only at is
  split at is
  case isFalse => cases is
  case isTrue =>
    obtain ⟨_, found, same⟩ := Option.map_eq_some_iff.mp is
    cases same
    have three := (ofCode?_some found).2
    rw [List.length_take, List.length_drop] at three
    omega

end Dates

-----------------------------------------------------------------------------------------
-- Numbers in front of a line end
-----------------------------------------------------------------------------------------

section Numbers

variable [Scalar α] (cs rest : List Char)

/-- The magnitude that follows a number. -/
def magnitude? : List Char → Option Magnitude
  | c :: after => if atBoundary after then Magnitude.ofLetter? c else none
  | [] => none

theorem priced_pos (width extra : Nat) : 0 < width + 1 + extra :=
  Nat.add_pos_left width.succ_pos extra

theorem suffixed_pos (width : Nat) : 0 < width + 2 :=
  (width + 1).succ_pos

/-- A number that is no percentage and no duration, with the magnitude after it. -/
def readAmount (amount : α) (width : Nat) (letter : Option Magnitude) (cs : List Char)
    : Reading α :=
  let (scaled, width) :=
    match letter with
    | none => (amount, width)
    | some m => (amount * m.factor, width + 1)
  match currencyAfter? (cs.drop (width + 1)) with
  | some (extra, currency) =>
      .token (width + 1 + extra) (priced_pos width extra) (.currency scaled currency letter)
  | none => .token (width + 1) width.succ_pos (.number scaled)

/-- A number by what follows it. -/
def readSuffixed (amount : α) (width : Nat) (plain : Reading α) : List Char → Reading α
  | '%' :: _ => .token (width + 2) (suffixed_pos width) (.percentage amount)
  | c :: after =>
      match TimeUnit.ofLetter? c with
      | some unit =>
          if atBoundary after then
            .token (width + 2) (suffixed_pos width) (.duration ⟨amount, unit⟩)
          else plain
      | none => plain
  | [] => plain

theorem readNumber_eq
    : (readNumber cs : Reading α)
      = let amount := (writtenNumber cs).value
        let width := (writtenNumber cs).width - 1
        let rest := cs.drop (width + 1)
        readSuffixed amount width (readAmount amount width (magnitude? rest) cs) rest :=
  rfl

theorem magnitude?_lineEnd : magnitude? (cs ++ '\n' :: rest) = magnitude? cs := by
  cases cs with
  | nil => exact ite_self _
  | cons c cs => rw [List.cons_append, magnitude?, magnitude?, atBoundary_lineEnd]

omit [Scalar α] in
theorem readSuffixed_lineEnd (amount : α) (width : Nat) (plain : Reading α)
    : readSuffixed amount width plain (cs ++ '\n' :: rest)
      = readSuffixed amount width plain cs := by
  cases cs with
  | nil => rfl
  | cons c cs =>
      by_cases percent : c = '%'
      case pos =>
        subst percent
        rfl
      case neg => simp only [List.cons_append, readSuffixed, atBoundary_lineEnd]

theorem readAmount_lineEnd (amount : α) (width : Nat) (letter : Option Magnitude)
    (inside : width + 1 + (letter.elim 0 fun _ => 1) ≤ cs.length)
    : readAmount amount width letter (cs ++ '\n' :: rest)
      = readAmount amount width letter cs := by
  have same {n : Nat} (le : n ≤ cs.length)
      : currencyAfter? ((cs ++ '\n' :: rest).drop n) = currencyAfter? (cs.drop n) := by
    rw [drop_lineEnd cs rest le, currencyAfter?_lineEnd]
  cases letter with
  | none => simp only [readAmount, same (n := width + 1) inside]
  | some m => simp only [readAmount, same (n := width + 1 + 1) inside]

theorem readAmount_width (amount : α) (width : Nat) (letter : Option Magnitude)
    (inside : width + 1 + (letter.elim 0 fun _ => 1) ≤ cs.length)
    : (readAmount amount width letter cs).width ≤ cs.length := by
  have within {n extra : Nat} {unit : Currency} (le : n ≤ cs.length)
      (found : currencyAfter? (cs.drop n) = some (extra, unit))
      : n + extra ≤ cs.length := by
    have := currencyAfter?_width _ found
    rw [List.length_drop] at this
    omega
  unfold readAmount
  cases letter with
  | none | some m =>
      dsimp only
      split
      case h_1 found => exact within inside found
      case h_2 => exact inside

theorem magnitude?_inside {width : Nat} (inside : width ≤ cs.length)
    : width + ((magnitude? (cs.drop width)).elim 0 fun _ => 1) ≤ cs.length := by
  cases rest : cs.drop width with
  | nil => exact inside
  | cons c more =>
      have left := congrArg List.length rest
      rw [List.length_drop, List.length_cons] at left
      cases magnitude? (c :: more) with
      | none => exact inside
      | some m =>
          change width + 1 ≤ cs.length
          omega

omit [Scalar α] in
theorem readSuffixed_width (amount : α) (width : Nat) (plain : Reading α)
    (inside : width + 1 ≤ cs.length) (within : plain.width ≤ cs.length)
    : (readSuffixed amount width plain (cs.drop (width + 1))).width ≤ cs.length := by
  cases rest : cs.drop (width + 1) with
  | nil => exact within
  | cons c more =>
      have left := congrArg List.length rest
      rw [List.length_drop, List.length_cons] at left
      have two : width + 2 ≤ cs.length := by omega
      unfold readSuffixed
      split
      case h_1 => exact two
      case h_2 =>
        split
        case h_1 => split <;> assumption
        case h_2 => exact within
      case h_3 => exact within

theorem readNumber_lineEnd (some : cs ≠ [])
    : (readNumber (cs ++ '\n' :: rest) : Reading α) = readNumber cs := by
  have inside := writtenNumber_inside cs some
  rw [readNumber_eq, readNumber_eq]
  simp only [writtenNumber_lineEnd, drop_lineEnd cs rest inside, magnitude?_lineEnd,
    readSuffixed_lineEnd, readAmount_lineEnd cs rest _ _ _ (magnitude?_inside cs inside)]

theorem readNumber_width (some : cs ≠ []) : (readNumber cs : Reading α).width ≤ cs.length := by
  have inside := writtenNumber_inside cs some
  rw [readNumber_eq]
  exact readSuffixed_width cs _ _ _ inside
    (readAmount_width cs _ _ _ (magnitude?_inside cs inside))

theorem readDigits_lineEnd (some : cs ≠ [])
    : (readDigits (cs ++ '\n' :: rest) : Reading α) = readDigits cs := by
  unfold readDigits
  rw [writtenDate?_lineEnd, readNumber_lineEnd cs rest some]
  cases found : writtenDate? cs with
  | none => rfl
  | some date =>
      dsimp only
      rw [List.take_append_of_le_length (writtenDate?_width cs found)]

theorem readDigits_width (some : cs ≠ []) : (readDigits cs : Reading α).width ≤ cs.length := by
  unfold readDigits
  split
  case h_1 date found =>
    have inside := writtenDate?_width cs found
    split <;> exact inside
  case h_2 => exact readNumber_width cs some

end Numbers

-----------------------------------------------------------------------------------------
-- Texts between quotes, comments and signs in front of a line end
-----------------------------------------------------------------------------------------

section Marks

variable (cs rest : List Char)

/-- What does not end a text does not end what is left of it. -/
theorem getLast?_tail {c d : Char} {cs : List Char} (last : (c :: cs).getLast? ≠ some d)
    : cs.getLast? ≠ some d := by
  cases cs with
  | nil => exact nofun
  | cons e cs => simpa only [List.getLast?_cons_cons] using last

/-- A text is closed by its line end, unless a backslash comes before that. By induction along the
text.
-/
theorem quotedText_lineEnd (last : cs.getLast? ≠ some '\\')
    : quotedText (cs ++ '\n' :: rest) = quotedText cs := by
  fun_induction quotedText cs with
  | case1 | case2 | case3 => rfl
  | case4 c more chars width closed is ih =>
      have same := ih (getLast?_tail (getLast?_tail last))
      simp only [List.cons_append, quotedText, same, is]
  | case5 c more quote lineEnd escape chars width closed is ih =>
      have plain : c ≠ '\\' := by
        rintro rfl
        cases more with
        | nil => exact last rfl
        | cons d more => exact escape d more rfl rfl
      have same := ih (getLast?_tail last)
      rw [List.cons_append, quotedText.eq_5 _ _ quote lineEnd fun _ _ is => absurd is plain, same,
        is]

theorem quotedText_width : (quotedText cs).2.1 ≤ cs.length := by
  fun_induction quotedText cs with
  | case1 | case2 | case3 => simp
  | case4 _ _ _ _ _ is ih | case5 _ _ _ _ _ _ _ _ is ih =>
      rw [is] at ih
      simpa using ih

/-- What closes a comment closes it whatever comes behind. -/
theorem commentWidth?_append {width : Nat} (is : commentWidth? cs = some width)
    : commentWidth? (cs ++ rest) = some width ∧ width ≤ cs.length := by
  fun_induction commentWidth? cs generalizing width with
  | case1 more =>
      cases is
      exact ⟨rfl, by simp⟩
  | case2 c more other ih =>
      obtain ⟨inner, found, rfl⟩ := Option.map_eq_some_iff.mp is
      obtain ⟨same, inside⟩ := ih found
      refine ⟨?_, Nat.succ_le_succ inside⟩
      rw [List.cons_append, commentWidth?.eq_2, same]
      · rfl
      · rintro after rfl slash
        cases more with
        | nil => cases found
        | cons d more =>
            obtain ⟨rfl, -⟩ := List.cons.inj slash
            exact other more rfl rfl
  | case3 => cases is

theorem startsWith_lineEnd {word : List Char} (oneLine : '\n' ∉ word)
    : startsWith word (cs ++ '\n' :: rest) = startsWith word cs := by
  induction word generalizing cs with
  | nil => simp [startsWith]
  | cons c word ih =>
      rw [List.mem_cons, not_or] at oneLine
      unfold startsWith at ih ⊢
      cases cs with
      | nil =>
          rw [List.nil_append, List.isPrefixOf_cons_cons,
            beq_eq_false_iff_ne.mpr (Ne.symm oneLine.1)]
          rfl
      | cons d cs =>
          rw [List.cons_append, List.isPrefixOf_cons_cons, List.isPrefixOf_cons_cons,
            ih cs oneLine.2]

omit cs in
theorem startsWith_two {a b c : Char} {cs : List Char} (is : startsWith [a, b] (c :: cs) = true)
    : c = a ∧ ∃ more, cs = b :: more := by
  obtain ⟨more, opens⟩ := List.isPrefixOf_iff_prefix.mp is
  obtain ⟨rfl, rfl⟩ := List.cons.inj opens
  exact ⟨rfl, more, rfl⟩

theorem find_signs_lineEnd
    : signs.find? (fun entry => startsWith entry.1 (cs ++ '\n' :: rest))
      = signs.find? (fun entry => startsWith entry.1 cs) := by
  have oneLine : ∀ entry ∈ signs, '\n' ∉ entry.1 := by decide
  generalize signs = entries at oneLine
  induction entries with
  | nil => rfl
  | cons entry entries ih =>
      rw [List.forall_mem_cons] at oneLine
      rw [List.find?_cons, List.find?_cons, startsWith_lineEnd cs rest oneLine.1, ih oneLine.2]

end Marks

-----------------------------------------------------------------------------------------
-- Pieces of a line
-----------------------------------------------------------------------------------------

section Pieces

variable [Scalar α]

theorem lineWidth_le (cs : List Char) : lineWidth cs ≤ cs.length := by
  fun_induction lineWidth cs with
  | case1 => exact Nat.le_refl 0
  | case2 => exact Nat.succ_le_succ (Nat.zero_le _)
  | case3 _ _ _ ih => exact Nat.succ_le_succ ih

theorem lineWidth_line {cs : List Char} (oneLine : '\n' ∉ cs) : lineWidth cs = cs.length := by
  induction cs with
  | nil => rfl
  | cons c cs ih =>
      rw [List.mem_cons, not_or] at oneLine
      rw [lineWidth, ih oneLine.2]
      · rfl
      · exact fun is => oneLine.1 is.symm

/-- A line that ends inside a text is as wide with more behind the text. -/
theorem lineWidth_append {cs : List Char} (rest : List Char) (ends : '\n' ∈ cs)
    : lineWidth (cs ++ rest) = lineWidth cs := by
  induction cs with
  | nil => cases ends
  | cons c cs ih =>
      by_cases lineEnd : c = '\n'
      case pos =>
        subst lineEnd
        rfl
      case neg =>
        have later := ih ((List.mem_cons.mp ends).resolve_left (Ne.symm lineEnd))
        rw [List.cons_append, lineWidth, lineWidth, later] <;> exact lineEnd

/-- The line comment takes the line and its end. -/
theorem lineWidth_lineEnd {cs : List Char} (rest : List Char) (oneLine : '\n' ∉ cs)
    : lineWidth (cs ++ '\n' :: rest) = cs.length + 1 := by
  induction cs with
  | nil => rfl
  | cons c cs ih =>
      rw [List.mem_cons, not_or] at oneLine
      rw [List.cons_append, lineWidth, ih oneLine.2]
      · rfl
      · exact fun is => oneLine.1 is.symm

/-- What starts a line is read as without its end, unless it is a comment that goes on. -/
theorem read_lineEnd (c : Char) (cs rest : List Char) (last : (c :: cs).getLast? ≠ some '\\')
    (line : startsWith ['/', '/'] (c :: cs) = true → '\n' ∈ cs)
    (closed : (read c cs : Reading α).finding ≠ some .unterminatedComment)
    : (read c (cs ++ '\n' :: rest) : Reading α) = read c cs := by
  have starts (word : List Char) (oneLine : '\n' ∉ word)
      : startsWith word (c :: (cs ++ '\n' :: rest)) = startsWith word (c :: cs) :=
    startsWith_lineEnd (c :: cs) rest oneLine
  have found := find_signs_lineEnd (c :: cs) rest
  have digits := readDigits_lineEnd (α := α) (c :: cs) rest (List.cons_ne_nil c cs)
  rw [List.cons_append] at found digits
  unfold read at closed ⊢
  simp only [starts ['/', '/'] (by decide), starts ['/', '*'] (by decide)] at closed ⊢
  by_cases blank : isBlank c = true
  case pos => simp only [blank, if_true]
  case neg =>
    by_cases slashes : startsWith ['/', '/'] (c :: cs) = true
    case pos =>
      simp only [blank, slashes, Bool.false_eq_true, if_false, if_true,
        lineWidth_append _ (line slashes)]
    case neg =>
      by_cases block : startsWith ['/', '*'] (c :: cs) = true
      case pos =>
        obtain ⟨-, more, rfl⟩ := startsWith_two block
        simp only [blank, slashes, block, Bool.false_eq_true, if_false, if_true,
          List.cons_append, List.drop_succ_cons, List.drop_zero] at closed ⊢
        cases width : commentWidth? more with
        | none => simp [width] at closed
        | some width' => rw [(commentWidth?_append more ('\n' :: rest) width).1]
      case neg =>
        simp only [blank, slashes, block, Bool.false_eq_true, if_false]
        have quoted := quotedText_lineEnd cs rest (getLast?_tail last)
        by_cases digit : c.isDigit = true
        case pos => simp only [digit, if_true, digits]
        case neg =>
          by_cases quote : (c == '"') = true
          case pos =>
            simp only [digit, quote, Bool.false_eq_true, if_false, if_true,
              quoted]
          case neg =>
            have name := takeWhile_lineEnd cs rest (p := isNameChar) (by decide)
            simp only [digit, quote, Bool.false_eq_true, if_false, found, name]

theorem read_width (c : Char) (cs : List Char)
    : (read c cs : Reading α).width ≤ cs.length + 1 := by
  have one : 1 ≤ cs.length + 1 := Nat.le_add_left 1 _
  unfold read
  split
  case isTrue => exact one
  case isFalse =>
    split
    case isTrue => exact Nat.succ_le_succ (lineWidth_le cs)
    case isFalse =>
      split
      case isTrue block =>
        obtain ⟨-, more, rfl⟩ := startsWith_two block
        split
        case h_1 found => exact Nat.add_le_add_right (commentWidth?_append more [] found).2 2
        case h_2 => exact Nat.le_refl _
      case isFalse =>
        split
        case isTrue => exact readDigits_width (c :: cs) (List.cons_ne_nil c cs)
        case isFalse =>
          split
          case isTrue => exact Nat.succ_le_succ (quotedText_width cs)
          case isFalse =>
            split
            case isTrue => exact Nat.succ_le_succ (List.takeWhile_prefix _).length_le
            case isFalse =>
              split
              case h_1 chars sign found =>
                have fits := List.find?_some found
                have short := (List.isPrefixOf_iff_prefix.mp fits).length_le
                rw [List.length_cons] at short
                change chars.length - 1 + 1 ≤ cs.length + 1
                omega
              case h_2 => exact one

/-- The tokens of a text that starts at the place. -/
def tokensFrom (span : Span) (cs : List Char) : List (Token α) :=
  (pieces span cs).filterMap (·.token?)

theorem tokensFrom_cons (span : Span) (c : Char) (cs : List Char)
    : (tokensFrom span (c :: cs) : List (Token α))
      = let reading : Reading α := read c cs
        let chars := (c :: cs).take reading.width
        (reading.kind.map fun kind => ⟨kind, String.ofList chars, span⟩).toList
          ++ tokensFrom (span.past chars) ((c :: cs).drop reading.width) := by
  unfold tokensFrom
  rw [pieces, List.filterMap_cons, Piece.token?]
  dsimp only
  cases (read c cs : Reading α).kind <;> rfl

theorem tokensFrom_nil (span : Span) : (tokensFrom span [] : List (Token α)) = [] := by
  rw [tokensFrom, pieces]
  rfl

/-- Nothing is made of a piece that is no token and at which nothing is found. -/
def Ignores {β : Type} (make : Piece α → Option β) : Prop :=
  ∀ span chars, make ⟨span, chars, none, none⟩ = none

section Made

variable {β : Type} {make : Piece α → Option β}

/-- Nothing is made of what is skipped. -/
theorem made_skip (ignores : Ignores make) (span : Span) (c : Char) (cs rest : List Char)
    (skips : (read c (cs ++ rest) : Reading α) = .skip (cs.length + 1) (Nat.succ_pos _))
    : (pieces span (c :: (cs ++ rest))).filterMap make
      = (pieces (span.past (c :: cs)) rest).filterMap make := by
  have whole : c :: (cs ++ rest) = (c :: cs) ++ rest := rfl
  have width : (read c (cs ++ rest) : Reading α).width = (c :: cs).length := by
    rw [skips]
    rfl
  rw [pieces, width, whole, List.take_left, List.drop_left, skips, List.filterMap_cons]
  simp only [Reading.skip, ignores span (c :: cs)]

/-- Nothing is made of a comment up to the end of its line, with that end or without. -/
theorem made_lineComment (ignores : Ignores make) (span : Span) {body : List Char}
    (rest : List Char) (within : '\n' ∉ '/' :: body)
    : (pieces span ('/' :: '/' :: body)).filterMap make = []
      ∧ (pieces span ('/' :: '/' :: (body ++ '\n' :: rest))).filterMap make
        = (pieces (span.past ('/' :: '/' :: (body ++ ['\n']))) rest).filterMap make := by
  have comment (cs : List Char)
      : (read '/' ('/' :: cs) : Reading α) = .skip (lineWidth ('/' :: cs) + 1) (Nat.succ_pos _) :=
    rfl
  constructor
  · have alone := made_skip ignores span '/' ('/' :: body) [] (by
      simp only [List.append_nil, comment, lineWidth_line within])
    rw [List.append_nil] at alone
    rw [alone, pieces, List.filterMap_nil]
  · have ended := lineWidth_lineEnd rest within
    rw [List.cons_append] at ended
    have skipped := made_skip ignores span '/' ('/' :: (body ++ ['\n'])) rest (by
      simp only [List.cons_append, List.append_assoc, List.nil_append, comment, ended,
        List.length_cons, List.length_append, List.length_nil])
    simpa only [List.cons_append, List.append_assoc, List.nil_append] using skipped

/-- What is made of a text does not depend on what comes behind its line end. By induction along
the text.
-/
theorem made_lineEnd (ignores : Ignores make) (span : Span) (cs rest : List Char)
    (last : cs.getLast? ≠ some '\\')
    (closed : ∀ piece ∈ (pieces span cs : List (Piece α)),
      piece.finding ≠ some .unterminatedComment)
    : (pieces span (cs ++ '\n' :: rest)).filterMap make
      = (pieces span cs).filterMap make
        ++ (pieces (span.past (cs ++ ['\n'])) rest).filterMap make := by
  match cs with
  | [] =>
      rw [pieces.eq_1 span]
      exact made_skip ignores span '\n' [] rest rfl
  | c :: cs =>
      by_cases goesOn : startsWith ['/', '/'] (c :: cs) = true ∧ '\n' ∉ cs
      case pos =>
        obtain ⟨rfl, more, rfl⟩ := startsWith_two goesOn.1
        obtain ⟨alone, ended⟩ := made_lineComment ignores span rest goesOn.2
        rw [alone]
        exact ended
      case neg =>
        rw [pieces, List.forall_mem_cons] at closed
        obtain ⟨here, later⟩ := closed
        have same := read_lineEnd c cs rest last
          (fun line => Classical.not_not.mp fun never => goesOn ⟨line, never⟩) here
        have inside : (read c cs : Reading α).width ≤ (c :: cs).length := read_width c cs
        have shorter := (read c cs : Reading α).width_pos
        have ends : ((c :: cs).drop (read c cs : Reading α).width).getLast? ≠ some '\\' := by
          rw [List.getLast?_drop]
          split
          case isTrue => exact (Option.some_ne_none _).symm
          case isFalse => exact last
        have ih := made_lineEnd ignores _ ((c :: cs).drop (read c cs : Reading α).width) rest
          ends later
        have start : (pieces span (c :: (cs ++ '\n' :: rest)) : List (Piece α))
            = ⟨span, (c :: cs).take (read c cs : Reading α).width, (read c cs : Reading α).kind,
                (read c cs : Reading α).finding⟩
              :: pieces (span.past ((c :: cs).take (read c cs : Reading α).width))
                ((c :: cs).drop (read c cs : Reading α).width ++ '\n' :: rest) := by
          rw [pieces, same, ← List.cons_append, List.take_append_of_le_length inside,
            List.drop_append_of_le_length inside]
        rw [List.cons_append, start, pieces.eq_2 span c cs, List.filterMap_cons,
          List.filterMap_cons, ih, ← Span.past_append, ← List.append_assoc, List.take_append_drop]
        split <;> rfl
termination_by cs.length
decreasing_by
  simp only [List.length_drop, List.length_cons]
  omega

end Made

/-- What is found in a text does not depend on where it starts. By induction along the text. -/
theorem pieces_findings (span span' : Span) (cs : List Char)
    : (pieces span cs : List (Piece α)).map (·.finding)
      = (pieces span' cs : List (Piece α)).map (·.finding) := by
  fun_induction pieces (α := α) span cs generalizing span' with
  | case1 => rw [pieces]
  | case2 span c cs reading chars ih =>
      rw [pieces, List.map_cons, List.map_cons]
      exact congrArg (_ :: ·) (ih _)

variable (α) in
/-- The line leaves nothing open that the line after it could go on with: no comment, and no text
between quotes whose line end is escaped.
-/
structure ClosedLine (line : String) : Prop where
  oneLine : '\n' ∉ line.toList
  comment
    : ∀ report ∈ (TokenText.scan line : TokenText α).findings,
      report.finding ≠ .unterminatedComment
  escape : line.toList.getLast? ≠ some '\\'

/-- The tokens of a line come before those of the lines after it. -/
theorem ClosedLine.tokensFrom {line : String} (closed : ClosedLine α line) (span : Span)
    (rest : List Char)
    : (tokensFrom span (line.toList ++ '\n' :: rest) : List (Token α))
      = Token.tokensFrom span line.toList
        ++ Token.tokensFrom (span.past (line.toList ++ ['\n'])) rest := by
  refine made_lineEnd (fun _ _ => rfl) span line.toList rest closed.escape
    fun piece member is => ?_
  have found : some .unterminatedComment ∈
      (pieces ⟨1, 1⟩ line.toList : List (Piece α)).map (·.finding) := by
    rw [pieces_findings _ span]
    exact is ▸ List.mem_map_of_mem member
  obtain ⟨first, within, is⟩ := List.mem_map.mp found
  refine closed.comment ⟨.unterminatedComment, some first.span⟩ ?_ rfl
  exact List.mem_filterMap.mpr ⟨first, within, by rw [Piece.located?, is]; rfl⟩

end Pieces

end Prognosis.Token

namespace Prognosis

variable {α : Type}

-----------------------------------------------------------------------------------------
-- Places further down
-----------------------------------------------------------------------------------------

namespace Span

/-- The place so many lines further down. -/
def down (span : Span) (lines : Nat) : Span :=
  ⟨span.line + lines, span.column⟩

theorem after_down (span : Span) (lines : Nat) (c : Char)
    : (span.down lines).after c = (span.after c).down lines := by
  unfold after
  split
  case isTrue => simp only [down, Nat.add_right_comm]
  case isFalse => rfl

theorem past_down (span : Span) (lines : Nat) (cs : List Char)
    : (span.down lines).past cs = (span.past cs).down lines := by
  induction cs generalizing span with
  | nil => rfl
  | cons c cs ih =>
      have later := ih (span.after c)
      rw [← after_down] at later
      exact later

/-- A line end leads to the start of a line, below all lines in front of it. -/
theorem past_lineEnd (cs : List Char)
    : Span.past ⟨1, 1⟩ (cs ++ ['\n']) = Span.down ⟨1, 1⟩ (cs.count '\n' + 1) := by
  rw [past_append, past_start, down, ← Nat.add_assoc]
  rfl

end Span

/-- The finding so many lines further down. -/
def Located.down {φ : Type} (l : Located φ) (lines : Nat) : Located φ :=
  ⟨l.finding, l.span.map (·.down lines)⟩

namespace Token

/-- The token so many lines further down. -/
def down (t : Token α) (lines : Nat) : Token α :=
  { t with span := t.span.down lines }

/-- The piece so many lines further down. -/
def Piece.down (p : Piece α) (lines : Nat) : Piece α :=
  { p with span := p.span.down lines }

theorem Piece.token?_down (p : Piece α) (lines : Nat)
    : (p.down lines).token? = p.token?.map (·.down lines) := by
  rw [Piece.token?, Piece.token?, Option.map_map]
  rfl

theorem Piece.located?_down (p : Piece α) (lines : Nat)
    : (p.down lines).located? = p.located?.map (·.down lines) := by
  rw [Piece.located?, Piece.located?, Option.map_map]
  rfl

variable [Scalar α]

/-- A text that starts further down has its pieces further down. By induction along the text. -/
theorem pieces_down (span : Span) (lines : Nat) (cs : List Char)
    : (pieces (span.down lines) cs : List (Piece α))
      = (pieces span cs).map (·.down lines) := by
  fun_induction pieces (α := α) span cs with
  | case1 span => rw [pieces, List.map_nil]
  | case2 span c cs reading chars ih =>
      rw [pieces, List.map_cons, Span.past_down]
      exact congrArg (_ :: ·) ih

/-- The same is made of what stands further down, only further down. -/
theorem made_down {β : Type} {make : Piece α → Option β} {moved : β → β} {lines : Nat}
    (follows : ∀ p, make (p.down lines) = (make p).map moved) (span : Span) (cs : List Char)
    : (pieces (span.down lines) cs).filterMap make
      = ((pieces span cs).filterMap make).map moved := by
  rw [pieces_down, List.filterMap_map, List.map_filterMap]
  congr 1
  funext p
  exact follows p

end Token

-----------------------------------------------------------------------------------------
-- Texts in front of a line end
-----------------------------------------------------------------------------------------

variable [Scalar α]

namespace TokenText

/-- Comments that are left open are among the findings of the text. -/
theorem finding_of_piece {source : String} {piece : Token.Piece α}
    (member : piece ∈ (Token.pieces ⟨1, 1⟩ source.toList : List (Token.Piece α)))
    {finding : LexicalFinding} (is : piece.finding = some finding)
    : ⟨finding, some piece.span⟩ ∈ (scan source : TokenText α).findings :=
  List.mem_filterMap.mpr ⟨piece, member, by rw [Token.Piece.located?, is]; rfl⟩

/-- A text, a line end and another text. Unless the first one leaves a comment open or ends with a
backslash, the whole is cut into the tokens of the first one and those of the second one, and what
is found is what is found in the one and in the other; the second one stands below all lines of the
first one, and is read as if it stood alone, whatever is wrong with the first one.

Witness: `scan_below_open_quote`
-/
theorem scan_lineEnd {first second : String}
    (closed : ∀ report ∈ (scan first : TokenText α).findings,
      report.finding ≠ .unterminatedComment)
    (escape : first.toList.getLast? ≠ some '\\')
    : let lines := first.toList.count '\n' + 1
      (scan (first ++ "\n" ++ second) : TokenText α) = {
        tokens := (scan first).tokens ++ (scan second).tokens.map (·.down lines)
        stop := (scan second : TokenText α).stop.down lines
        findings := (scan first : TokenText α).findings
          ++ (scan second : TokenText α).findings.map (·.down lines)
      } := by
  intro lines
  have chars : (first ++ "\n" ++ second).toList
      = first.toList ++ ('\n' :: second.toList) := by
    rw [String.toList_append, String.toList_append, List.append_assoc]
    rfl
  have commentless : ∀ piece ∈ (Token.pieces ⟨1, 1⟩ first.toList : List (Token.Piece α)),
      piece.finding ≠ some .unterminatedComment := fun piece member is =>
    closed _ (finding_of_piece member is) rfl
  have made {β : Type} {make : Token.Piece α → Option β} {moved : β → β}
      (ignores : Token.Ignores make) (follows : ∀ p, make (p.down lines) = (make p).map moved)
      : (Token.pieces ⟨1, 1⟩ (first ++ "\n" ++ second).toList).filterMap make
        = (Token.pieces ⟨1, 1⟩ first.toList).filterMap make
          ++ ((Token.pieces ⟨1, 1⟩ second.toList).filterMap make).map moved := by
    rw [chars, Token.made_lineEnd ignores _ _ _ escape commentless, Span.past_lineEnd,
      Token.made_down follows]
  have tokens := made (fun _ _ => rfl) fun p => p.token?_down lines
  have findings := made (fun _ _ => rfl) fun p => p.located?_down lines
  have stop : Span.past ⟨1, 1⟩ (first ++ "\n" ++ second).toList
      = (Span.past ⟨1, 1⟩ second.toList).down lines := by
    rw [chars, List.append_cons, Span.past_append, Span.past_lineEnd, Span.past_down]
  simp only [scan, tokens, findings, stop]

/-- A quote that is left open ends with its line, and the line below it is read as on its own. -/
theorem scan_below_open_quote
    : (scan ("a \"b" ++ "\n" ++ "c 2024-13") : TokenText Int) = {
        tokens := [⟨.word, "a", ⟨1, 1⟩⟩, ⟨.text "b", "\"b", ⟨1, 3⟩⟩, ⟨.word, "c", ⟨2, 1⟩⟩,
          ⟨.date (.ofYear 2024), "2024-13", ⟨2, 3⟩⟩]
        stop := ⟨2, 10⟩
        findings := [⟨.unterminatedText, some ⟨1, 3⟩⟩, ⟨.invalidDate "2024-13", some ⟨2, 3⟩⟩]
      } := by
  have first : (scan "a \"b" : TokenText Int)
      = ⟨[⟨.word, "a", ⟨1, 1⟩⟩, ⟨.text "b", "\"b", ⟨1, 3⟩⟩], ⟨1, 5⟩,
          [⟨.unterminatedText, some ⟨1, 3⟩⟩]⟩ := by
    cbv
  have second : (scan "c 2024-13" : TokenText Int)
      = ⟨[⟨.word, "c", ⟨1, 1⟩⟩, ⟨.date (.ofYear 2024), "2024-13", ⟨1, 3⟩⟩], ⟨1, 10⟩,
          [⟨.invalidDate "2024-13", some ⟨1, 3⟩⟩]⟩ := by
    cbv
  have closed : ∀ report ∈ (scan "a \"b" : TokenText Int).findings,
      report.finding ≠ .unterminatedComment := by
    simp [first]
  have escape : ("a \"b" : String).toList.getLast? ≠ some '\\' := by decide
  rw [scan_lineEnd closed escape, first, second]
  rfl

end TokenText

end Prognosis
