import Prognosis.Proofs.Token.Cutting
import Prognosis.Proofs.Token.Lines

/-! Tokens without what stands around them. What stands behind a token may cut it short: a date that
goes on is no date, nor is a letter in a word a magnitude, nor is the start of a longer sign a sign.
The characters that are left make the same token on their own nevertheless, so a text that is read
without findings may be laid out anew, with each token on its own line.
-/

namespace Prognosis.Token

open Text

variable {α : Type}

-----------------------------------------------------------------------------------------
-- Parts of numbers on their own
-----------------------------------------------------------------------------------------

section Parts

variable {cs : List Char} {n : Nat}

theorem takeWhile_take {p : Char → Bool} (inside : (cs.takeWhile p).length ≤ n)
    : (cs.take n).takeWhile p = cs.takeWhile p := by
  rw [← List.take_takeWhile, List.take_of_length_le inside]

theorem leadingDigits_take (inside : (leadingDigits cs).length ≤ n)
    : leadingDigits (cs.take n) = leadingDigits cs :=
  takeWhile_take inside

theorem fractionDigits_take
    (inside : (if (fractionDigits cs).isEmpty then 0 else (fractionDigits cs).length + 1) ≤ n)
    : fractionDigits (cs.take n) = fractionDigits cs := by
  match cs, n with
  | [], _ => rw [List.take_nil]
  | c :: cs, 0 =>
      have none : fractionDigits (c :: cs) = [] := by
        split at inside
        case isTrue none => simpa using none
        case isFalse => omega
      rw [none]
      rfl
  | c :: cs, n + 1 =>
      by_cases point : c = '.'
      case neg => simp [fractionDigits, point]
      case pos =>
        subst point
        refine leadingDigits_take ?_
        change (fractionDigits ('.' :: cs)).length ≤ n
        split at inside
        case isTrue none => simp [List.isEmpty_iff.mp none]
        case isFalse => omega

/-- An exponent with digits takes two characters at least. -/
theorem exponentDigits_eq_nil
    (inside : (if (exponentDigits cs).2.2.isEmpty then 0
        else (exponentDigits cs).2.1 + (exponentDigits cs).2.2.length) ≤ n)
    (short : n ≤ 1)
    : (exponentDigits cs).2.2 = [] := by
  by_contra some
  have letter : 1 ≤ (exponentDigits cs).2.1 := by
    unfold exponentDigits at some ⊢
    split at some
    case h_2 => exact absurd rfl some
    case h_1 =>
      split at some
      case isFalse => exact absurd rfl some
      case isTrue is =>
        rw [if_pos is]
        split <;> simp
  have digits := List.length_pos_of_ne_nil some
  rw [if_neg (by simpa using some)] at inside
  omega

/-- The digits of an exponent are those of the characters that hold them, and where there are any,
so is what stands before them.
-/
theorem exponentDigits_take
    (inside : (if (exponentDigits cs).2.2.isEmpty then 0
        else (exponentDigits cs).2.1 + (exponentDigits cs).2.2.length) ≤ n)
    : (exponentDigits (cs.take n)).2.2 = (exponentDigits cs).2.2
      ∧ ((exponentDigits cs).2.2 ≠ [] → exponentDigits (cs.take n) = exponentDigits cs) := by
  match cs, n with
  | [], _ => simp
  | e :: cs, 0 =>
      have none := exponentDigits_eq_nil inside (by decide)
      exact ⟨none.symm, fun some => absurd none some⟩
  | e :: cs, 1 =>
      have none := exponentDigits_eq_nil inside (by decide)
      refine ⟨?_, fun some => absurd none some⟩
      rw [none]
      simp only [exponentDigits, List.take_zero, List.take_succ_cons, leadingDigits,
        List.takeWhile_nil]
      split <;> rfl
  | [e], n + 2 => simp
  | e :: d :: more, n + 2 =>
      simp only [List.take_succ_cons]
      by_cases letter : (e == 'e' || e == 'E') = true
      case neg => simp [exponentDigits, letter]
      case pos =>
        have fits {width : Nat} {digits : List Char}
            (inside : (if digits.isEmpty then 0 else width + digits.length) ≤ n + 2)
            : digits.length ≤ n + 2 - width := by
          split at inside
          case isTrue none => simp [List.isEmpty_iff.mp none]
          case isFalse => omega
        have same : exponentDigits (e :: d :: more.take n) = exponentDigits (e :: d :: more) := by
          have signed (negative : Bool)
              (is : ∀ rest, exponentDigits (e :: d :: rest) = (negative, 2, leadingDigits rest))
              : exponentDigits (e :: d :: more.take n) = exponentDigits (e :: d :: more) := by
            rw [is more] at inside
            have digits : leadingDigits (more.take n) = leadingDigits more :=
              leadingDigits_take (fits inside)
            rw [is, is, digits]
          by_cases minus : d = '-'
          case pos => exact signed true fun rest => by rw [minus, exponentDigits, if_pos letter]
          case neg =>
            by_cases plus : d = '+'
            case pos => exact signed false fun rest => by rw [plus, exponentDigits, if_pos letter]
            case neg =>
              have is (rest : List Char)
                  : exponentDigits (e :: d :: rest) = (false, 1, leadingDigits (d :: rest)) := by
                simp [exponentDigits, letter, minus, plus]
              rw [is more] at inside
              have digits : leadingDigits (d :: more.take n) = leadingDigits (d :: more) :=
                leadingDigits_take (n := n + 1) (fits inside)
              rw [is, is, digits]
        exact ⟨by rw [same], fun _ => same⟩

/-- A number is read from the characters that it takes, whatever comes behind them. -/
theorem writtenNumber_take [Scalar α] (inside : (writtenNumber cs).width ≤ n)
    : (writtenNumber (cs.take n)).width = (writtenNumber cs).width
      ∧ (writtenNumber (cs.take n)).value = ((writtenNumber cs).value : α) := by
  rw [writtenNumber_eq] at inside
  dsimp only at inside
  have whole : leadingDigits (cs.take n) = leadingDigits cs :=
    leadingDigits_take (by omega)
  rw [writtenNumber_eq, writtenNumber_eq, whole, List.drop_take]
  generalize cs.drop (leadingDigits cs).length = us at inside ⊢
  generalize leadingDigits cs = digits at inside ⊢
  have fraction : fractionDigits (us.take (n - digits.length)) = fractionDigits us :=
    fractionDigits_take (by omega)
  dsimp only
  rw [fraction, List.drop_take]
  generalize (if (fractionDigits us).isEmpty = true then 0 else (fractionDigits us).length + 1)
    = width at inside ⊢
  have left : (if (exponentDigits (us.drop width)).2.2.isEmpty then 0
      else (exponentDigits (us.drop width)).2.1 + (exponentDigits (us.drop width)).2.2.length)
      ≤ n - digits.length - width := by
    omega
  obtain ⟨exponent, all⟩ := exponentDigits_take left
  by_cases none : (exponentDigits (us.drop width)).2.2 = []
  case pos =>
    rw [none] at exponent
    simp [WrittenNumber.value, exponent, none, digitsValue]
  case neg => simp [all none]

end Parts

-----------------------------------------------------------------------------------------
-- Dates and currencies on their own
-----------------------------------------------------------------------------------------

section Dates

variable {cs : List Char} {n : Nat}

/-- A hyphen and two digits are read from these characters alone. -/
theorem hyphenPair?_take {pair more : List Char} (is : hyphenPair? cs = some (pair, more))
    : pair.length = 2 ∧ hyphenPair? (cs.take (n + 3)) = some (pair, more.take n) := by
  unfold hyphenPair? at is
  split at is
  case h_2 => cases is
  case h_1 a b rest =>
    split at is
    case isFalse => cases is
    case isTrue digits =>
      cases is
      exact ⟨rfl, by simp only [List.take_succ_cons, hyphenPair?, digits, if_true]⟩

/-- A date is read from its characters alone. -/
theorem writtenDate?_take {date : WrittenDate} (is : writtenDate? cs = some date)
    : writtenDate? (cs.take date.width) = some date := by
  unfold writtenDate? at is
  dsimp only at is
  split at is
  case isFalse => cases is
  case isTrue year =>
    split at is
    case h_1 => cases is
    case h_2 month more found =>
      have inside {n : Nat} : (cs.take (n + 7)).take 4 = cs.take 4 := by
        rw [List.take_take, Nat.min_eq_left (by omega)]
      have behind {n : Nat} : hyphenPair? ((cs.take (n + 7)).drop 4)
          = some (month, more.take n) := by
        rw [List.drop_take]
        exact (hyphenPair?_take found).2
      split at is
      case h_1 dated withDay =>
        cases is
        split at withDay
        case h_2 => cases withDay
        case h_1 day after two =>
          split at withDay
          case isFalse => cases withDay
          case isTrue =>
            cases withDay
            obtain ⟨some, alone⟩ := hyphenPair?_take (n := 0) two
            have width : WrittenDate.width ⟨cs.take 4, month, day⟩ = 3 + 7 := by
              rw [WrittenDate.width, if_neg]
              intro none
              have nil : day = [] := List.isEmpty_iff.mp none
              rw [nil] at some
              cases some
            rw [width, writtenDate?, inside, if_pos year, behind]
            simp only [alone, List.take_zero, endsDate, if_true]
      case h_2 =>
        split at is
        case isFalse => cases is
        case isTrue =>
          cases is
          rw [show WrittenDate.width ⟨cs.take 4, month, []⟩ = 0 + 7 from rfl, writtenDate?,
            inside, if_pos year, behind]
          simp only [List.take_zero, hyphenPair?, endsDate, if_true]

/-- Where a date starts, there are a year and a hyphen. -/
theorem writtenDate?_year {date : WrittenDate} (is : writtenDate? cs = some date)
    : ∃ year rest, cs = year ++ '-' :: rest ∧ year.length = 4
        ∧ ∀ c ∈ year, isDecimalDigit c = true := by
  unfold writtenDate? at is
  dsimp only at is
  split at is
  case isFalse => cases is
  case isTrue four =>
    obtain ⟨length, digits⟩ := Bool.and_eq_true_iff.mp four
    cases behind : cs.drop 4 with
    | nil =>
        rw [behind] at is
        cases is
    | cons c rest =>
        by_cases hyphen : c = '-'
        case pos =>
          subst hyphen
          refine ⟨cs.take 4, rest, ?_, eq_of_beq length, List.all_eq_true.mp digits⟩
          rw [← behind, List.take_append_drop]
        case neg =>
          rw [behind, hyphenPair?] at is
          · cases is
          · rintro a b more same
            exact hyphen (List.cons.inj same).1

/-- A year with a hyphen behind it is a number of four digits. -/
theorem readNumber_year [Scalar α] {year : List Char} (four : year.length = 4)
    (digits : ∀ c ∈ year, isDecimalDigit c = true) (rest : List Char)
    : (readNumber (year ++ '-' :: rest) : Reading α).width = 4 := by
  have whole : leadingDigits (year ++ '-' :: rest) = year := by
    rw [leadingDigits, List.takeWhile_append_of_pos digits,
      List.takeWhile_cons_of_neg (by decide), List.append_nil]
  have behind : (year ++ '-' :: rest).drop 4 = '-' :: rest := List.drop_left' four
  have width : (writtenNumber (year ++ '-' :: rest)).width = 4 := by
    rw [writtenNumber_eq, whole, four, behind]
    simp [fractionDigits, exponentDigits]
  have free : currencyAfter? ('-' :: rest) = none :=
    currencyAfter?_eq_none [] (by simp) (by decide)
  rw [readNumber_eq]
  dsimp only
  rw [width, behind]
  have plain : magnitude? ('-' :: rest) = none := ite_self _
  simp [plain, readSuffixed, TimeUnit.ofLetter?, readAmount, behind, free, Reading.token]

/-- A currency is read from the characters that it takes. -/
theorem currencyAfter?_take {extra : Nat} {unit : Currency}
    (is : currencyAfter? cs = some (extra, unit))
    : 3 ≤ extra ∧ currencyAfter? (cs.take extra) = some (extra, unit) := by
  unfold currencyAfter? at is
  dsimp only at is
  split at is
  case isFalse => cases is
  case isTrue =>
    obtain ⟨_, found, same⟩ := Option.map_eq_some_iff.mp is
    cases same
    refine ⟨Nat.le_add_left .., ?_⟩
    rw [currencyAfter?, takeWhile_take (Nat.le_add_right ..), List.drop_take,
      Nat.add_sub_cancel_left, List.drop_take, List.take_take]
    simp only [Nat.sub_self, List.take_zero, atBoundary, if_true, Nat.min_self, found,
      Option.map_some]

end Dates

-----------------------------------------------------------------------------------------
-- Numbers on their own
-----------------------------------------------------------------------------------------

section Numbers

variable {cs : List Char} {n : Nat}

theorem atBoundary_take (some : 1 ≤ n) : atBoundary (cs.take n) = atBoundary cs := by
  obtain ⟨n, rfl⟩ := Nat.exists_eq_add_of_le' some
  cases cs <;> rfl

/-- Two characters decide what follows a number, as the second one tells whether a word goes on. -/
theorem readSuffixed_take (two : 2 ≤ n) (amount : α) (width : Nat) (plain : Reading α)
    : readSuffixed amount width plain (cs.take n) = readSuffixed amount width plain cs := by
  obtain ⟨n, rfl⟩ := Nat.exists_eq_add_of_le' two
  cases cs with
  | nil => rfl
  | cons c cs =>
      by_cases percent : c = '%'
      case pos =>
        subst percent
        rfl
      case neg =>
        simp only [List.take_succ_cons, readSuffixed, atBoundary_take (Nat.le_add_left 1 n)]

theorem magnitude?_take (two : 2 ≤ n) : magnitude? (cs.take n) = magnitude? cs := by
  obtain ⟨n, rfl⟩ := Nat.exists_eq_add_of_le' two
  cases cs with
  | nil => rfl
  | cons c cs =>
      rw [List.take_succ_cons, magnitude?, magnitude?, atBoundary_take (Nat.le_add_left 1 n)]

/-- An amount of the given width, with the currency behind it. -/
def readPriced (scaled : α) (width : Nat) (letter : Option Magnitude) (cs : List Char)
    : Reading α :=
  match currencyAfter? (cs.drop (width + 1)) with
  | some (extra, currency) =>
      .token (width + 1 + extra) (priced_pos width extra) (.currency scaled currency letter)
  | none => .token (width + 1) width.succ_pos (.number scaled)

/-- An amount takes a currency or nothing behind it, and is read from the characters it takes. -/
theorem readPriced_take (cs : List Char) (scaled : α) (width : Nat) (letter : Option Magnitude)
    : ((readPriced scaled width letter cs).width = width + 1
        ∨ width + 3 ≤ (readPriced scaled width letter cs).width)
      ∧ readPriced scaled width letter (cs.take (readPriced scaled width letter cs).width)
        = readPriced scaled width letter cs := by
  cases found : currencyAfter? (cs.drop (width + 1)) with
  | none =>
      have is : readPriced scaled width letter cs
          = .token (width + 1) width.succ_pos (.number scaled) := by
        rw [readPriced, found]
      have ended : currencyAfter? ((cs.take (width + 1)).drop (width + 1)) = none := by
        rw [List.drop_take, Nat.sub_self, List.take_zero]
        rfl
      rw [is]
      refine ⟨Or.inl rfl, ?_⟩
      rw [Reading.token, readPriced, ended]
      rfl
  | some priced =>
      obtain ⟨extra, unit⟩ := priced
      have is : readPriced scaled width letter cs
          = .token (width + 1 + extra) (priced_pos width extra) (.currency scaled unit letter) := by
        rw [readPriced, found]
      obtain ⟨three, alone⟩ := currencyAfter?_take found
      have behind : currencyAfter? ((cs.take (width + 1 + extra)).drop (width + 1))
          = some (extra, unit) := by
        rw [List.drop_take, Nat.add_sub_cancel_left, alone]
      rw [is]
      refine ⟨Or.inr ?_, ?_⟩
      · change width + 3 ≤ width + 1 + extra
        omega
      · rw [Reading.token, readPriced, behind]
        rfl

/-- What follows a number makes a percentage or a duration of it with its first character, or it
does not matter.
-/
theorem readSuffixed_cases (amount : α) (width : Nat) (cs : List Char)
    : (∃ r : Reading α, r.width = width + 2 ∧ ∀ plain, readSuffixed amount width plain cs = r
          ∧ readSuffixed amount width plain (cs.take 1) = r)
      ∨ ∀ plain, readSuffixed amount width plain cs = plain := by
  cases cs with
  | nil => exact Or.inr fun _ => rfl
  | cons c cs =>
      by_cases percent : c = '%'
      case pos =>
        subst percent
        exact Or.inl ⟨_, rfl, fun _ => ⟨rfl, rfl⟩⟩
      case neg =>
        cases letter : TimeUnit.ofLetter? c with
        | none => exact Or.inr fun _ => by simp only [readSuffixed, letter]
        | some unit =>
            by_cases boundary : atBoundary cs = true
            case pos =>
              refine Or.inl
                ⟨.token (width + 2) (suffixed_pos width) (.duration ⟨amount, unit⟩), rfl,
                  fun _ => ⟨?_, ?_⟩⟩
              · simp only [readSuffixed, letter, boundary, if_true]
              · simp only [List.take_succ_cons, List.take_zero, readSuffixed, letter, atBoundary,
                  if_true]
            case neg =>
              exact Or.inr fun _ => by
                simp only [readSuffixed, letter, boundary, Bool.false_eq_true, if_false]

/-- The letter of a magnitude is one without what follows it, and makes nothing else of a number. -/
theorem magnitude?_alone {letter : Option Magnitude} (is : magnitude? cs = letter) {one : Nat}
    (width_letter : one = letter.elim 0 fun _ => 1) (amount : α) (width : Nat) (plain : Reading α)
    : magnitude? (cs.take one) = letter
      ∧ readSuffixed amount width plain (cs.take one) = plain := by
  subst width_letter
  cases letter with
  | none => exact ⟨rfl, rfl⟩
  | some m =>
      cases cs with
      | nil => cases is
      | cons c cs =>
          rw [magnitude?] at is
          split at is
          case isFalse => cases is
          case isTrue =>
            refine ⟨is, ?_⟩
            unfold Magnitude.ofLetter? at is
            split at is
            case h_5 => cases is
            all_goals rfl

variable [Scalar α]

/-- An amount is as wide as its number and the letter of its magnitude, with a currency behind it.
-/
theorem readAmount_eq (amount : α) (width : Nat) (letter : Option Magnitude)
    : ∃ scaled : α, ∀ us, readAmount amount width letter us
        = readPriced scaled (width + (letter.elim 0 fun _ => 1)) letter us := by
  cases letter with
  | none => exact ⟨amount, fun _ => rfl⟩
  | some m => exact ⟨amount * m.factor, fun _ => rfl⟩

/-- A number of the given width, with what belongs to it. -/
def readCounted (amount : α) (width : Nat) (cs : List Char) : Reading α :=
  let rest := cs.drop (width + 1)
  readSuffixed amount width (readAmount amount width (magnitude? rest) cs) rest

/-- What belongs to a number is read from the characters that it takes. -/
theorem readCounted_take (cs : List Char) (amount : α) (width : Nat)
    : width + 1 ≤ (readCounted amount width cs).width
      ∧ readCounted amount width (cs.take (readCounted amount width cs).width)
        = readCounted amount width cs := by
  have behind (n : Nat)
      : (cs.take n).drop (width + 1) = (cs.drop (width + 1)).take (n - (width + 1)) :=
    List.drop_take
  rcases readSuffixed_cases amount width (cs.drop (width + 1)) with ⟨r, taken, same⟩ | kept
  case inl =>
    have whole : readCounted amount width cs = r := (same _).1
    rw [whole, taken]
    refine ⟨by omega, ?_⟩
    simp only [readCounted, behind, show width + 2 - (width + 1) = 1 by omega, (same _).2]
  case inr =>
    generalize isLetter : magnitude? (cs.drop (width + 1)) = letter
    obtain ⟨scaled, priced⟩ := readAmount_eq amount width letter
    have whole : readCounted amount width cs
        = readPriced scaled (width + (letter.elim 0 fun _ => 1)) letter cs := by
      rw [readCounted, isLetter, ← priced]
      exact kept _
    obtain ⟨wide, alone⟩ := readPriced_take cs scaled
      (width + (letter.elim 0 fun _ => 1)) letter
    rw [whole]
    refine ⟨by omega, Eq.trans ?_ alone⟩
    generalize (readPriced scaled (width + (letter.elim 0 fun _ => 1)) letter cs).width = n at wide
    -- neither more nor less belongs to the number in the characters that are taken
    have settled : magnitude? ((cs.drop (width + 1)).take (n - (width + 1))) = letter
        ∧ ∀ plain, readSuffixed amount width plain ((cs.drop (width + 1)).take (n - (width + 1)))
          = plain := by
      rcases wide with same | enough
      case inl =>
        have one : n - (width + 1) = letter.elim 0 fun _ => 1 := by omega
        have found := magnitude?_alone isLetter one amount width
        exact ⟨(found (.skip 1 Nat.one_pos)).1, fun plain => (found plain).2⟩
      case inr =>
        have two : 2 ≤ n - (width + 1) := by omega
        exact ⟨(magnitude?_take two).trans isLetter, fun plain =>
          (readSuffixed_take two amount width plain).trans (kept plain)⟩
    rw [readCounted, behind, settled.1, ← priced]
    exact settled.2 _

/-- A number is read from the characters that it takes. -/
theorem readNumber_take (cs : List Char)
    : readNumber (cs.take (readNumber cs : Reading α).width) = (readNumber cs : Reading α) := by
  obtain ⟨inside, alone⟩ := readCounted_take cs ((writtenNumber cs).value : α)
    ((writtenNumber cs).width - 1)
  have is (us : List Char) : (readNumber us : Reading α)
      = readCounted (writtenNumber us).value ((writtenNumber us).width - 1) us :=
    readNumber_eq us
  rw [is cs]
  generalize (readCounted ((writtenNumber cs).value : α) ((writtenNumber cs).width - 1) cs).width
    = n at inside alone
  have fits : (writtenNumber cs).width ≤ n := by omega
  obtain ⟨width, value⟩ := writtenNumber_take (α := α) fits
  rw [is, width, value, alone]

/-- What starts with a digit is read from the characters that it takes. -/
theorem readDigits_take (cs : List Char)
    : readDigits (cs.take (readDigits cs : Reading α).width) = (readDigits cs : Reading α) := by
  cases dated : writtenDate? cs with
  | some date =>
      have alone := writtenDate?_take dated
      have width : (readDigits cs : Reading α).width = date.width := by
        rw [readDigits, dated]
        dsimp only
        split <;> rfl
      rw [width]
      simp only [readDigits, dated, alone, List.take_take, Nat.min_self]
  | none =>
      have whole : (readDigits cs : Reading α) = readNumber cs := by
        rw [readDigits, dated]
      have alone := readNumber_take (α := α) cs
      rw [whole]
      have undated : writtenDate? (cs.take (readNumber cs : Reading α).width) = none := by
        rw [Option.eq_none_iff_forall_ne_some]
        intro date is
        obtain ⟨year, rest, same, four, digits⟩ := writtenDate?_year is
        have number := readNumber_year (α := α) four digits rest
        rw [← same, alone] at number
        have length := congrArg List.length same
        rw [number, List.length_take, List.length_append, List.length_cons] at length
        omega
      rw [readDigits, undated, alone]

end Numbers

-----------------------------------------------------------------------------------------
-- Texts between quotes, signs and names on their own
-----------------------------------------------------------------------------------------

/-- Nothing comes behind, or a line end does. -/
def Ended (rest : List Char) : Prop :=
  rest = [] ∨ ∃ more, rest = '\n' :: more

section Marks

variable {cs rest : List Char}

/-- What is the same with a line end behind it is the same at an end. -/
theorem Ended.same {β : Type} (ended : Ended rest) {f : List Char → β}
    (lineEnd : ∀ more, f (cs ++ '\n' :: more) = f cs)
    : f (cs ++ rest) = f cs := by
  rcases ended with rfl | ⟨more, rfl⟩
  · rw [List.append_nil]
  · exact lineEnd more

/-- A text that is closed is closed by its own quote, whatever comes behind it. -/
theorem quotedText_closed {chars : List Char} {width : Nat}
    (closed : quotedText cs = (chars, width, true)) (rest : List Char)
    : quotedText (cs.take width ++ rest) = (chars, width, true) := by
  fun_induction quotedText cs generalizing chars width with
  | case1 | case3 => cases closed
  | case2 more =>
      cases closed
      rfl
  | case4 c more chars' width' closed' is ih =>
      cases closed
      simp only [List.take_succ_cons, List.cons_append, quotedText, ih is]
  | case5 c more quote lineEnd escape chars' width' closed' is ih =>
      cases closed
      have plain : c ≠ '\\' := by
        rintro rfl
        cases more with
        | nil => cases is
        | cons d more => exact escape d more rfl rfl
      rw [List.take_succ_cons, List.cons_append,
        quotedText.eq_5 _ _ quote lineEnd fun _ _ same => absurd same plain, ih is]

theorem startsWith_take {word : List Char} {n : Nat} (is : startsWith word (cs.take n) = true)
    : startsWith word cs = true := by
  rw [startsWith, List.isPrefixOf_iff_prefix] at is ⊢
  exact is.trans (List.take_prefix n cs)

/-- The characters of a sign are read as that sign where it ends. -/
theorem find_signs_alone {entry : List Char × Sign} (member : entry ∈ signs) (ended : Ended rest)
    : signs.find? (fun other => startsWith other.1 (entry.1 ++ rest)) = some entry := by
  rw [ended.same (f := fun us => signs.find? fun other => startsWith other.1 us)
    (find_signs_lineEnd entry.1)]
  have alone : ∀ entry ∈ signs, signs.find? (fun other => startsWith other.1 entry.1)
      = some entry := by
    decide
  exact alone entry member

/-- A sign that is found has the first character and what comes behind it. -/
theorem find_signs_parts {c : Char} {cs chars : List Char} {sign : Sign}
    (found : signs.find? (fun entry => startsWith entry.1 (c :: cs)) = some (chars, sign))
    : ∃ name more, chars = c :: name ∧ cs = name ++ more := by
  have some : ∀ entry ∈ signs, entry.1 ≠ [] := by decide
  obtain ⟨d, name, is⟩ := List.exists_cons_of_ne_nil (some _ (List.mem_of_find?_eq_some found))
  replace is : chars = d :: name := is
  have starts : startsWith chars (c :: cs) = true :=
    List.find?_some (p := fun entry : List Char × Sign => startsWith entry.1 (c :: cs)) found
  obtain ⟨more, same⟩ := List.isPrefixOf_iff_prefix.mp starts
  rw [is] at same
  obtain ⟨rfl, tail⟩ := List.cons.inj same
  exact ⟨name, more, is, tail.symm⟩

end Marks

section Alone

variable [Scalar α] {c : Char} {cs rest : List Char}

/-- A token of its first character and as many more. -/
def tokenWith (more : Nat) (kind : TokenKind α) : Reading α :=
  .token (more + 1) (Nat.succ_pos more) kind

/-- What is no blank and no comment is read by what it starts with. -/
def readMark (c : Char) (cs : List Char) : Reading α :=
  if c.isDigit then readDigits (c :: cs)
  else if c == '"' then
    let (chars, width, closed) := quotedText cs
    ⟨width + 1, Nat.succ_pos _, some (.text (String.ofList chars)),
      if closed then none else some .unterminatedText⟩
  else if isNameStart c then
    tokenWith (cs.takeWhile isNameChar).length .word
  else
    match signs.find? fun (chars, _) => startsWith chars (c :: cs) with
    | some (chars, sign) => tokenWith (chars.length - 1) (.sign sign)
    | none => ⟨1, Nat.one_pos, none, some (.unexpectedCharacter c)⟩

/-- No blank and no comment starts here. -/
def IsMark (c : Char) (cs : List Char) : Prop :=
  isBlank c = false ∧ startsWith ['/', '/'] (c :: cs) = false
    ∧ startsWith ['/', '*'] (c :: cs) = false

theorem read_of_isMark (mark : IsMark c cs) : (read c cs : Reading α) = readMark c cs := by
  obtain ⟨blank, line, block⟩ := mark
  unfold read
  simp only [blank, line, block, Bool.false_eq_true, if_false]
  rfl

theorem isMark_of_kind {kind : TokenKind α} (is : (read c cs : Reading α).kind = some kind)
    : IsMark c cs := by
  unfold read at is
  split at is
  case isTrue => cases is
  case isFalse blank =>
    split at is
    case isTrue => cases is
    case isFalse line =>
      split at is
      case isTrue => split at is <;> cases is
      case isFalse block =>
        exact ⟨Bool.eq_false_iff.mpr blank, Bool.eq_false_iff.mpr line, Bool.eq_false_iff.mpr block⟩

/-- Neither shows what is left of what comes behind. -/
theorem IsMark.alone (mark : IsMark c cs) (n : Nat) (ended : Ended rest)
    : IsMark c (cs.take n ++ rest) := by
  obtain ⟨blank, line, block⟩ := mark
  have comment {d : Char} (lineless : '\n' ∉ ['/', d])
      (none : startsWith ['/', d] (c :: cs) = false)
      : startsWith ['/', d] (c :: (cs.take n ++ rest)) = false := by
    rw [← List.cons_append, ended.same (f := startsWith ['/', d])
      fun more => startsWith_lineEnd (c :: cs.take n) more lineless, ← List.take_succ_cons]
    exact Bool.eq_false_iff.mpr fun is => Bool.eq_false_iff.mp none (startsWith_take is)
  exact ⟨blank, comment (by decide) line, comment (by decide) block⟩

/-- A token at which nothing is found is read from its own characters as it is read with what comes
behind them, at the end of the text or of a line.
-/
theorem read_alone {kind : TokenKind α} (is : (read c cs : Reading α).kind = some kind)
    (clean : (read c cs : Reading α).finding = none) (ended : Ended rest)
    : (read c (cs.take ((read c cs : Reading α).width - 1) ++ rest) : Reading α) = read c cs := by
  have mark := isMark_of_kind is
  rw [read_of_isMark (mark.alone _ ended)]
  rw [read_of_isMark mark] at is clean ⊢
  by_cases digit : c.isDigit = true
  case pos =>
    have taken : c :: cs.take ((readDigits (c :: cs) : Reading α).width - 1)
        = (c :: cs).take (readDigits (c :: cs) : Reading α).width := by
      rw [← List.take_succ_cons, Nat.sub_add_cancel (readDigits (c :: cs) : Reading α).width_pos]
    have behind : (readDigits (c :: cs.take ((readDigits (c :: cs) : Reading α).width - 1) ++ rest)
        : Reading α) = readDigits (c :: cs.take ((readDigits (c :: cs) : Reading α).width - 1)) :=
      ended.same fun more => readDigits_lineEnd _ more (List.cons_ne_nil _ _)
    simp only [readMark, digit, if_true]
    rw [← List.cons_append, behind, taken]
    exact readDigits_take (c :: cs)
  case neg =>
    by_cases quote : (c == '"') = true
    case pos =>
      obtain ⟨⟨chars, width, closed⟩, found⟩ : ∃ quoted, quotedText cs = quoted := ⟨_, rfl⟩
      simp only [readMark, digit, quote, found, Bool.false_eq_true, if_false, if_true] at clean ⊢
      cases closed with
      | false => cases clean
      | true =>
        simp only [Nat.add_sub_cancel, quotedText_closed found rest]
    case neg =>
      by_cases name : isNameStart c = true
      case pos =>
        have whole : (cs.take (cs.takeWhile isNameChar).length ++ rest).takeWhile isNameChar
            = cs.takeWhile isNameChar :=
          (ended.same fun more => takeWhile_lineEnd _ more (by decide)).trans
            (takeWhile_take (Nat.le_refl _))
        simp only [readMark, digit, quote, name, Bool.false_eq_true, if_false, if_true,
          tokenWith, Reading.token, Nat.add_sub_cancel, whole]
      case neg =>
        simp only [readMark, digit, quote, name, Bool.false_eq_true, if_false] at is ⊢
        cases found : signs.find? (fun entry => startsWith entry.1 (c :: cs)) with
        | none =>
            rw [found] at is
            cases is
        | some entry =>
            obtain ⟨chars, sign⟩ := entry
            obtain ⟨name, more, rfl, rfl⟩ := find_signs_parts found
            have alone := find_signs_alone (List.mem_of_find?_eq_some found) ended
            simp only [tokenWith, Reading.token, List.length_cons, Nat.add_sub_cancel,
              List.take_left]
            rw [← List.cons_append, alone]
            rfl

end Alone

-----------------------------------------------------------------------------------------
-- Tokens on lines of their own
-----------------------------------------------------------------------------------------

variable [Scalar α]

/-- What the token is and how it is written, without where it stands. -/
def content (t : Token α) : TokenKind α × String :=
  (t.kind, t.text)

/-- Where nothing or another line comes behind, the text of the token is cut into this token. -/
def StandsAlone (t : Token α) : Prop :=
  ∀ span rest, Ended rest → Cuts span t.text.toList rest [{ t with span }]

/-- A piece that is a token at which nothing is found stands alone. By induction along the text. -/
theorem standsAlone_of_piece {span : Span} {cs : List Char} {piece : Piece α} {t : Token α}
    (member : piece ∈ (pieces span cs : List (Piece α))) (is : piece.token? = some t)
    (clean : piece.finding = none)
    : t.StandsAlone := by
  fun_induction pieces (α := α) span cs with
  | case1 => cases member
  | case2 span c cs reading chars ih =>
      rcases List.mem_cons.mp member with rfl | later
      case inr => exact ih later
      case inl =>
        obtain ⟨kind, isKind, rfl⟩ := Option.map_eq_some_iff.mp is
        intro place rest ended
        have alone := read_alone isKind clean ended
        have inside := read_width (α := α) c cs
        have some := (read c cs : Reading α).width_pos
        have taken : chars = c :: cs.take ((read c cs : Reading α).width - 1) := by
          rw [← List.take_succ_cons, Nat.sub_add_cancel some]
        dsimp only
        rw [taken, String.toList_ofList]
        refine cuts_token ?_ (by rw [alone]; exact isKind) (by rw [alone]; exact clean)
        rw [alone, List.length_take]
        omega

/-- A line end makes no token. -/
theorem cuts_lineEnd (span : Span) (rest : List Char)
    : Cuts span ['\n'] rest ([] : List (Token α)) := by
  refine ⟨[⟨span, ['\n'], none, none⟩], ?_, rfl, rfl⟩
  rw [List.cons_append, pieces]
  rfl

/-- Tokens that stand alone are read from lines of their own. By induction on the tokens. -/
theorem cuts_lines {ts : List (Token α)} (alone : ∀ t ∈ ts, t.StandsAlone) (span : Span)
    : ∃ us : List (Token α),
        Cuts span (['\n'].intercalate (ts.map (·.text.toList))) [] us
          ∧ us.map content = ts.map content := by
  induction ts generalizing span with
  | nil => exact ⟨[], cuts_nil, rfl⟩
  | cons t ts ih =>
      rw [List.forall_mem_cons] at alone
      obtain ⟨first, later⟩ := alone
      cases ts with
      | nil =>
          refine ⟨[{ t with span }], ?_, rfl⟩
          simpa using first span [] (Or.inl rfl)
      | cons u ts =>
          obtain ⟨us, cut, same⟩ := ih later ((span.past t.text.toList).past ['\n'])
          refine ⟨{ t with span } :: us, ?_, congrArg (t.content :: ·) same⟩
          rw [List.map_cons, List.map_cons, List.intercalate_cons_cons, List.append_assoc]
          have ended := (cuts_lineEnd (span.past t.text.toList) _).append cut
          exact (first span _ (Or.inr ⟨_, List.append_nil _⟩)).append ended

end Prognosis.Token

namespace Prognosis.TokenText

variable {α : Type} [Scalar α]

/-- The text with every token on its own line and nothing else. -/
def relaid (text : TokenText α) : String :=
  "\n".intercalate (text.tokens.map (·.text))

/-- The tokens of a text that is read without findings stand alone. -/
theorem standsAlone_of_scan {source : String} (clean : (scan source : TokenText α).findings = [])
    {t : Token α} (member : t ∈ (scan source : TokenText α).tokens)
    : t.StandsAlone := by
  obtain ⟨piece, within, is⟩ := List.mem_filterMap.mp member
  refine Token.standsAlone_of_piece within is ?_
  have none := List.filterMap_eq_nil_iff.mp clean piece within
  exact Option.map_eq_none_iff.mp none

/-- The tokens of a text that is read without findings, each on its own line, are read as the same
tokens again, and without findings.
-/
theorem scan_relaid {source : String} (clean : (scan source : TokenText α).findings = [])
    : (scan (scan source : TokenText α).relaid : TokenText α).findings = []
      ∧ (scan (scan source : TokenText α).relaid : TokenText α).tokens.map Token.content
        = (scan source : TokenText α).tokens.map Token.content := by
  obtain ⟨us, cut, same⟩ := Token.cuts_lines (fun _ => standsAlone_of_scan clean) ⟨1, 1⟩
  have chars : (scan source : TokenText α).relaid.toList
      = ['\n'].intercalate ((scan source : TokenText α).tokens.map (·.text.toList)) := by
    rw [relaid, String.toList_intercalate, List.map_map]
    rfl
  rw [← chars] at cut
  obtain ⟨tokens, findings⟩ := cut.scan
  exact ⟨findings, by rw [tokens, same]⟩

end Prognosis.TokenText
