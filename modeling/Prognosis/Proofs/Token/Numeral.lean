import Prognosis.Proofs.Token.Cutting

/-! Numbers in texts that are cut into tokens: a numeral is read whole where nothing comes after it
that it could go on with.
-/

namespace Prognosis.Token

open Text

variable {α : Type} [Scalar α]

-----------------------------------------------------------------------------------------
-- Numerals
-----------------------------------------------------------------------------------------

namespace WrittenNumber

/-- The point and the digits after it, where there are any. -/
def fractionChars (n : WrittenNumber) : List Char :=
  if n.fraction = [] then [] else '.' :: n.fraction

/-- The exponent with its sign, where there is one. -/
def exponentChars (n : WrittenNumber) : List Char :=
  if n.exponent = [] then []
  else 'e' :: (if n.exponentNegative then '-' else '+') :: n.exponent

/-- The number written out. -/
def chars (n : WrittenNumber) : List Char :=
  n.whole ++ (n.fractionChars ++ n.exponentChars)

/-- The parts of the number are digits, and it is as wide as it is when written out. -/
structure IsNumeral (n : WrittenNumber) : Prop where
  whole_ne_nil : n.whole ≠ []
  whole : ∀ c ∈ n.whole, c.isDigit = true
  fraction : ∀ c ∈ n.fraction, c.isDigit = true
  exponent : ∀ c ∈ n.exponent, c.isDigit = true
  positive : n.exponent = [] → n.exponentNegative = false
  width : n.width = n.chars.length

end WrittenNumber

/-- No number goes on with what comes next: a space, a closing parenthesis, a comma, a percent sign,
or the end of the text.
-/
def Quits (rest : List Char) : Prop :=
  ∀ c, rest.head? = some c → c ∈ [' ', ')', ',', '%']

variable {span : Span} {ds rest : List Char} {n : WrittenNumber}

theorem isDecimalDigit_of_isDigit {c : Char} (digit : c.isDigit = true)
    : isDecimalDigit c = true := by
  simp only [Char.isDigit, Bool.and_eq_true, decide_eq_true_eq] at digit
  have low : 48 ≤ c.toNat := digit.1
  have high : c.toNat ≤ 57 := digit.2
  rw [isDecimalDigit, digitValue?, Option.isSome_map, zeroDigits, List.find?_cons]
  simp [low, high]

theorem leadingDigits_append (digits : ∀ c ∈ ds, c.isDigit = true)
    (stop : ∀ c, rest.head? = some c → isDecimalDigit c = false)
    : leadingDigits (ds ++ rest) = ds := by
  rw [leadingDigits, List.takeWhile_append_of_pos fun c member =>
    isDecimalDigit_of_isDigit (digits c member)]
  cases rest with
  | nil => simp
  | cons c more => simp [stop c rfl]

theorem isDecimalDigit_eq_false {c : Char} (other : c ∈ ['.', 'e', ' ', ')', ',', '%'])
    : isDecimalDigit c = false := by
  simp only [List.mem_cons, List.not_mem_nil, or_false] at other
  rcases other with rfl | rfl | rfl | rfl | rfl | rfl <;> decide

theorem Quits.not_isDecimalDigit (quits : Quits rest) {c : Char} (head : rest.head? = some c)
    : isDecimalDigit c = false :=
  isDecimalDigit_eq_false (List.mem_cons_of_mem _ (List.mem_cons_of_mem _ (quits c head)))

/-- Digits after a point. -/
def fractionDigits : List Char → List Char
  | '.' :: rest => leadingDigits rest
  | _ => []

/-- The exponent at the start of a text: whether it is negative, the width of what stands before its
digits, and the digits.
-/
def exponentDigits : List Char → Bool × Nat × List Char
  | e :: rest =>
      if e == 'e' || e == 'E' then
        match rest with
        | '-' :: more => (true, 2, leadingDigits more)
        | '+' :: more => (false, 2, leadingDigits more)
        | more => (false, 1, leadingDigits more)
      else (false, 0, [])
  | [] => (false, 0, [])

/-- A number is read part by part. -/
theorem writtenNumber_eq (cs : List Char)
    : writtenNumber cs
      = let afterWhole := cs.drop (leadingDigits cs).length
        let fraction := fractionDigits afterWhole
        let fractionWidth := if fraction.isEmpty then 0 else fraction.length + 1
        let exponent := exponentDigits (afterWhole.drop fractionWidth)
        ⟨leadingDigits cs, fraction, exponent.1, exponent.2.2,
          (leadingDigits cs).length + fractionWidth
            + if exponent.2.2.isEmpty then 0 else exponent.2.1 + exponent.2.2.length⟩ :=
  rfl

theorem fractionDigits_chars (numeral : n.IsNumeral)
    (stop : ∀ c, rest.head? = some c → isDecimalDigit c = false ∧ c ≠ '.')
    : fractionDigits (n.fractionChars ++ rest) = n.fraction := by
  by_cases none : n.fraction = []
  case pos =>
    rw [WrittenNumber.fractionChars, if_pos none, List.nil_append, none]
    unfold fractionDigits
    split
    case h_1 more => exact absurd rfl (stop '.' rfl).2
    case h_2 => rfl
  case neg =>
    rw [WrittenNumber.fractionChars, if_neg none]
    exact leadingDigits_append numeral.fraction fun c head => (stop c head).1

theorem exponentDigits_chars (numeral : n.IsNumeral) (quits : Quits rest)
    : exponentDigits (n.exponentChars ++ rest)
      = (n.exponentNegative, if n.exponent = [] then 0 else 2, n.exponent) := by
  have digits := leadingDigits_append numeral.exponent fun c => quits.not_isDecimalDigit (c := c)
  by_cases none : n.exponent = []
  case pos =>
    rw [WrittenNumber.exponentChars, if_pos none, List.nil_append, if_pos none, none,
      numeral.positive none]
    cases rest with
    | nil => rfl
    | cons c more =>
        have is := quits c rfl
        simp only [List.mem_cons, List.not_mem_nil, or_false] at is
        rcases is with rfl | rfl | rfl | rfl <;> rfl
  case neg =>
    rw [WrittenNumber.exponentChars, if_neg none, if_neg none]
    cases n.exponentNegative with
    | true => simp [exponentDigits, digits]
    | false => simp [exponentDigits, digits]

theorem head_exponentChars (quits : Quits rest) {c : Char}
    (head : (n.exponentChars ++ rest).head? = some c)
    : c ∈ ['e', ' ', ')', ',', '%'] := by
  unfold WrittenNumber.exponentChars at head
  split at head
  case isTrue => exact List.mem_cons_of_mem _ (quits c head)
  case isFalse =>
    cases head
    exact List.mem_cons_self

theorem head_fractionChars (quits : Quits rest) {c : Char}
    (head : (n.fractionChars ++ (n.exponentChars ++ rest)).head? = some c)
    : c ∈ ['.', 'e', ' ', ')', ',', '%'] := by
  unfold WrittenNumber.fractionChars at head
  split at head
  case isTrue => exact List.mem_cons_of_mem _ (head_exponentChars quits head)
  case isFalse =>
    cases head
    exact List.mem_cons_self

theorem leadingDigits_chars (numeral : n.IsNumeral) (quits : Quits rest)
    : leadingDigits (n.chars ++ rest) = n.whole
      ∧ (n.chars ++ rest).drop n.whole.length
        = n.fractionChars ++ (n.exponentChars ++ rest) := by
  have chars : n.chars ++ rest = n.whole ++ (n.fractionChars ++ (n.exponentChars ++ rest)) := by
    rw [WrittenNumber.chars, List.append_assoc, List.append_assoc]
  rw [chars, List.drop_left]
  exact ⟨leadingDigits_append numeral.whole fun c head =>
    isDecimalDigit_eq_false (head_fractionChars quits head), rfl⟩

/-- A numeral is read from its characters. -/
theorem writtenNumber_chars (numeral : n.IsNumeral) (quits : Quits rest)
    : writtenNumber (n.chars ++ rest) = n := by
  obtain ⟨whole, afterWhole⟩ := leadingDigits_chars numeral quits
  have fraction : fractionDigits (n.fractionChars ++ (n.exponentChars ++ rest)) = n.fraction := by
    refine fractionDigits_chars numeral fun c head => ?_
    have other := head_exponentChars quits head
    refine ⟨isDecimalDigit_eq_false (List.mem_cons_of_mem _ other), ?_⟩
    rintro rfl
    exact absurd other (by decide)
  have fractionWidth : (if n.fraction.isEmpty then 0 else n.fraction.length + 1)
      = n.fractionChars.length := by
    unfold WrittenNumber.fractionChars
    by_cases none : n.fraction = [] <;> simp [none]
  have exponentWidth
      : (if n.exponent.isEmpty then 0
          else (if n.exponent = [] then 0 else 2) + n.exponent.length)
        = n.exponentChars.length := by
    unfold WrittenNumber.exponentChars
    by_cases none : n.exponent = []
    case pos => simp [none]
    case neg =>
      simp only [List.isEmpty_iff, if_neg none, List.length_cons]
      omega
  have width : n.width = n.whole.length + n.fractionChars.length + n.exponentChars.length := by
    rw [numeral.width, WrittenNumber.chars, List.length_append, List.length_append,
      Nat.add_assoc]
  rw [writtenNumber_eq, whole, afterWhole]
  dsimp only
  rw [fraction, fractionWidth, List.drop_left, exponentDigits_chars numeral quits]
  dsimp only
  rw [exponentWidth, ← width]

/-- No date is read from a numeral: a hyphen comes only after its exponent has begun. -/
theorem writtenDate?_chars (numeral : n.IsNumeral) (quits : Quits rest)
    : writtenDate? (n.chars ++ rest) = none := by
  obtain ⟨whole, afterWhole⟩ := leadingDigits_chars numeral quits
  unfold writtenDate?
  dsimp only
  split
  case isFalse => rfl
  case isTrue year =>
    simp only [Bool.and_eq_true, beq_iff_eq, List.all_eq_true] at year
    obtain ⟨length, digits⟩ := year
    suffices none : hyphenPair? ((n.chars ++ rest).drop 4) = none by rw [none]
    unfold hyphenPair?
    split
    case h_2 => rfl
    case h_1 a b more hyphen =>
      have parts := List.take_append_drop 4 (n.chars ++ rest)
      rw [hyphen] at parts
      generalize (n.chars ++ rest).take 4 = year at length digits parts
      have digitsYear : leadingDigits (year ++ '-' :: a :: b :: more) = year := by
        rw [leadingDigits, List.takeWhile_append_of_pos digits]
        exact List.append_nil year
      rw [parts, whole] at digitsYear
      rw [digitsYear, length, hyphen] at afterWhole
      have head : (n.fractionChars ++ (n.exponentChars ++ rest)).head? = some '-' := by
        rw [← afterWhole]
        rfl
      exact absurd (head_fractionChars quits head) (by decide)

theorem ofCode?_eq_none {c : Char} {more : List Char} (other : c ∉ ['E', 'U', 'G', 'C', 'J'])
    : Currency.ofCode? (String.ofList (c :: more)) = none := by
  rw [Currency.ofCode?, List.find?_eq_none]
  intro unit _ same
  have chars := congrArg String.toList (eq_of_beq same)
  rw [String.toList_ofList] at chars
  cases unit <;> cases chars <;> exact other (by decide)

/-- No currency is read where none of its letters comes after the spaces. -/
theorem currencyAfter?_eq_none (blanks : List Char) {c : Char}
    (spaces : ∀ d ∈ blanks, d = ' ') (other : c ∉ [' ', '\t', 'E', 'U', 'G', 'C', 'J'])
    : currencyAfter? (blanks ++ c :: rest) = none := by
  simp only [List.mem_cons, not_or] at other
  obtain ⟨space, tab, noCode⟩ := other
  have taken : (blanks ++ c :: rest).takeWhile (fun c => c == ' ' || c == '\t') = blanks := by
    rw [List.takeWhile_append_of_pos fun d member => by simp [spaces d member]]
    simp [space, tab]
  unfold currencyAfter?
  dsimp only
  rw [taken, List.drop_left, List.take_succ_cons, ofCode?_eq_none (by simpa using noCode)]
  exact ite_self _

-----------------------------------------------------------------------------------------
-- Numerals in texts
-----------------------------------------------------------------------------------------

/-- Numbers are read where a numeral starts. -/
theorem read_chars (numeral : n.IsNumeral) (quits : Quits rest)
    : ∃ c cs, n.chars = c :: cs
        ∧ (read c (cs ++ rest) : Reading α) = readNumber (n.chars ++ rest) := by
  obtain ⟨c, digits, whole⟩ := List.exists_cons_of_ne_nil numeral.whole_ne_nil
  have digit : c.isDigit = true := numeral.whole c (whole ▸ List.mem_cons_self)
  have chars : n.chars = c :: (digits ++ (n.fractionChars ++ n.exponentChars)) := by
    rw [WrittenNumber.chars, whole, List.cons_append]
  refine ⟨c, _, chars, ?_⟩
  have range : 48 ≤ c.toNat ∧ c.toNat ≤ 57 := by
    rw [Char.isDigit, Bool.and_eq_true, decide_eq_true_eq, decide_eq_true_eq] at digit
    exact digit
  have blank : isBlank c = false := by
    simp only [isBlank, inRanges, blankRanges, List.any_cons, List.any_nil, Bool.or_eq_false_iff,
      Bool.and_eq_false_iff, decide_eq_false_iff_not]
    and_intros
    all_goals first | trivial | omega
  have slash : ('/' == c) = false := by
    rw [beq_eq_false_iff_ne]
    rintro rfl
    exact absurd range.1 (by decide)
  have comment (d : Char) (cs : List Char) : startsWith ['/', d] (c :: cs) = false := by
    rw [startsWith, List.isPrefixOf_cons_cons, slash, Bool.false_and]
  have date := writtenDate?_chars numeral quits
  rw [chars, List.cons_append] at date ⊢
  unfold read readDigits
  simp only [blank, comment, digit, date, Bool.false_eq_true, if_false, if_true]

theorem width_pos (numeral : n.IsNumeral) : n.width - 1 + 1 = n.chars.length := by
  have nonempty := List.length_pos_iff.mpr numeral.whole_ne_nil
  rw [numeral.width, WrittenNumber.chars, List.length_append]
  omega

/-- A numeral and what belongs to it, read as a token of their width. -/
theorem cuts_numeral {more : List Char} {kind : TokenKind α} {width : Nat} {pos : 0 < width}
    (numeral : n.IsNumeral) (quits : Quits (more ++ rest))
    (number : (readNumber (n.chars ++ (more ++ rest)) : Reading α) = .token width pos kind)
    (wide : width = n.chars.length + more.length)
    : Cuts span (n.chars ++ more) rest
        [(⟨kind, String.ofList (n.chars ++ more), span⟩ : Token α)] := by
  obtain ⟨c, cs, chars, read⟩ := read_chars (α := α) numeral quits
  rw [number, ← List.append_assoc] at read
  rw [chars] at wide ⊢
  rw [List.cons_append]
  refine cuts_token ?_ (by rw [read]; rfl) (by rw [read]; rfl)
  rw [read, List.length_append]
  rw [List.length_cons] at wide
  exact wide.trans (by omega)

/-- A numeral and a percent sign are a percentage. -/
theorem cuts_percentage (numeral : n.IsNumeral)
    : Cuts span (n.chars ++ ['%']) rest
        [(⟨.percentage n.value, String.ofList (n.chars ++ ['%']), span⟩ : Token α)] := by
  have quits : Quits (['%'] ++ rest) := by
    intro c head
    cases head
    decide
  have width := width_pos numeral
  have after : (n.chars ++ (['%'] ++ rest)).drop (n.width - 1 + 1) = '%' :: rest := by
    rw [width, List.drop_left]
    rfl
  have number : (readNumber (n.chars ++ (['%'] ++ rest)) : Reading α)
      = .token (n.width - 1 + 2) (Nat.succ_pos _) (.percentage n.value) := by
    unfold readNumber
    simp only [writtenNumber_chars numeral quits, after]
  exact cuts_numeral numeral quits number (by rw [List.length_singleton]; omega)

/-- Without a percent sign a numeral is an amount of money or a number. -/
theorem readNumber_chars (numeral : n.IsNumeral) (quits : Quits rest)
    (percent : rest.head? ≠ some '%')
    : (readNumber (n.chars ++ rest) : Reading α)
      = match currencyAfter? rest with
        | some (extra, currency) =>
            .token (n.width - 1 + 1 + extra) (Nat.add_pos_left (Nat.succ_pos _) extra)
              (.currency n.value currency none)
        | none => .token (n.width - 1 + 1) (Nat.succ_pos _) (.number n.value) := by
  have width := width_pos numeral
  have after : (n.chars ++ rest).drop (n.width - 1 + 1) = rest := by rw [width, List.drop_left]
  unfold readNumber
  cases rest with
  | nil =>
      have none : currencyAfter? [] = none := by rfl
      simp only [writtenNumber_chars numeral quits, after, none]
  | cons c more =>
      have plain : c ≠ '%' ∧ TimeUnit.ofLetter? c = none ∧ Magnitude.ofLetter? c = none := by
        have is := quits c rfl
        simp only [List.mem_cons, List.not_mem_nil, or_false] at is
        rcases is with rfl | rfl | rfl | rfl
        case inr.inr.inr => exact absurd rfl percent
        all_goals exact ⟨by decide, rfl, rfl⟩
      obtain ⟨sign, noTime, noMagnitude⟩ := plain
      simp only [writtenNumber_chars numeral quits, after, noMagnitude, ite_self]
      split
      case h_1 unit time =>
        rw [noTime] at time
        cases time
      case h_2 => rfl

/-- A numeral, a space and a currency are an amount of money. -/
theorem cuts_currency (numeral : n.IsNumeral) (unit : Currency)
    (boundary : atBoundary rest = true)
    : Cuts span (n.chars ++ ' ' :: unit.code.toList) rest
        [(⟨.currency n.value unit none, String.ofList (n.chars ++ ' ' :: unit.code.toList),
          span⟩ : Token α)] := by
  have quits : Quits (' ' :: unit.code.toList ++ rest) := by
    intro c head
    cases head
    decide
  have currency : currencyAfter? (' ' :: unit.code.toList ++ rest) = some (4, unit) := by
    cases unit <;> simp [currencyAfter?, Currency.code, boundary] <;> rfl
  have number := readNumber_chars (α := α) numeral quits nofun
  rw [currency] at number
  have code : unit.code.toList.length = 3 := by cases unit <;> rfl
  have width := width_pos numeral
  exact cuts_numeral numeral quits number (by rw [List.length_cons, code]; omega)

/-- A numeral is a number where neither a percent sign nor a currency comes after it. -/
theorem cuts_number (numeral : n.IsNumeral) (quits : Quits rest) (percent : rest.head? ≠ some '%')
    (currency : currencyAfter? rest = none)
    : Cuts span n.chars rest [(⟨.number n.value, String.ofList n.chars, span⟩ : Token α)] := by
  have number := readNumber_chars (α := α) numeral quits percent
  rw [currency] at number
  have cut : Cuts span (n.chars ++ []) rest
      [(⟨.number n.value, String.ofList (n.chars ++ []), span⟩ : Token α)] :=
    cuts_numeral numeral quits number (width_pos numeral)
  rwa [List.append_nil] at cut

-----------------------------------------------------------------------------------------
-- Numbers written out
-----------------------------------------------------------------------------------------

/-- The parts as a numeral of the width that they have when written out. -/
def WrittenNumber.ofParts (whole fraction : List Char) (negative : Bool) (exponent : List Char)
    : WrittenNumber :=
  { whole, fraction, exponentNegative := negative, exponent,
    width := (WrittenNumber.chars ⟨whole, fraction, negative, exponent, 0⟩).length }

open Decimal

theorem isNumeral_ofParts {whole fraction exponent : List Char} {negative : Bool}
    (nonempty : whole ≠ []) (wholeDigits : ∀ c ∈ whole, c.isDigit = true)
    (fractionDigits : ∀ c ∈ fraction, c.isDigit = true)
    (exponentDigits : ∀ c ∈ exponent, c.isDigit = true)
    (positive : exponent = [] → negative = false)
    : (WrittenNumber.ofParts whole fraction negative exponent).IsNumeral :=
  ⟨nonempty, wholeDigits, fractionDigits, exponentDigits, positive, rfl⟩

theorem isDigit_append {ds es : List Char} (digits : ∀ c ∈ ds, c.isDigit = true)
    (others : ∀ c ∈ es, c.isDigit = true)
    : ∀ c ∈ ds ++ es, c.isDigit = true := by
  intro c member
  rcases List.mem_append.mp member with first | second
  · exact digits c first
  · exact others c second

theorem isDigit_zeros (count : Nat) : ∀ c ∈ List.replicate count '0', c.isDigit = true := by
  intro c member
  rw [List.eq_of_mem_replicate member]
  rfl

theorem isDigit_toDigits (k : Nat) : ∀ c ∈ Nat.toDigits 10 k, c.isDigit = true :=
  fun _ member => Nat.isDigit_of_mem_toDigits (by decide) (by decide) member

theorem paddedText_digits (width k : Nat)
    : (paddedText width k).toList ≠ [] ∧ ∀ c ∈ (paddedText width k).toList, c.isDigit = true := by
  rw [paddedText, String.toList_append, String.toList_ofList, wholeText, String.toList_ofList]
  exact ⟨by simp [Nat.toDigits_ne_nil], isDigit_append (isDigit_zeros _) (isDigit_toDigits k)⟩

/-- Digits laid out are a numeral. -/
theorem exists_isNumeral_digitsText (count : Int) (d : Digits)
    : ∃ n : WrittenNumber, n.IsNumeral
        ∧ (Layout.digitsText ⟨count, false⟩ d).toList = n.chars := by
  have digits := isDigit_toDigits d.coefficient
  have nonempty : Nat.toDigits 10 d.coefficient ≠ [] := Nat.toDigits_ne_nil
  unfold Layout.digitsText
  generalize Nat.toDigits 10 d.coefficient = ds at digits nonempty
  dsimp only
  generalize (if (d.coefficient == 0) = true then (0 : Int) else d.exponent + ds.length - 1) = top
  split
  case isTrue =>
    obtain ⟨first, others, rfl⟩ := List.exists_cons_of_ne_nil nonempty
    rw [List.forall_mem_cons] at digits
    obtain ⟨exponent, exponentDigits⟩ := paddedText_digits 2 top.natAbs
    refine ⟨.ofParts [first] others (decide (top < 0)) (paddedText 2 top.natAbs).toList,
      isNumeral_ofParts (by simp) (by simpa using digits.1) digits.2 exponentDigits
        fun none => absurd none exponent, ?_⟩
    have sign : (if top < 0 then "e-" else "e+").toList
        = ['e', if top < 0 then '-' else '+'] := by split <;> rfl
    have fraction : (if others.isEmpty then "" else "." ++ String.ofList others).toList
        = if others = [] then [] else '.' :: others := by
      cases others <;> simp
    simp only [exponentText, String.toList_append, String.toList_ofList, sign, fraction,
      WrittenNumber.ofParts, WrittenNumber.chars, WrittenNumber.fractionChars,
      WrittenNumber.exponentChars, if_neg exponent, decide_eq_true_eq,
      List.cons_append, List.nil_append]
  case isFalse =>
    split
    case isTrue =>
      refine ⟨.ofParts (ds ++ List.replicate d.exponent.toNat '0') [] false [],
        isNumeral_ofParts (by simp [nonempty]) (isDigit_append digits (isDigit_zeros _)) nofun
          nofun fun _ => rfl, ?_⟩
      simp [WrittenNumber.ofParts, WrittenNumber.chars, WrittenNumber.fractionChars,
        WrittenNumber.exponentChars]
    case isFalse negative =>
      have positive : 0 < (-d.exponent).toNat := by omega
      generalize (-d.exponent).toNat = places at positive
      have padded : ∀ c ∈ List.replicate (places + 1 - ds.length) '0' ++ ds, c.isDigit = true :=
        isDigit_append (isDigit_zeros _) digits
      have length : places < (List.replicate (places + 1 - ds.length) '0' ++ ds).length := by
        rw [List.length_append, List.length_replicate]
        omega
      generalize List.replicate (places + 1 - ds.length) '0' ++ ds = all at padded length
      have fraction : all.drop (all.length - places) ≠ [] := by
        rw [← List.length_pos_iff, List.length_drop]
        omega
      have whole : all.take (all.length - places) ≠ [] := by
        rw [← List.length_pos_iff, List.length_take]
        omega
      refine ⟨.ofParts (all.take (all.length - places)) (all.drop (all.length - places)) false [],
        isNumeral_ofParts whole (fun c member => padded c (List.mem_of_mem_take member))
          (fun c member => padded c (List.mem_of_mem_drop member)) nofun fun _ => rfl, ?_⟩
      simp [WrittenNumber.ofParts, WrittenNumber.chars, WrittenNumber.fractionChars,
        WrittenNumber.exponentChars, fraction]

end Prognosis.Token

namespace Prognosis.Scalar

variable {α : Type} [Scalar α]

/-- The number is finite and not negative, and its text with six significant digits is read as the
number itself.
-/
def PrintsExactly (x : α) : Prop :=
  (∃ mantissa exponent, parts x = .finite false mantissa exponent)
    ∧ (Token.writtenNumber (general x).toList).value = x

theorem PrintsExactly.exists_isNumeral {x : α} (exact : PrintsExactly x)
    : ∃ n : Token.WrittenNumber, n.IsNumeral ∧ (general x).toList = n.chars ∧ n.value = x := by
  obtain ⟨⟨mantissa, exponent, finite⟩, value⟩ := exact
  obtain ⟨n, numeral, chars⟩ := Token.exists_isNumeral_digitsText 6
    ((Decimal.Ratio.ofBinary mantissa exponent).significant 6).strip
  have text : (general x).toList = n.chars := by
    rw [general, finite, Decimal.Parts.general, Decimal.Parts.text, ← chars]
    simp
  have read : Token.writtenNumber (n.chars ++ []) = n := Token.writtenNumber_chars numeral nofun
  rw [List.append_nil] at read
  rw [text, read] at value
  exact ⟨n, numeral, text, value⟩

end Prognosis.Scalar
