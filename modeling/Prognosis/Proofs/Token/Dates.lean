import Prognosis.Proofs.Calendar.Chronology
import Prognosis.Proofs.Token.Numeral
import Prognosis.Proofs.Token.Tiling

/-! Dates of scenario texts. A date is read where its characters are four digits, two digits and
perhaps two more, with hyphens between them, and reported where its numbers are no day. A month or a
day of zero counts as one, so it is never reported on its own.
-/

namespace Prognosis

open Text

-----------------------------------------------------------------------------------------
-- Days by their numbers
-----------------------------------------------------------------------------------------

/-- The day with three numbers is the one that has them. -/
theorem PartialDate.resolve_eq_ok_iff {year month day : Int} {a : Date}
    : resolve year month day = .ok a ↔ year = a.year ∧ month = a.month ∧ day = a.day := by
  refine ⟨numbers_of_resolve, ?_⟩
  rintro ⟨rfl, rfl, rfl⟩
  have year := a.year_le
  have month := a.month_le
  have day := a.day_le.trans (Timeline.daysInMonth_le a.year a.month)
  have known : Date.ofNumbers? a.year a.month a.day = some a :=
    Date.ofNumbers?_eq_some_iff.mpr ⟨rfl, rfl, rfl⟩
  have fits {n : Nat} (small : n ≤ 9999) : countable n = true := by
    simp only [countable, Bool.and_eq_true, decide_eq_true_eq]
    omega
  simp [resolve, fits year, fits (month.trans (by decide)), fits (day.trans (by decide)), known]

namespace Token

variable {α : Type}

namespace WrittenDate

/-- Characters of the date. -/
def chars (d : WrittenDate) : List Char :=
  d.year ++ '-' :: d.month ++ if d.day.isEmpty then [] else '-' :: d.day

/-- The characters are so many digits. -/
def AreDigits (count : Nat) (cs : List Char) : Prop :=
  cs.length = count ∧ ∀ c ∈ cs, isDecimalDigit c = true

/-- The year, the month and the day, if there is one, have all their digits. -/
structure IsWhole (d : WrittenDate) : Prop where
  year : AreDigits 4 d.year
  month : AreDigits 2 d.month
  day : d.day = [] ∨ AreDigits 2 d.day

theorem IsWhole.length_chars {d : WrittenDate} (whole : d.IsWhole)
    : d.chars.length = d.width := by
  have year := whole.year.1
  have month := whole.month.1
  rcases whole.day with none | two
  · simp [chars, width, none, year, month]
  · have some : d.day ≠ [] := fun none => by simp [none, AreDigits] at two
    simp [chars, width, some, year, month, two.1]

/-- Characters are those of one date at most. -/
theorem IsWhole.eq_of_chars {d e : WrittenDate} (whole : d.IsWhole) (other : e.IsWhole)
    (same : d.chars = e.chars)
    : d = e := by
  obtain ⟨year, month, day⟩ := d
  obtain ⟨year', month', day'⟩ := e
  simp only [chars, List.append_assoc, List.cons_append] at same
  obtain ⟨rfl, months⟩ := List.append_inj same (whole.year.1.trans other.year.1.symm)
  obtain ⟨rfl, days⟩ :=
    List.append_inj (List.cons.inj months).2 (whole.month.1.trans other.month.1.symm)
  cases day <;> cases day' <;> simp_all

/-- Number of the day; a day that is not written is the first one. -/
def dayNumber (d : WrittenDate) : Nat :=
  if d.day.isEmpty then 1 else digitsValue d.day

/-- The day has the numbers that are written. -/
def Names (d : WrittenDate) (a : Date) : Prop :=
  a.year = digitsValue d.year ∧ a.month = digitsValue d.month ∧ a.day = d.dayNumber

/-- The day has the numbers that are written, save that a month or a day of zero counts as one. -/
def CountsAs (d : WrittenDate) (a : Date) : Prop :=
  a.year = digitsValue d.year ∧ a.month = max 1 (digitsValue d.month) ∧ a.day = max 1 d.dayNumber

theorem Names.countsAs {d : WrittenDate} {a : Date} (names : d.Names a) : d.CountsAs a := by
  obtain ⟨year, month, day⟩ := names
  have first := a.month_pos
  have second := a.day_pos
  exact ⟨year, by omega, by omega⟩

theorem CountsAs.names {d : WrittenDate} {a : Date} (counts : d.CountsAs a)
    (month : digitsValue d.month ≠ 0) (day : d.dayNumber ≠ 0)
    : d.Names a := by
  obtain ⟨year, first, second⟩ := counts
  exact ⟨year, by omega, by omega⟩

/-- A written date starts on the day that it counts as. -/
theorem start_eq_ok_iff {d : WrittenDate} {a : Date} : d.value.start = .ok a ↔ d.CountsAs a := by
  have given (n : Nat) : PartialDate.given (some n) 1 = (max 1 n : Nat) := by
    unfold PartialDate.given
    dsimp only
    split
    case isTrue zero =>
      have zero : n = 0 := by simpa using zero
      simp [zero]
    case isFalse some =>
      have some : n ≠ 0 := by simpa using some
      congr 1
      omega
  have day : PartialDate.given d.value.day 1 = (max 1 d.dayNumber : Nat) := by
    unfold value dayNumber
    dsimp only
    split
    case isTrue => rfl
    case isFalse => exact given _
  have month : PartialDate.given d.value.month 1 = (max 1 (digitsValue d.month) : Nat) := given _
  rw [PartialDate.start, PartialDate.resolve_eq_ok_iff, month, day]
  simp only [CountsAs, value, Nat.cast_inj, eq_comm]

end WrittenDate

section Reading

variable {cs : List Char} {d : WrittenDate}

theorem hyphenPair?_eq_some {pair rest : List Char} (is : hyphenPair? cs = some (pair, rest))
    : WrittenDate.AreDigits 2 pair ∧ cs = '-' :: pair ++ rest := by
  unfold hyphenPair? at is
  split at is
  case h_2 => cases is
  case h_1 a b more =>
    split at is
    case isFalse => cases is
    case isTrue digits =>
      cases is
      exact ⟨⟨rfl, by simpa using digits⟩, rfl⟩

/-- What is read as a date has all its digits, and takes its characters from the text. -/
theorem writtenDate?_isWhole (is : writtenDate? cs = some d)
    : d.IsWhole ∧ ∃ behind, cs = d.chars ++ behind := by
  unfold writtenDate? at is
  dsimp only at is
  split at is
  case isFalse => cases is
  case isTrue four =>
    obtain ⟨length, digits⟩ := Bool.and_eq_true_iff.mp four
    have year : WrittenDate.AreDigits 4 (cs.take 4) :=
      ⟨eq_of_beq length, List.all_eq_true.mp digits⟩
    split at is
    case h_1 => cases is
    case h_2 month more first =>
      obtain ⟨month, behindYear⟩ := hyphenPair?_eq_some first
      have split := List.take_append_drop 4 cs
      rw [behindYear] at split
      split at is
      case h_1 dated withDay =>
        cases is
        split at withDay
        case h_2 => cases withDay
        case h_1 day after second =>
          split at withDay
          case isFalse => cases withDay
          case isTrue =>
            cases withDay
            obtain ⟨two, behindMonth⟩ := hyphenPair?_eq_some second
            have some : day.isEmpty = false := by
              rw [List.isEmpty_eq_false_iff]
              rintro rfl
              cases two.1
            rw [behindMonth] at split
            refine ⟨⟨year, month, Or.inr two⟩, after, split.symm.trans ?_⟩
            simp only [WrittenDate.chars, some, Bool.false_eq_true, if_false, List.append_assoc,
              List.cons_append]
      case h_2 =>
        split at is
        case isFalse => cases is
        case isTrue =>
          cases is
          refine ⟨⟨year, month, Or.inl rfl⟩, more, split.symm.trans ?_⟩
          simp only [WrittenDate.chars, List.isEmpty_nil, if_true, List.append_nil,
            List.append_assoc, List.cons_append]

variable [Scalar α]

theorem readNumber_date (cs : List Char) (value : PartialDate)
    : (readNumber cs : Reading α).kind ≠ some (.date value) := by
  unfold readNumber
  dsimp only
  repeat' split
  all_goals simp [Reading.token]

/-- A date is read where one is written, and reported where it does not start on a day. -/
theorem readDigits_date {value : PartialDate}
    (is : (readDigits cs : Reading α).kind = some (.date value))
    : ∃ d, writtenDate? cs = some d ∧ (readDigits cs : Reading α).width = d.width
      ∧ ((∃ a, d.CountsAs a ∧ value = d.value ∧ (readDigits cs : Reading α).finding = none)
        ∨ (¬∃ a, d.CountsAs a)
          ∧ ∃ text, (readDigits cs : Reading α).finding = some (.invalidDate text)) := by
  simp only [← WrittenDate.start_eq_ok_iff]
  cases written : writtenDate? cs with
  | none =>
      have read : (readDigits cs : Reading α) = readNumber cs := by simp only [readDigits, written]
      rw [read] at is
      exact absurd is (readNumber_date cs value)
  | some d =>
      cases started : d.value.start with
      | ok a =>
          have read : (readDigits cs : Reading α)
              = .token d.width d.width_pos (.date d.value) := by
            simp only [readDigits, written, started]
          rw [read] at is ⊢
          cases is
          exact ⟨d, rfl, rfl, Or.inl ⟨a, started, rfl, rfl⟩⟩
      | error fault =>
          have read : (readDigits cs : Reading α)
              = ⟨d.width, d.width_pos, some (.date (.ofYear (digitsValue d.year))),
                  some (.invalidDate (String.ofList (cs.take d.width)))⟩ := by
            simp only [readDigits, written, started]
          rw [read]
          exact ⟨d, rfl, rfl, Or.inr ⟨by simp [started], _, rfl⟩⟩

/-- Dates are read from digits alone. -/
theorem eq_readDigits_of_date {c : Char} {value : PartialDate} {reading : Reading α}
    (is : read c cs = reading) (kind : reading.kind = some (.date value))
    : reading = readDigits (c :: cs) := by
  unfold read at is
  split at is
  case isTrue => subst is; cases kind
  case isFalse =>
    split at is
    case isTrue => subst is; cases kind
    case isFalse =>
      split at is
      case isTrue => split at is <;> subst is <;> cases kind
      case isFalse =>
        split at is
        case isTrue => exact is.symm
        case isFalse =>
          split at is
          case isTrue => subst is; cases kind
          case isFalse =>
            split at is
            case isTrue => subst is; cases kind
            case isFalse => split at is <;> subst is <;> cases kind

end Reading

-----------------------------------------------------------------------------------------
-- Places of pieces
-----------------------------------------------------------------------------------------

section Pieces

variable [Scalar α]

/-- Pieces are in the order of their places, and none is in front of the start. By induction along
the text.
-/
theorem pieces_ordered (span : Span) (cs : List Char)
    : (∀ piece ∈ (pieces span cs : List (Piece α)), piece.span = span ∨ span.Before piece.span)
      ∧ (pieces span cs : List (Piece α)).Pairwise fun p q => p.span.Before q.span := by
  match cs with
  | [] => simp [pieces]
  | c :: cs =>
      unfold pieces
      have some := (read c cs : Reading α).width_pos
      obtain ⟨n, width⟩ := Nat.exists_eq_succ_of_ne_zero some.ne'
      obtain ⟨behind, ordered⟩ := pieces_ordered
        (span.past ((c :: cs).take (read c cs : Reading α).width))
        ((c :: cs).drop (read c cs : Reading α).width)
      have further : span.Before (span.past ((c :: cs).take (read c cs : Reading α).width)) := by
        rw [width, List.take_succ_cons]
        exact span.before_past c _
      have later : ∀ piece ∈ (pieces (span.past ((c :: cs).take (read c cs : Reading α).width))
          ((c :: cs).drop (read c cs : Reading α).width) : List (Piece α)),
          span.Before piece.span := by
        intro piece member
        rcases behind piece member with same | before
        · rwa [same]
        · exact further.trans before
      exact ⟨List.forall_mem_cons.mpr ⟨Or.inl rfl, fun piece member => Or.inr (later piece member)⟩,
        List.pairwise_cons.mpr ⟨later, ordered⟩⟩
termination_by cs.length
decreasing_by
  simp only [List.length_drop, List.length_cons]
  omega

/-- No two pieces have the same place. -/
theorem eq_of_span {span : Span} {cs : List Char} {p q : Piece α} (first : p ∈ pieces span cs)
    (second : q ∈ pieces span cs) (same : p.span = q.span)
    : p = q := by
  have distinct : ((pieces span cs : List (Piece α)).map (·.span)).Nodup := by
    refine List.pairwise_map.mpr ((pieces_ordered span cs).2.imp fun {p q} before same => ?_)
    rw [same] at before
    unfold Span.Before at before
    omega
  exact List.inj_on_of_nodup_map distinct first second same

end Pieces

end Token

-----------------------------------------------------------------------------------------
-- Dates of texts
-----------------------------------------------------------------------------------------

variable {α : Type}

/-- An impossible date is reported at the place. -/
def TokenText.ReportsDate (text : TokenText α) (span : Span) : Prop :=
  ∃ l ∈ text.findings, l.span = some span ∧ ∃ written, l.finding = .invalidDate written

namespace Token

variable [Scalar α] {source : String}

/-- An impossible date is reported where the piece at the place does so. -/
theorem reportsDate_iff {p : Piece α} (member : p ∈ pieces ⟨1, 1⟩ source.toList)
    : (TokenText.scan source : TokenText α).ReportsDate p.span
      ↔ ∃ written, p.finding = some (.invalidDate written) := by
  constructor
  · rintro ⟨l, found, same, written, is⟩
    obtain ⟨q, other, made⟩ := List.mem_filterMap.mp found
    obtain ⟨finding, has, rfl⟩ := Option.map_eq_some_iff.mp made
    obtain rfl := eq_of_span member other (Option.some.inj same).symm
    exact ⟨written, has.trans (congrArg some is)⟩
  · rintro ⟨written, is⟩
    refine ⟨⟨.invalidDate written, some p.span⟩, ?_, rfl, written, rfl⟩
    exact List.mem_filterMap.mpr ⟨p, member, by simp [Piece.located?, is]⟩

/-- Impossible dates are reported. A token that is a date consists of the digits and hyphens of one.
It is reported exactly where what it counts as is no day, and then what is written is no day either.
Where it is not reported it starts on the day that it counts as; this is the written day, in the
bounds of the calendar, unless a part of the date is zero. A month or a day of zero is not reported
on its own (`zero_month_unreported`).

Witness: `leap_day_checked`
-/
theorem dates_checked {t : Token α} {value : PartialDate}
    (among : t ∈ (TokenText.scan source).tokens) (date : t.kind = .date value)
    : ∃ d : WrittenDate, d.IsWhole ∧ t.text.toList = d.chars
      ∧ ((TokenText.scan source : TokenText α).ReportsDate t.span ↔ ¬∃ a, d.CountsAs a)
      ∧ ((TokenText.scan source : TokenText α).ReportsDate t.span → ¬∃ a, d.Names a)
      ∧ (¬(TokenText.scan source : TokenText α).ReportsDate t.span →
        ∃ a, value.start = .ok a ∧ d.CountsAs a
          ∧ (digitsValue d.month ≠ 0 → d.dayNumber ≠ 0 →
            d.Names a ∧ 1 ≤ digitsValue d.year
              ∧ 1 ≤ digitsValue d.month ∧ digitsValue d.month ≤ 12
              ∧ 1 ≤ d.dayNumber
              ∧ d.dayNumber ≤ daysInMonth (digitsValue d.year) (digitsValue d.month))) := by
  obtain ⟨p, member, made⟩ := List.mem_filterMap.mp among
  obtain ⟨kind, known, rfl⟩ := Option.map_eq_some_iff.mp made
  subst date
  obtain ⟨c, rest, kinds, chars, findings⟩ := exists_read_of_piece _ _ member
  have read : (read c rest : Reading α) = readDigits (c :: rest) :=
    eq_readDigits_of_date rfl (kinds.symm.trans known)
  rw [read] at kinds chars findings
  obtain ⟨d, written, width, cases⟩ := readDigits_date (kinds.symm.trans known)
  obtain ⟨whole, behind, split⟩ := writtenDate?_isWhole written
  have text : p.chars = d.chars := by
    rw [chars, width, split, ← whole.length_chars, List.take_left]
  have reports : (TokenText.scan source : TokenText α).ReportsDate p.span ↔ ¬∃ a, d.CountsAs a := by
    rw [reportsDate_iff member, findings]
    rcases cases with ⟨a, counts, -, none⟩ | ⟨no, is⟩
    · rw [none]
      exact iff_of_false nofun fun no => no ⟨a, counts⟩
    · exact iff_of_true is no
  refine ⟨d, whole, by simpa using text, reports, ?_, ?_⟩
  · rintro reported ⟨a, names⟩
    exact reports.mp reported ⟨a, names.countsAs⟩
  · intro unreported
    rcases cases with ⟨a, counts, rfl, -⟩ | ⟨no, -⟩
    · refine ⟨a, WrittenDate.start_eq_ok_iff.mpr counts, counts, fun month day => ?_⟩
      have names := counts.names month day
      obtain ⟨year, month, day⟩ := id names
      rw [← year, ← month, ← day]
      exact ⟨names, a.year_pos, a.month_pos, a.month_le, a.day_pos, a.day_le⟩
    · exact absurd (reports.mpr no) unreported

/-- A leap day in a leap year is not reported, and is the day that is written. -/
theorem leap_day_checked
    : let text : TokenText Int := TokenText.scan "2024-02-29"
      let d : WrittenDate := ⟨['2', '0', '2', '4'], ['0', '2'], ['2', '9']⟩
      text.tokens = [⟨.date ⟨2024, some 2, some 29⟩, "2024-02-29", ⟨1, 1⟩⟩]
        ∧ ¬text.ReportsDate ⟨1, 1⟩
        ∧ ∃ a, (⟨2024, some 2, some 29⟩ : PartialDate).start = .ok a ∧ d.Names a := by
  intro text written
  have tokens : text.tokens = [⟨.date ⟨2024, some 2, some 29⟩, "2024-02-29", ⟨1, 1⟩⟩] := by cbv
  have clean : ¬text.ReportsDate ⟨1, 1⟩ := by
    have findings : text.findings = [] := by cbv
    rintro ⟨l, found, -⟩
    rw [findings] at found
    cases found
  obtain ⟨⟨year, month, day⟩, whole, chars, -, -, starts⟩ :=
    dates_checked (tokens ▸ List.mem_singleton_self _) rfl
  obtain ⟨a, start, -, names⟩ := starts clean
  have same : (⟨year, month, day⟩ : WrittenDate) = written := by
    have digits {cs : List Char} (all : cs.all Char.isDigit = true)
        : ∀ c ∈ cs, isDecimalDigit c = true :=
      fun c member => isDecimalDigit_of_isDigit (List.all_eq_true.mp all c member)
    have other : written.IsWhole := {
      year := ⟨rfl, digits (by decide)⟩
      month := ⟨rfl, digits (by decide)⟩
      day := Or.inr ⟨rfl, digits (by decide)⟩
    }
    exact whole.eq_of_chars other chars.symm
  rw [same] at names
  exact ⟨tokens, clean, a, start, (names (by decide) (by decide)).1⟩

/-- A month of zero is not reported, and stands for the first month. -/
theorem zero_month_unreported
    : let text : TokenText Int := TokenText.scan "2030-00"
      let d : WrittenDate := ⟨['2', '0', '3', '0'], ['0', '0'], []⟩
      text.tokens = [⟨.date ⟨2030, some 0, none⟩, String.ofList d.chars, ⟨1, 1⟩⟩]
        ∧ ¬text.ReportsDate ⟨1, 1⟩ ∧ ¬1 ≤ digitsValue d.month ∧ (¬∃ a, d.Names a)
        ∧ ∃ a, (⟨2030, some 0, none⟩ : PartialDate).start = .ok a ∧ a.month = 1 := by
  intro text d
  have clean : ¬text.ReportsDate ⟨1, 1⟩ := by
    have findings : text.findings = [] := by cbv
    rintro ⟨l, found, -⟩
    rw [findings] at found
    cases found
  have zero : digitsValue d.month = 0 := by decide
  refine ⟨by cbv, clean, by omega, ?_, ⟨2030, 1, 1, ?_, ?_, ?_, ?_, ?_, ?_⟩, by cbv, rfl⟩
  · rintro ⟨a, -, month, -⟩
    have some := a.month_pos
    omega
  all_goals decide

end Token

end Prognosis
