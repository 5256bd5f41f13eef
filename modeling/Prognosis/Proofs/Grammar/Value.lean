import Prognosis.Grammar.Value
import Prognosis.Proofs.Grammar.Remainder

/-! What readers of property values leave. -/

namespace Prognosis.Grammar

variable {α : Type}

open Attempt

-----------------------------------------------------------------------------------------
-- Texts and words
-----------------------------------------------------------------------------------------

theorem quotedString_yields (ts : List (Token α)) : (quotedString ts).Yields fun _ => True := by
  cases ts with
  | nil => exact failAtEnd_yields _
  | cons t rest =>
      simp only [quotedString]
      split
      case h_1 => exact yields_single trivial
      case h_2 => exact failExpected_yields _

theorem wordOrString_yields (ts : List (Token α)) : (wordOrString ts).Yields fun _ => True := by
  cases ts with
  | nil => exact failAtEnd_yields _
  | cons t rest =>
      simp only [wordOrString]
      split
      case h_1 => exact yields_single trivial
      case h_2 => exact identifier_yields.any

theorem choice_yields {β : Type} (options : List β) (word : β → String) (what : String)
    (ts : List (Token α))
    : (choice options word what ts).Yields fun _ => True := by
  have first := wordOrString_yields ts
  unfold choice
  cases read : wordOrString ts with
  | error e => exact yields_error e
  | ok p =>
      dsimp only
      split
      case h_1 => exact yields_ok (p := p.map _) (first p read).1 trivial
      case h_2 => exact failHere_yields _

-----------------------------------------------------------------------------------------
-- Numbers and dates
-----------------------------------------------------------------------------------------

section Numbers

variable [Scalar α]

theorem unsignedNumber_yields (percent negative : Bool) (ts : List (Token α))
    : (unsignedNumber percent negative ts).Yields fun _ => True := by
  cases ts with
  | nil => exact failAtEnd_yields _
  | cons t rest =>
      simp only [unsignedNumber]
      split
      case h_1 | h_2 => exact yields_single trivial
      case h_3 => exact failExpected_yields _

theorem number_yields (percent : Bool) (ts : List (Token α))
    : (number percent ts).Yields fun _ => True := by
  cases ts with
  | nil => exact failAtEnd_yields _
  | cons t rest =>
      simp only [number]
      split
      case isTrue => exact (unsignedNumber_yields percent true rest).afterToken t
      case isFalse => exact unsignedNumber_yields percent false (t :: rest)

theorem wholeNumber_yields (ts : List (Token α)) : (wholeNumber ts).Yields fun _ => True := by
  have first := number_yields false ts
  unfold wholeNumber
  cases read : number false ts with
  | error e => exact yields_error e
  | ok p =>
      dsimp only
      split
      case h_1 => exact yields_error _
      case h_2 =>
        split
        case isTrue => exact yields_ok (p := p.map _) (first p read).1 trivial
        case isFalse => exact failHere_yields _

omit [Scalar α] in
theorem boolean_yields (ts : List (Token α)) : (boolean ts).Yields fun _ => True := by
  cases ts with
  | nil => exact failAtEnd_yields _
  | cons t rest =>
      simp only [boolean]
      split
      case isTrue => exact yields_single trivial
      case isFalse =>
        split
        case isTrue => exact yields_single trivial
        case isFalse => exact failExpected_yields _

theorem date_yields (ts : List (Token α)) : (date ts).Yields fun _ => True := by
  cases ts with
  | nil => exact failAtEnd_yields _
  | cons t rest =>
      simp only [date]
      split
      case h_1 => exact yields_single trivial
      case h_2 =>
        split
        case h_1 => exact yields_error _
        case h_2 =>
          split
          case isTrue => exact yields_single trivial
          case isFalse => exact failExpected_yields _
      case h_3 => exact failExpected_yields _

omit [Scalar α] in
theorem duration_yields (ts : List (Token α)) : (duration ts).Yields fun _ => True := by
  cases ts with
  | nil => exact failAtEnd_yields _
  | cons t rest =>
      simp only [duration]
      split
      case h_1 => exact yields_single trivial
      case h_2 => exact failExpected_yields _

end Numbers

-----------------------------------------------------------------------------------------
-- Lists
-----------------------------------------------------------------------------------------

section Items

variable {β : Type} {item : (ts : List (Token α)) → Attempt α β ts} {holds : β → Prop}
  {tokens : List (Token α)}

/-- Items leave an end where each item does, and have the property that each item has. By induction
on the number of tokens.
-/
theorem items_yields_all (each : ∀ ts, ts <:+ tokens → (item ts).Yields holds)
    {ts : List (Token α)} (inside : ts <:+ tokens)
    : (items item ts).Yields fun values => ∀ value ∈ values, holds value := by
  unfold items
  match ts with
  | [] => exact (each [] inside).mapValue fun _ right => List.forall_mem_singleton.mpr right
  | t :: rest =>
      dsimp only
      split
      case isTrue => exact yields_single (List.forall_mem_nil _)
      case isFalse =>
        have head := each (t :: rest) inside
        cases read : item (t :: rest) with
        | error e => exact yields_error e
        | ok first =>
            obtain ⟨left, right⟩ := head first read
            dsimp only
            split
            case h_1 => exact failAtEnd_yields _
            case h_2 u more after =>
              have end_ := (List.suffix_cons u more).trans (after ▸ left)
              split
              case isTrue => exact yields_ok end_ (List.forall_mem_singleton.mpr right)
              case isFalse =>
                split
                case isFalse => exact failExpected_yields _
                case isTrue =>
                  have shorter : more.length < (t :: rest).length := by
                    have shorter := first.shorter
                    rw [after, List.length_cons] at shorter
                    omega
                  have later := items_yields_all each (end_.trans inside)
                  cases readOthers : items item more with
                  | error e => exact yields_error e
                  | ok others =>
                      obtain ⟨leftOthers, rights⟩ := later others readOthers
                      exact yields_ok (leftOthers.trans end_)
                        (List.forall_mem_cons.mpr ⟨right, rights⟩)
termination_by ts.length
decreasing_by exact shorter

theorem bracketed_yields_all (each : ∀ ts, ts <:+ tokens → (item ts).Yields holds)
    {ts : List (Token α)} (inside : ts <:+ tokens)
    : (bracketed item ts).Yields fun values => ∀ value ∈ values, holds value :=
  (expectSign_yields _ _ _).andThen fun _ _ left _ => items_yields_all each (left.trans inside)

theorem bracketed_yields (each : ∀ ts, (item ts).Yields fun _ => True) (ts : List (Token α))
    : (bracketed item ts).Yields fun _ => True :=
  (bracketed_yields_all (fun ts _ => each ts) (List.suffix_refl ts)).any

end Items

theorem stringList_yields (ts : List (Token α)) : (stringList ts).Yields fun _ => True := by
  cases ts with
  | nil => exact failAtEnd_yields _
  | cons t rest =>
      simp only [stringList]
      split
      case h_1 => exact yields_single trivial
      case h_2 => exact bracketed_yields quotedString_yields (t :: rest)

theorem numberList_yields [Scalar α] (ts : List (Token α))
    : (numberList ts).Yields fun _ => True :=
  bracketed_yields (number_yields false) ts

section Names

variable {holds : Path → Prop} {tokens : List (Token α)}

/-- Names after commas have the property that each name has. By induction on the number of tokens.
-/
theorem moreNames_yields_all (each : ∀ ts, ts <:+ tokens → (dottedName ts).Yields holds)
    {ts : List (Token α)} (inside : ts <:+ tokens)
    : MayYield (moreNames ts) fun paths => ∀ path ∈ paths, holds path := by
  unfold moreNames
  match ts with
  | [] => exact mayYield_stay (List.forall_mem_nil _)
  | t :: rest =>
      dsimp only
      split
      case isFalse => exact mayYield_stay (List.forall_mem_nil _)
      case isTrue =>
        have behind := (List.suffix_cons t rest).trans inside
        have first := each rest behind
        cases read : dottedName rest with
        | error e => exact fun _ other => by cases other
        | ok name =>
            obtain ⟨left, right⟩ := first name read
            have shorter : name.rest.length < (t :: rest).length :=
              Nat.lt_succ_of_lt name.shorter
            have later := moreNames_yields_all each (left.trans behind)
            dsimp only
            cases readOthers : moreNames name.rest with
            | error e => exact fun _ other => by cases other
            | ok others =>
                intro p other
                cases other
                obtain ⟨leftOthers, rights⟩ := later others readOthers
                exact ⟨(leftOthers.trans left).trans (List.suffix_cons t rest),
                  List.forall_mem_cons.mpr ⟨right, rights⟩⟩
termination_by ts.length
decreasing_by exact shorter

theorem nameList_yields_all (each : ∀ ts, ts <:+ tokens → (dottedName ts).Yields holds)
    {ts : List (Token α)} (inside : ts <:+ tokens)
    : (nameList ts).Yields fun paths => ∀ path ∈ paths, holds path := by
  unfold nameList
  split
  case isTrue => exact bracketed_yields_all each inside
  case isFalse =>
    apply (each ts inside).andMaybe
    intro name rest left right
    have later := moreNames_yields_all each (left.trans inside)
    cases read : moreNames rest with
    | error e => exact fun _ other => by cases other
    | ok others =>
        intro p other
        cases other
        obtain ⟨leftOthers, rights⟩ := later others read
        exact ⟨leftOthers, List.forall_mem_cons.mpr ⟨right, rights⟩⟩

theorem nameList_yields (ts : List (Token α)) : (nameList ts).Yields fun _ => True :=
  (nameList_yields_all (fun ts _ => dottedName_yields ts) (List.suffix_refl ts)).any

end Names

-----------------------------------------------------------------------------------------
-- Ranges, distributions and models
-----------------------------------------------------------------------------------------

theorem range_yields (ts : List (Token α)) : (range ts).Yields fun _ => True :=
  (expectSign_yields _ _ _).andThen fun _ _ _ _ =>
  (expression_yields _).andThen fun _ _ _ _ =>
  (expectSign_yields _ _ _).andThen fun _ _ _ _ =>
  (expression_yields _).andThen fun _ _ _ _ =>
  (expectSign_yields _ _ _).mapValue fun _ _ => trivial

theorem distribution_yields (ts : List (Token α)) : (distribution ts).Yields fun _ => True := by
  cases ts with
  | nil => exact failAtEnd_yields _
  | cons t rest =>
      simp only [distribution]
      split
      case isTrue =>
        exact ((expression_yields rest).mapValue fun _ _ => trivial).afterToken t
      case isFalse =>
        have first := expression_yields (t :: rest)
        cases read : expression (t :: rest) with
        | error e => exact yields_error e
        | ok p =>
            dsimp only
            split
            case h_2 => exact failHere_yields _
            case h_1 =>
              split
              case h_1 => exact yields_ok (p := p.map _) (first p read).1 trivial
              case h_2 => exact failHere_yields _

theorem model_yields (ts : List (Token α)) : (model ts).Yields fun _ => True := by
  cases ts with
  | nil => exact failAtEnd_yields _
  | cons t rest =>
      have first := expression_yields (t :: rest)
      simp only [model]
      cases read : expression (t :: rest) with
      | error e => exact yields_error e
      | ok p =>
          dsimp only
          split
          case h_2 => exact failHere_yields _
          case h_1 =>
            split
            case h_2 => exact failHere_yields _
            case h_1 =>
              split
              case isTrue => exact yields_ok (p := p.map _) (first p read).1 trivial
              case isFalse => exact failHere_yields _

end Prognosis.Grammar
