import Prognosis.Grammar.Scenario
import Prognosis.Proofs.Grammar.Declaration
import Prognosis.Proofs.Token.Word

/-! What readers of scenarios leave. All names that a scenario declares are words of its text. -/

namespace Prognosis

namespace Grammar

variable {α : Type}

open Attempt

section Bodies

variable [Scalar α]

theorem metadataValue_yields (key : String) (m : Metadata α) (ts : List (Token α))
    : (metadataValue key m ts).Yields fun _ => True := by
  unfold metadataValue
  split
  case h_1 =>
    exact (date_yields ts).andThen fun _ rest _ _ =>
      (expectSign_yields _ _ _).andThen fun _ rest _ _ =>
        (date_yields rest).mapValue fun _ _ => trivial
  case h_2 => exact (choice_yields _ _ _ ts).mapValue fun _ _ => trivial
  case h_3 => exact (number_yields true ts).mapValue fun _ _ => trivial
  case h_4 => exact (stringList_yields ts).mapValue fun _ _ => trivial
  case h_5 | h_6 => exact (wordOrString_yields ts).mapValue fun _ _ => trivial
  case h_7 | h_8 | h_9 | h_10 | h_11 | h_12 =>
    exact (quotedString_yields ts).mapValue fun _ _ => trivial

/-- Whatever declaration is read among the tokens has the property. -/
def Declares (tokens : List (Token α)) (holds : Declaration α → Prop) : Prop :=
  ∀ keyword span (ts : List (Token α)) outcome, ts <:+ tokens
    → declaration? keyword span ts = some outcome → outcome.Yields holds

theorem declares_any (tokens : List (Token α)) : Declares tokens fun _ => True :=
  fun _ _ _ _ _ found => (declaration?_yields found).weaken fun _ _ => trivial

variable {tokens : List (Token α)} {holds : Declaration α → Prop}

theorem bodyItem_yields (declares : Declares tokens holds) {body : Body α}
    (right : ∀ d ∈ body.declarations, holds d) {t : Token α} {rest : List (Token α)}
    (left : t :: rest <:+ tokens)
    : (bodyItem body t rest).Yields fun body => ∀ d ∈ body.declarations, holds d := by
  have behind := (List.suffix_cons t rest).trans left
  unfold bodyItem
  split
  case isTrue =>
    refine Outcome.yields_silent (Attempt.Yields.afterToken ?_ t)
    exact (expectSign_yields _ _ _).andThen fun _ more _ _ =>
      (metadataValue_yields t.text body.metadata more).mapValue fun _ _ => right
  case isFalse =>
    split
    case h_2 => exact Outcome.yields_silent (failHere_yields _)
    case h_1 outcome found =>
      split at found
      case isFalse => cases found
      case isTrue =>
        refine ((declares _ _ _ _ behind found).mapValue fun d new => ?_).afterToken t
        exact List.forall_mem_append.mpr ⟨right, List.forall_mem_singleton.mpr new⟩

/-- Whatever the body declares has the property. By induction on the number of tokens. -/
theorem bodyItems_yields (declares : Declares tokens holds) (name : String) (header : Span)
    {body : Body α} (right : ∀ d ∈ body.declarations, holds d) {ts : List (Token α)}
    (left : ts <:+ tokens)
    : (bodyItems name header body ts).Yields fun body => ∀ d ∈ body.declarations, holds d := by
  unfold bodyItems
  split
  case h_1 => exact yields_error _
  case h_2 t rest skipped =>
    have all : t :: rest <:+ ts := skipped ▸ skipSeparators_suffix ts
    split
    case isTrue => exact yields_ok ((List.suffix_cons t rest).trans all) right
    case isFalse =>
      have item : (orRecover t rest body (bodyItem body t rest)).Yields fun body =>
          ∀ d ∈ body.declarations, holds d := by
        refine orRecover_yields ?_ (bodyItem_yields declares right (all.trans left))
        exact right
      dsimp only
      split
      case h_1 => exact yields_error _
      case h_2 p read =>
        obtain ⟨leftItem, rightItem⟩ := item p read
        have shorter : p.rest.length < ts.length :=
          Nat.lt_of_lt_of_le p.shorter all.length_le
        have behind := leftItem.trans all
        have later := bodyItems_yields declares name header rightItem (behind.trans left)
        dsimp only [Outcome.Yields]
        split
        case h_1 => exact yields_error _
        case h_2 q readOthers =>
          obtain ⟨leftThen, rightThen⟩ := later q readOthers
          exact yields_ok (leftThen.trans behind) rightThen
termination_by ts.length

end Bodies

/-- Imports leave an end of the tokens, and have any property that all imports have. By induction on
the number of tokens.
-/
theorem imports_yield (holds : Declaration α → Prop) (imported : ∀ i, holds (.imported i))
    {ts : List (Token α)} {front : Progress α (List (Declaration α))}
    (read : imports ts = .ok front)
    : front.rest <:+ ts ∧ ∀ d ∈ front.value, holds d := by
  unfold imports at read
  split at read
  case h_1 =>
    cases read
    exact ⟨List.nil_suffix, List.forall_mem_nil _⟩
  case h_2 t rest skipped =>
    have all : t :: rest <:+ ts := skipped ▸ skipSeparators_suffix ts
    have behind := (List.suffix_cons t rest).trans all
    dsimp only at read
    split at read
    case isFalse =>
      cases read
      exact ⟨all, List.forall_mem_nil _⟩
    case isTrue =>
      have item := imported_yields t.span rest
      split at read
      case h_1 => cases read
      case h_2 =>
        have left := recover_suffix 0 rest
        have shorter : (recover 0 rest).length < ts.length :=
          Nat.lt_of_lt_of_le (Nat.lt_succ_of_le left.length_le) all.length_le
        split at read
        case h_1 => cases read
        case h_2 others more =>
          cases read
          obtain ⟨leftOthers, right⟩ := imports_yield holds imported more
          exact ⟨leftOthers.trans (left.trans behind), right⟩
      case h_3 p readOne =>
        have left := (item p readOne).1
        have shorter : p.rest.length < ts.length :=
          Nat.lt_of_lt_of_le p.shorter behind.length_le
        split at read
        case h_1 => cases read
        case h_2 others more =>
          cases read
          obtain ⟨leftOthers, right⟩ := imports_yield holds imported more
          exact ⟨leftOthers.trans (left.trans behind),
            List.forall_mem_cons.mpr ⟨imported p.value, right⟩⟩
termination_by ts.length

variable [Scalar α] {tokens : List (Token α)} {holds : Declaration α → Prop}

/-- A scenario leaves an end of the tokens, and whatever it declares has the property. -/
theorem scenarioBlock_yields (declares : Declares tokens holds) {ts : List (Token α)}
    {header : Span} {imports : List (Declaration α)} (front : ∀ d ∈ imports, holds d)
    (left : ts <:+ tokens) {progress : Progress α (Option (Scenario α))}
    (read : scenarioBlock header imports ts = .ok progress)
    : progress.rest <:+ ts
      ∧ ∀ s, progress.value = some s → ∀ d ∈ s.declarations, holds d := by
  have missing {left : List (Token α)} (inside : left <:+ ts)
      : left <:+ ts ∧ ∀ s : Scenario α, none = some s → ∀ d ∈ s.declarations, holds d :=
    ⟨inside, fun _ is => by cases is⟩
  unfold scenarioBlock at read
  dsimp only at read
  split at read
  case h_1 =>
    cases read
    exact missing List.suffix_rfl
  case h_2 t rest =>
    split at read
    case h_1 =>
      cases read
      exact missing List.suffix_rfl
    case h_2 name _ =>
      split at read
      case h_1 =>
        cases read
        exact missing List.nil_suffix
      case h_2 u more =>
        have behind : more <:+ t :: u :: more :=
          (List.suffix_cons u more).trans (List.suffix_cons t _)
        split at read
        case isFalse =>
          cases read
          exact missing (List.suffix_cons t _)
        case isTrue =>
          have items : (bodyItems name header ⟨.empty, imports⟩ more).Yields fun body =>
              ∀ d ∈ body.declarations, holds d :=
            bodyItems_yields declares name header front (behind.trans left)
          split at read
          case h_1 => cases read
          case h_2 =>
            cases read
            exact missing List.nil_suffix
          case h_3 p readItems =>
            cases read
            obtain ⟨rest, right⟩ := items p readItems
            refine ⟨rest.trans behind, fun s is => ?_⟩
            cases is
            exact right

/-- Whatever a file declares has the property. -/
theorem file_yields {ts : List (Token α)} (declares : Declares ts holds)
    (imported : ∀ i, holds (.imported i)) {s : Scenario α}
    {reports : List (Located SyntaxFinding)} (read : file ts = .ok (some s, reports))
    : ∀ d ∈ s.declarations, holds d := by
  unfold file at read
  split at read
  case h_1 => cases read
  case h_2 front readImports =>
    obtain ⟨left, right⟩ := imports_yield holds imported readImports
    split at read
    case h_1 => cases read
    case h_2 t rest remaining =>
      split at read
      case isFalse => cases read
      case isTrue =>
        split at read
        case h_1 => cases read
        case h_2 progress readBlock =>
          have behind : rest <:+ ts := (List.suffix_cons t rest).trans (remaining ▸ left)
          have block := (scenarioBlock_yields declares right behind readBlock).2
          dsimp only at read
          split at read
          case h_1 value _ =>
            cases read
            exact block s value
          case h_2 =>
            simp only [Except.ok.injEq, Prod.mk.injEq] at read
            exact block s read.1

/-- The declared values take their names from words among the tokens. -/
theorem file_named {ts : List (Token α)} {s : Scenario α}
    {reports : List (Located SyntaxFinding)} (read : file ts = .ok (some s, reports))
    : ∀ d ∈ s.declarations, ∀ q, d.quantity? = some q → HasWord ts q.name := by
  refine file_yields (fun keyword span more outcome left found => ?_) (fun i q is => ?_) read
  · exact (declaration?_yields found).weaken fun d words q is => (words q is).of_suffix left
  · cases is

end Grammar

variable {α : Type}

/-- All declared values have words for names. -/
def Scenario.WordNames (s : Scenario α) : Prop :=
  ∀ q ∈ s.quantities, IsWord q.name

/-- So it is with every scenario that was read from a text, also where the text is at fault. -/
theorem SourceText.read_wordNames [Scalar α] {source : String} {text : SourceText α}
    (read : SourceText.read source = .ok text) {s : Scenario α} (found : text.scenario = some s)
    : s.WordNames := by
  unfold SourceText.read at read
  dsimp only at read
  split at read
  case h_1 => cases read
  case h_2 scenario reports readFile =>
    cases read
    cases found
    intro q member
    obtain ⟨d, declared, is⟩ := List.mem_filterMap.mp member
    obtain ⟨t, scanned, word, named⟩ := Grammar.file_named readFile d declared q is
    exact named ▸ Token.isWord_of_scan scanned word

end Prognosis
