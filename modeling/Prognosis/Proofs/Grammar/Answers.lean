import Mathlib
import Prognosis.Proofs.Grammar.Overflow
import Prognosis.Proofs.Grammar.Scenario
import Prognosis.Proofs.Grammar.Seam.Declaration
import Prognosis.Proofs.Scalar.Exact

/-! Every text is answered with a scenario or with an error that is reported, but for texts with
numbers beyond the range of numbers.
-/

namespace Prognosis

namespace Grammar

variable {α β : Type} [Scalar α] {ts tokens : List (Token α)}

theorem metadataValue_faults (key : String) (m : Metadata α) (left : ts <:+ tokens)
    : FaultsOnly (Overflows tokens) (metadataValue key m ts) := by
  unfold metadataValue
  split
  case h_1 =>
    exact Attempt.andThen_faults (date_faults left) (date_yields ts) fun _ rest behind =>
      Attempt.andThen_faults (expectSign_faults _ _ _) (expectSign_yields _ _ _)
        fun _ _ after =>
          Attempt.mapValue_faults (date_faults (after.trans (behind.trans left))) _
  case h_2 => exact Attempt.mapValue_faults (choice_faults _ _ _ ts) _
  case h_3 => exact Attempt.mapValue_faults (number_faults true ts) _
  case h_4 => exact Attempt.mapValue_faults (stringList_faults ts) _
  case h_5 | h_6 => exact Attempt.mapValue_faults (wordOrString_faults ts) _
  case h_7 | h_8 | h_9 | h_10 | h_11 | h_12 =>
    exact Attempt.mapValue_faults (quotedString_faults ts) _

theorem bodyItem_faults (body : Body α) {t : Token α} {rest : List (Token α)}
    (left : t :: rest <:+ tokens)
    : FaultsOnly (Overflows tokens) (bodyItem body t rest).attempt := by
  have behind := (List.suffix_cons t rest).trans left
  unfold bodyItem
  split
  case isTrue =>
    refine Attempt.afterToken_faults ?_ t
    exact Attempt.andThen_faults (expectSign_faults _ _ _) (expectSign_yields _ _ _)
      fun _ _ after => Attempt.mapValue_faults (metadataValue_faults _ _ (after.trans behind)) _
  case isFalse =>
    split
    case h_2 => exact faultsOnly_finding _
    case h_1 outcome found =>
      split at found
      case isFalse => cases found
      case isTrue =>
        exact Outcome.afterToken_faults
          (Outcome.mapValue_faults (declaration?_faults behind found) _) t

/-- By induction on the number of tokens. -/
theorem bodyItems_faults (name : String) (header : Span) (body : Body α) {ts : List (Token α)}
    (left : ts <:+ tokens)
    : FaultsOnly (Overflows tokens) (bodyItems name header body ts).attempt := by
  rw [← Outcome.faultsOnly_told, bodyItems_told]
  split
  case h_1 => exact faultsOnly_finding _
  case h_2 t rest skipped =>
    have inside : t :: rest <:+ ts := skipped ▸ skipSeparators_suffix ts
    split
    case isTrue => exact faultsOnly_ok _
    case isFalse =>
      rw [Told.andThen_snd]
      have item : FaultsOnly (Overflows tokens)
          (orRecover t rest body (bodyItem body t rest)).attempt :=
        Outcome.orRecover_faults (bodyItem_faults body (inside.trans left))
      have yields : (orRecover t rest body (bodyItem body t rest)).Yields fun _ => True :=
        orRecover_yields trivial <| Outcome.Yields.weaken (bodyItem_yields (declares_any tokens)
          (fun _ _ => trivial) (inside.trans left)) fun _ _ => trivial
      refine (faultsOnly_bare.mpr item).bind fun r read => ?_
      obtain ⟨end_, -⟩ := Attempt.Yields.of_bare yields read
      have shorter := Nat.lt_of_lt_of_le (Attempt.length_lt_of_bare read) inside.length_le
      exact faultsOnly_bare.mpr
        (bodyItems_faults name header _ (end_.trans (inside.trans left)))
termination_by ts.length
decreasing_by exact shorter

omit [Scalar α] in
/-- Imports are always read: those at fault are reported. By induction on the number of tokens. -/
theorem imports_returns (ts : List (Token α)) : ∃ front, imports ts = .ok front := by
  unfold imports
  split
  case h_1 => exact ⟨_, rfl⟩
  case h_2 t rest skipped =>
    have behind : (t :: rest).length ≤ ts.length := skipped ▸ skipSeparators_length ts
    dsimp only
    split
    case isFalse => exact ⟨_, rfl⟩
    case isTrue =>
      have item : FaultsOnly (fun _ => False) (imported t.span rest) := imported_faults _ _
      split
      case h_1 fault read => exact (item fault read).elim
      case h_2 found read =>
        have shorter := Nat.lt_of_lt_of_le (Nat.lt_succ_of_le (recover_length 0 rest)) behind
        obtain ⟨others, later⟩ := imports_returns (recover 0 rest)
        simp only [later]
        exact ⟨_, rfl⟩
      case h_3 p read =>
        have shorter := Nat.lt_of_lt_of_le (Nat.lt_succ_of_lt p.shorter) behind
        obtain ⟨others, later⟩ := imports_returns p.rest
        simp only [later]
        exact ⟨_, rfl⟩
termination_by ts.length

/-- A reading of a scenario answers, with a report where there is no scenario, or stops for a
number without a whole part.
-/
def Answers (tokens : List (Token α)) (reports : β → List (Located SyntaxFinding))
    (scenario : β → Option (Scenario α)) (read : Except Fault β) : Prop :=
  match read with
  | .ok answer => scenario answer = none → reports answer ≠ []
  | .error fault => Overflows tokens fault

theorem scenarioBlock_answers (header : Span) (imports : List (Declaration α))
    (left : ts <:+ tokens)
    : Answers tokens Progress.reports Progress.value (scenarioBlock header imports ts) := by
  unfold scenarioBlock
  dsimp only
  split
  case h_1 => exact fun _ => List.cons_ne_nil _ _
  case h_2 t rest =>
    split
    case h_1 => exact fun _ => List.cons_ne_nil _ _
    case h_2 name _ =>
      split
      case h_1 => exact fun _ => List.cons_ne_nil _ _
      case h_2 u more =>
        split
        case isFalse => exact fun _ => List.cons_ne_nil _ _
        case isTrue =>
          have behind : more <:+ tokens :=
            ((List.suffix_cons u more).trans (List.suffix_cons t _)).trans left
          have items : FaultsOnly (Overflows tokens)
              (bodyItems name header ⟨.empty, imports⟩ more).attempt :=
            bodyItems_faults name header _ behind
          split
          case h_1 fault read => exact items fault read
          case h_2 => exact fun _ => by simp
          case h_3 =>
            intro none
            cases none

theorem file_answers (ts : List (Token α)) : Answers ts Prod.snd Prod.fst (file ts) := by
  obtain ⟨front, readImports⟩ := imports_returns ts
  obtain ⟨left, -⟩ := imports_yield (fun _ => True) (fun _ => trivial) readImports
  unfold file
  simp only [readImports]
  split
  case h_1 => exact fun _ => by simp
  case h_2 t rest remaining =>
    split
    case isFalse => exact fun _ => by simp
    case isTrue =>
      have behind : rest <:+ ts := (List.suffix_cons t rest).trans (remaining ▸ left)
      have block := scenarioBlock_answers t.span front.value behind
      split
      case h_1 fault read =>
        rw [read] at block
        exact block
      case h_2 progress read =>
        have reported : progress.value = none → progress.reports ≠ [] := by
          rw [read] at block
          exact block
        split
        case h_1 =>
          intro none
          cases none
        case h_2 =>
          exact fun none => List.append_ne_nil_of_right_ne_nil _ (reported none)

end Grammar

namespace SourceText

variable {α : Type} [Scalar α]

/-- Every text is read: there is a scenario, or an error is reported. Only a number of the text
that has no whole part can stop the reading, where a whole number or a date is asked for, as in
`endless_count_stops_reading`.
-/
theorem read_answers_or_overflows (source : String)
    : (∃ text : SourceText α, read source = .ok text
        ∧ (text.scenario = none → ∃ d ∈ text.diagnostics, d.isError = true))
      ∨ ((read source : Except Fault (SourceText α)) = .error .overflow
        ∧ ∃ t ∈ (TokenText.scan source : TokenText α).tokens, t.IsUnbounded) := by
  have answers := Grammar.file_answers (TokenText.scan source : TokenText α).tokens
  unfold read
  dsimp only
  split
  case h_1 fault readFile =>
    rw [readFile] at answers
    obtain ⟨rfl, unbounded⟩ := answers
    exact Or.inr ⟨rfl, unbounded⟩
  case h_2 scenario reports readFile =>
    rw [readFile] at answers
    refine Or.inl ⟨_, rfl, fun none => ?_⟩
    obtain ⟨l, reported⟩ := List.exists_mem_of_ne_nil _ (answers none)
    exact ⟨l.ofGrammar _, List.mem_append_right _ (List.mem_map_of_mem reported), rfl⟩

/-- A count of runs beyond the range of numbers stops the reading of its text, and neither a
scenario nor a report comes of it.
-/
theorem endless_count_stops_reading
    : (read "scenario \"s\" \x7b simulate \x7b runs: 1e999 \x7d \x7d"
        : Except Fault (SourceText Extended)) = .error .overflow := by
  cbv

end SourceText

end Prognosis
