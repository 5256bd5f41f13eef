import Prognosis.Proofs.Grammar.Imports
import Prognosis.Proofs.Token.Alone

/-! Scenarios that are laid out anew. Where nothing is wrong, a scenario is the same however its
tokens are spread over lines and columns, and whatever comments stand between them. Only where a
property is unknown do lines decide how much is passed over, and then something is reported.
-/

namespace Prognosis

namespace Grammar

variable {α : Type}

-----------------------------------------------------------------------------------------
-- Tokens of the same content
-----------------------------------------------------------------------------------------

/-- Tokens that are the same but for their places are those of the one row at places of the other
one. By induction on the tokens.
-/
theorem moved_of_content {ts ts' : List (Token α)}
    (same : ts'.map Token.content = ts.map Token.content)
    : Moved ts ts' := by
  induction ts generalizing ts' with
  | nil =>
      obtain rfl := List.map_eq_nil_iff.mp same
      exact .nil
  | cons t ts ih =>
      obtain ⟨t', ts', rfl, first, others⟩ := List.map_eq_cons_iff.mp same
      obtain ⟨kind, text⟩ := Prod.mk.inj first
      have is : t' = t.movedTo t'.span := by
        rw [Token.movedTo, ← kind, ← text]
      rw [is]
      exact .cons t t'.span (ih others)

section Files

variable [Scalar α]

/-- A file of which nothing is reported holds the same scenario, up to places, wherever its tokens
stand.
-/
theorem file_carried {ts ts' : List (Token α)} (moved : Moved ts ts') {s : Scenario α}
    (read : file ts = .ok (some s, []))
    : ∃ s', file ts' = .ok (some s', []) ∧ s'.unplaced = s.unplaced := by
  obtain ⟨front, keyword, after, left, first, silent, behind, isKeyword, body, ended⟩ :=
    file_reads_iff.mp read
  obtain ⟨front', first', given, rest, asMany⟩ := imports_carried moved first
  rw [← List.nil_append front.value] at given
  have silent' : front'.reports = [] := by
    rw [silent] at asMany
    exact List.length_eq_zero_iff.mp asMany
  rw [behind] at rest
  generalize behind' : front'.rest = rest' at rest
  cases rest with
  | cons _ span others =>
      obtain ⟨s', left', body', name, metadata, declarations, moved⟩ :=
        scenarioBlock_carried span given others body
      have ended' : skipSeparators left' = [] := by
        have skipped := moved.skipSeparators
        rw [ended] at skipped
        generalize skipSeparators left' = us at skipped
        cases skipped
        rfl
      refine ⟨s', file_reads_iff.mpr ⟨front', _, _, left', first', silent', behind', isKeyword,
        body', ended'⟩, ?_⟩
      rw [Scenario.unplaced, Scenario.unplaced, name, metadata, declarations, List.nil_append]

/-- Two rows of tokens that are the same but for their places: where nothing is reported of the one,
nothing is reported of the other, and both hold the same scenario up to places.

Witness: `file_on_one_line`
-/
theorem file_eq_up_to_places {ts ts' : List (Token α)}
    (same : ts'.map Token.content = ts.map Token.content) {scenario : Option (Scenario α)}
    (read : file ts = .ok (scenario, []))
    : ∃ scenario', file ts' = .ok (scenario', [])
      ∧ scenario'.map Scenario.unplaced = scenario.map Scenario.unplaced := by
  cases scenario with
  | none =>
      have reported := file_answers ts
      rw [read] at reported
      exact (reported rfl rfl).elim
  | some s =>
      obtain ⟨s', read', alike⟩ := file_carried (moved_of_content same) read
      exact ⟨some s', read', congrArg some alike⟩

/-- A scenario on three lines is the same on one. -/
theorem file_on_one_line
    : ∃ scenario,
        file (TokenText.scan "scenario \"s\" \x7b simulate \x7b runs: 5 \x7d \x7d").tokens
            = .ok (scenario, [])
          ∧ scenario.map Scenario.unplaced
            = some (⟨"s", .empty,
                [.simulate ⟨some 5, none, none, none, none, none, none, .nowhere⟩],
                .nowhere⟩ : Scenario Int) := by
  have lines : file (TokenText.scan
      "scenario \"s\" \x7b // five\n  simulate \x7b\n    runs: 5 \x7d \x7d").tokens
      = .ok (some (⟨"s", .empty,
          [.simulate ⟨some 5, none, none, none, none, none, none, ⟨2, 3⟩⟩],
          ⟨1, 1⟩⟩ : Scenario Int), []) := by
    cbv
  exact file_eq_up_to_places (by cbv) lines

/-- Layout has a meaning where something is reported: what is behind an unknown property is read on
a line of its own, and passed over on the same line.
-/
theorem file_by_lines
    : let lines := (TokenText.scan "scenario \"s\" \x7b simulate \x7b run: 5\nruns: 5 \x7d \x7d"
        : TokenText Int).tokens
      let oneLine := (TokenText.scan "scenario \"s\" \x7b simulate \x7b run: 5 runs: 5 \x7d \x7d"
        : TokenText Int).tokens
      let scenario (runs : Option Int) : Scenario Int :=
        ⟨"s", .empty, [.simulate ⟨runs, none, none, none, none, none, none, ⟨1, 16⟩⟩], ⟨1, 1⟩⟩
      let report : Located SyntaxFinding := ⟨.unknownProperty "run" "simulate block", some ⟨1, 27⟩⟩
      oneLine.map Token.content = lines.map Token.content
        ∧ file lines = .ok (some (scenario (some 5)), [report])
        ∧ file oneLine = .ok (some (scenario none), [report]) := by
  refine ⟨by cbv, by cbv, by cbv⟩

end Files

end Grammar

namespace SourceText

variable {α : Type} [Scalar α]

/-- A text that is cut into its tokens without findings, and these tokens on lines of their own. The
new text is cut into the same tokens without findings, without the comments and the layout of the
first one. Where nothing is wrong with the scenario of the first text either, the new one holds the
same scenario up to places.

Witness: `read_one_token_a_line`
-/
theorem read_relaid {source : String}
    (clean : (TokenText.scan source : TokenText α).findings = [])
    : let relaid := (TokenText.scan source : TokenText α).relaid
      (TokenText.scan relaid : TokenText α).findings = []
        ∧ (TokenText.scan relaid : TokenText α).tokens.map Token.content
          = (TokenText.scan source : TokenText α).tokens.map Token.content
        ∧ ∀ s : Scenario α, read source = .ok ⟨some s, []⟩
          → ∃ s', read relaid = .ok ⟨some s', []⟩ ∧ s'.unplaced = s.unplaced := by
  intro relaid
  obtain ⟨silent, same⟩ := TokenText.scan_relaid clean
  refine ⟨silent, same, fun s whole => ?_⟩
  obtain ⟨s', file, alike⟩ :=
    Grammar.file_carried (Grammar.moved_of_content same) (file_of_clean whole)
  refine ⟨s', ?_, alike⟩
  rw [read_of_file file, silent]
  rfl

/-- A scenario with a comment is the same with each token on its own line. -/
theorem read_one_token_a_line
    : ∃ s, read "scenario\n\"s\"\n\x7b\nsimulate\n\x7b\nruns\n:\n5\n\x7d\n\x7d"
          = .ok ⟨some s, []⟩
        ∧ s.unplaced = (⟨"s", .empty,
            [.simulate ⟨some 5, none, none, none, none, none, none, .nowhere⟩],
            .nowhere⟩ : Scenario Int) := by
  have relaid
      : (TokenText.scan "scenario \"s\" \x7b simulate\x7bruns:5/* five */\x7d \x7d"
          : TokenText Int).relaid
        = "scenario\n\"s\"\n\x7b\nsimulate\n\x7b\nruns\n:\n5\n\x7d\n\x7d" := by
    cbv
  have whole : read "scenario \"s\" \x7b simulate\x7bruns:5/* five */\x7d \x7d"
      = .ok ⟨some (⟨"s", .empty,
          [.simulate ⟨some 5, none, none, none, none, none, none, ⟨1, 16⟩⟩],
          ⟨1, 1⟩⟩ : Scenario Int), []⟩ := by
    cbv
  have clean
      : (TokenText.scan "scenario \"s\" \x7b simulate\x7bruns:5/* five */\x7d \x7d"
          : TokenText Int).findings = [] := by
    cbv
  obtain ⟨-, -, same⟩ := read_relaid clean
  rw [relaid] at same
  exact same _ whole

end SourceText

end Prognosis
