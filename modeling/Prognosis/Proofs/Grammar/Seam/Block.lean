import Prognosis.Proofs.Entries
import Prognosis.Proofs.Grammar.Seam.Value

/-! Blocks at a seam. A block that does not end in front of the seam ends with the brace there, or
is unterminated. Where neither is the case, the block is read from both rows alike, with all that is
unknown or at fault in it.
-/

namespace Prognosis.Grammar

variable {α β γ σ : Type} {ts ts' : List (Token α)}

-----------------------------------------------------------------------------------------
-- Readings with reports
-----------------------------------------------------------------------------------------

/-- What is reported, and the value with the tokens that are left. -/
abbrev Told (α β : Type) :=
  List (Located SyntaxFinding) × Except Failure (β × List (Token α))

/-- Reads on after what was told, and tells of both. -/
def Told.andThen (x : Told α β) (next : β × List (Token α) → Told α γ) : Told α γ :=
  match x.2 with
  | .error e => (x.1, .error e)
  | .ok r => (x.1 ++ (next r).1, (next r).2)

namespace Told

theorem andThen_snd (x : Told α β) (k : β × List (Token α) → Told α γ)
    : (x.andThen k).2 = x.2.bind fun r => (k r).2 := by
  obtain ⟨reports, read⟩ := x
  cases read <;> rfl

theorem ok_of_andThen_ok {x : Told α β} {k : β × List (Token α) → Told α γ}
    {reports : List (Located SyntaxFinding)} {r : γ × List (Token α)}
    (read : x.andThen k = (reports, .ok r))
    : ∃ first, x.2 = .ok first ∧ reports = x.1 ++ (k first).1 ∧ (k first).2 = .ok r := by
  obtain ⟨told, result⟩ := x
  cases result with
  | error e => cases read
  | ok first =>
      simp only [Told.andThen, Prod.mk.injEq] at read
      exact ⟨first, rfl, read.1.symm, read.2⟩

end Told

/-- The reading without the proof that fewer tokens are left. -/
def Outcome.told (o : Outcome α β ts) : Told α β :=
  (o.reports, o.attempt.bare)

namespace Outcome

theorem told_afterToken (t : Token α) (o : Outcome α β ts) : (o.afterToken t).told = o.told := by
  rw [told, afterToken, Attempt.bare_afterToken, told]

theorem told_afterAttempt (a : Attempt α β ts)
    (next : β → (rest : List (Token α)) → Outcome α γ rest)
    : (afterAttempt a next).told = Told.andThen ([], a.bare) fun r => (next r.1 r.2).told := by
  cases a with
  | error e => rfl
  | ok p =>
      simp only [told, afterAttempt, Told.andThen, Attempt.bare_ok, List.nil_append]
      cases (next p.value p.rest).attempt <;> rfl

theorem told_afterSkipped (c : Continued α Unit ts) (o : Outcome α β c.rest)
    : (afterSkipped c o).told = o.told := by
  simp only [told, afterSkipped]
  cases o.attempt <;> rfl

theorem told_orRecover (t : Token α) (rest : List (Token α)) (record : β)
    (o : Outcome α β (t :: rest))
    : (orRecover t rest record o).told
      = match o.told with
        | (reports, .error (.finding found)) =>
            (reports ++ [found], .ok (record, recover 0 rest))
        | told => told := by
  obtain ⟨reports, attempt⟩ := o
  cases attempt with
  | ok p => rfl
  | error e => cases e <;> rfl

end Outcome

-----------------------------------------------------------------------------------------
-- Items of a block
-----------------------------------------------------------------------------------------

/-- One item of a block: one of its other items, a property of it, or one that is unknown. -/
def blockItem (form : BlockForm α σ) (record : σ) (t : Token α) (rest : List (Token α))
    : Outcome α σ (t :: rest) :=
  match form.extra record (t :: rest) with
  | some outcome => outcome
  | none =>
      match form.handler? t with
      | some handler => (handler record t rest).afterToken t
      | none =>
          ⟨[⟨.unknownProperty t.text form.owner, some t.span⟩],
            .ok ⟨record, afterProperty t.span.line 0 rest,
              Nat.lt_succ_of_le (afterProperty_length _ _ _)⟩⟩

/-- A block is its closing brace, or an item and what follows it. -/
theorem blockItems_told (form : BlockForm α σ) (record : σ) (ts : List (Token α))
    : (blockItems form record ts).told
      = match skipSeparators ts with
        | [] => ([], .error (.finding ⟨.unterminated form.owner, none⟩))
        | t :: rest =>
            if t.isSign .rbrace then ([], .ok (record, rest))
            else (blockItem form record t rest).told.andThen fun r =>
              (blockItems form r.1 r.2).told := by
  rw [blockItems]
  split
  case h_1 skipped =>
    simp only [skipped]
    rfl
  case h_2 t rest skipped =>
    simp only [skipped]
    split
    case isTrue => rfl
    case isFalse =>
      unfold blockItem
      cases form.extra record (t :: rest) with
      | some outcome =>
          obtain ⟨reports, attempt⟩ := outcome
          cases attempt with
          | error e => rfl
          | ok p =>
              simp only [Outcome.told, Told.andThen, Attempt.bare_ok]
              cases (blockItems form p.value p.rest).attempt <;> rfl
      | none =>
          cases form.handler? t with
          | some handler =>
              simp only [Outcome.told_afterToken]
              generalize handler record t rest = outcome
              obtain ⟨reports, attempt⟩ := outcome
              cases attempt with
              | error e => rfl
              | ok p =>
                  simp only [Outcome.told, Told.andThen, Attempt.bare_ok]
                  cases (blockItems form p.value p.rest).attempt <;> rfl
          | none =>
              simp only [Outcome.told, Told.andThen, Attempt.bare_ok]
              cases (blockItems form record (afterProperty t.span.line 0 rest)).attempt <;> rfl

namespace Seam

variable {seam : Seam α} {finished ends : List (Token α) → Prop}

-----------------------------------------------------------------------------------------
-- Readings with reports that agree
-----------------------------------------------------------------------------------------

/-- The readings agree where all that is reported of the first row is tolerated. -/
def AgreesTold (seam : Seam α) (finished : List (Token α) → Prop) (x x' : Told α β) : Prop :=
  (∀ l ∈ x.1, seam.tolerates l) → seam.Agrees finished x.2 x'.2

namespace AgreesTold

variable {x x' : Told α β}

theorem mono (agrees : seam.AgreesTold finished x x') (weaker : ∀ rest, finished rest → ends rest)
    : seam.AgreesTold ends x x' :=
  fun tolerated => (agrees tolerated).mono weaker

/-- Reads on after the same value at the same place, or where what follows agrees with anything. -/
theorem andThen {k k' : β × List (Token α) → Told α γ} (first : seam.AgreesTold finished x x')
    (ended : ∀ value rest, finished rest → ∀ y, seam.AgreesTold ends (k (value, rest)) y)
    (second : ∀ value rest rest', x.2 = .ok (value, rest) → seam.Meets rest rest'
      → seam.AgreesTold ends (k (value, rest)) (k' (value, rest')))
    : seam.AgreesTold ends (x.andThen k) (x'.andThen k') := by
  obtain ⟨reports, read⟩ := x
  obtain ⟨reports', read'⟩ := x'
  match read with
  | .error (.fault _) => exact fun _ => trivial
  | .error (.finding found) =>
      intro tolerated inside
      obtain ⟨found', rfl⟩ := first tolerated inside
      exact ⟨found', rfl⟩
  | .ok (value, rest) =>
      intro tolerated
      have told : ∀ l ∈ reports, seam.tolerates l := fun l is =>
        tolerated l (List.mem_append_left _ is)
      have later : ∀ l ∈ (k (value, rest)).1, seam.tolerates l := fun l is =>
        tolerated l (List.mem_append_right _ is)
      rcases first told with finished | ⟨rest', rfl, meets⟩
      · exact ended value rest finished _ later
      · exact second value rest rest' rfl meets later

end AgreesTold

/-- Either both readings may be made and agree, or none of them. -/
inductive AgreesMaybe (seam : Seam α) (finished : List (Token α) → Prop)
    : {ts ts' : List (Token α)} → Option (Outcome α β ts) → Option (Outcome α β ts') → Prop
  | none {ts ts' : List (Token α)}
    : AgreesMaybe seam finished (none : Option (Outcome α β ts)) (none : Option (Outcome α β ts'))
  | some {ts ts' : List (Token α)} {o : Outcome α β ts} {o' : Outcome α β ts'}
      (agrees : seam.AgreesTold finished o.told o'.told)
    : AgreesMaybe seam finished (some o) (some o')

/-- What reads with reports agrees on all rows of tokens that meet. -/
def RepeatsTold (seam : Seam α) (finished : List (Token α) → Prop)
    (reader : (ts : List (Token α)) → Outcome α β ts) : Prop :=
  ∀ ts ts', seam.Meets ts ts' → seam.AgreesTold finished (reader ts).told (reader ts').told

section Outcomes

variable {ts ts' : List (Token α)}

theorem agreesTold_silent {a : Attempt α β ts} {a' : Attempt α β ts'}
    (agrees : seam.Agrees finished a.bare a'.bare)
    : seam.AgreesTold finished (Outcome.silent a).told (Outcome.silent a').told :=
  fun _ => agrees

theorem AgreesTold.mapValue {o : Outcome α β ts} {o' : Outcome α β ts'}
    (agrees : seam.AgreesTold finished o.told o'.told) (f : β → γ)
    : seam.AgreesTold finished (o.mapValue f).told (o'.mapValue f).told :=
  fun tolerated => (agrees tolerated).mapValue f

theorem agreesTold_afterAttempt {a : Attempt α β ts} {a' : Attempt α β ts'}
    (first : seam.Agrees never a.bare a'.bare)
    {next next' : β → (rest : List (Token α)) → Outcome α γ rest}
    (second : ∀ value rest rest', seam.Meets rest rest'
      → seam.AgreesTold finished (next value rest).told (next' value rest').told)
    : seam.AgreesTold finished (Outcome.afterAttempt a next).told
        (Outcome.afterAttempt a' next').told := by
  rw [Outcome.told_afterAttempt, Outcome.told_afterAttempt]
  have agrees : seam.AgreesTold never ([], a.bare) ([], a'.bare) := fun _ => first
  exact agrees.andThen nofun fun value rest rest' _ meets => second value rest rest' meets

end Outcomes

-----------------------------------------------------------------------------------------
-- Tokens that are passed over
-----------------------------------------------------------------------------------------

section Skipping

variable {ts ts' : List (Token α)}

theorem skipSeparators_meets (meets : seam.Meets ts ts')
    : seam.Meets (skipSeparators ts) (skipSeparators ts') := by
  induction meets with
  | here =>
      rw [skipSeparators, skipSeparators,
        List.dropWhile_cons_of_neg (by simp [seam.closing_delimits.isSeparator]),
        List.dropWhile_cons_of_neg (by simp [seam.delimits.isSeparator])]
      exact .here
  | cons t meets ih =>
      by_cases separator : t.isSeparator = true
      case pos =>
        rw [skipSeparators, skipSeparators, List.dropWhile_cons_of_pos separator,
          List.dropWhile_cons_of_pos separator]
        exact ih
      case neg =>
        rw [skipSeparators, skipSeparators, List.dropWhile_cons_of_neg separator,
          List.dropWhile_cons_of_neg separator]
        exact .cons t meets

/-- An unknown property that is not over in front of the brace runs into it. -/
theorem afterProperty_meets (line : Nat) (depth : Int) (meets : seam.Meets ts ts')
    : seam.RunsOut (afterProperty line depth ts)
      ∨ seam.Meets (afterProperty line depth ts) (afterProperty line depth ts') := by
  induction meets generalizing depth with
  | here =>
      left
      rw [afterProperty]
      split
      case isTrue =>
        right
        rw [skipSeparators,
          List.dropWhile_cons_of_neg (by simp [seam.closing_delimits.isSeparator])]
      case isFalse => exact Or.inl rfl
  | cons t meets ih =>
      rw [afterProperty, afterProperty]
      split
      case isTrue => exact Or.inr (.cons t meets)
      case isFalse => exact ih _

/-- After a finding that is tolerated, reading resumes at the same place, or behind the brace. -/
theorem recover_meets {found : Located SyntaxFinding} (tolerated : seam.tolerates found)
    (depth : Nat) (meets : seam.Meets ts ts')
    : recover depth ts = [] ∨ seam.Meets (recover depth ts) (recover depth ts') := by
  induction meets generalizing depth with
  | here =>
      have brace : seam.closing.isSign .rbrace = true := Token.isSign_iff.mpr seam.closes
      have opens : seam.closing.isSign .lbrace = false :=
        seam.closing_delimits.isSign _ (by decide)
      rw [recover.eq_def]
      simp only [opens, brace, Bool.false_eq_true, if_false, if_true]
      rcases depth with _ | _ | depth
      case zero =>
        right
        have stays : recover 0 (seam.next :: seam.after) = seam.next :: seam.after := by
          simp only [recover, seam.delimits.isSign .lbrace (by decide), Bool.false_eq_true,
            if_false]
          rcases seam.delimits with is | ⟨is, keyword⟩
          · rw [if_pos (Token.isSign_iff.mpr is)]
          · rw [if_neg (by simp [Token.isSign, is]), if_pos]
            simp [resumesAt, Token.isAnyWord, is, keyword, (seam.apart found tolerated).1]
        rw [stays]
        exact .here
      all_goals exact Or.inl rfl
  | @cons t us us' meets ih =>
      have resumes : resumesAt t us' = resumesAt t us := by
        rw [resumesAt, resumesAt, meets.atSign .colon (by decide)]
      simp only [recover, resumes]
      split
      case isTrue => exact ih _
      case isFalse =>
        split
        case isTrue =>
          rcases depth with _ | _ | depth
          · exact Or.inr (.cons t meets)
          · exact Or.inr meets
          · exact ih _
        case isFalse =>
          split
          case isTrue => exact Or.inr (.cons t meets)
          case isFalse => exact ih _

end Skipping

-----------------------------------------------------------------------------------------
-- Blocks
-----------------------------------------------------------------------------------------

/-- A block is over for the comparison where the brace was taken for its own. -/
abbrev Exhausted (rest : List (Token α)) : Prop :=
  rest = []

/-- The reader of a property agrees on all rows of tokens that meet. -/
def HandlerRepeats (seam : Seam α) (handler : Handler α σ) : Prop :=
  ∀ record key, seam.RepeatsTold seam.RunsOut (handler record key)

/-- All readers of items in a block agree on rows of tokens that meet. -/
structure FormRepeats (seam : Seam α) (form : BlockForm α σ) : Prop where
  properties : ∀ property ∈ form.properties, seam.HandlerRepeats property.2
  extra
    : ∀ record t ts ts', seam.Meets ts ts'
        → seam.AgreesMaybe seam.RunsOut (form.extra record (t :: ts))
            (form.extra record (t :: ts'))

section Forms

variable {ts ts' : List (Token α)} {form : BlockForm α σ}

theorem FormRepeats.handler (repeats : seam.FormRepeats form) {t : Token α}
    {handler : Handler α σ} (found : form.handler? t = some handler)
    : seam.HandlerRepeats handler := by
  unfold BlockForm.handler? at found
  split at found
  case isFalse => cases found
  case isTrue => exact repeats.properties _ (Entries.mem_of_lookup found)

theorem blockItem_agrees (repeats : seam.FormRepeats form) (record : σ) (t : Token α)
    (meets : seam.Meets ts ts')
    : seam.AgreesTold seam.RunsOut (blockItem form record t ts).told
        (blockItem form record t ts').told := by
  have extra := repeats.extra record t ts ts' meets
  unfold blockItem
  generalize form.extra record (t :: ts) = other at extra ⊢
  generalize form.extra record (t :: ts') = other' at extra ⊢
  cases extra with
  | some agrees => exact agrees
  | none =>
      cases known : form.handler? t with
      | some handler =>
          simp only [Outcome.told_afterToken]
          exact repeats.handler known record t ts ts' meets
      | none =>
          intro _
          rcases afterProperty_meets t.span.line 0 meets with finished | meets
          · exact Or.inl finished
          · exact Or.inr ⟨_, rfl, meets⟩

/-- A block that runs out ends at the brace, or is unterminated. -/
theorem blockItems_runsOut (form : BlockForm α σ) (record : σ) {rest : List (Token α)}
    (finished : seam.RunsOut rest) (y : Told α σ)
    : seam.AgreesTold Exhausted (blockItems form record rest).told y := by
  rw [blockItems_told]
  rcases finished with rfl | last
  · exact fun _ => agrees_of_not_tolerated (fun tolerated => seam.placed _ tolerated rfl) _
  · have brace : seam.closing.isSign .rbrace = true := Token.isSign_iff.mpr seam.closes
    simp only [last, brace, if_true]
    exact fun _ => Or.inl rfl

/-- By induction on the number of tokens. -/
theorem blockItems_agrees (repeats : seam.FormRepeats form) (record : σ)
    {ts ts' : List (Token α)} (meets : seam.Meets ts ts')
    : seam.AgreesTold Exhausted (blockItems form record ts).told
        (blockItems form record ts').told := by
  have shorter := skipSeparators_length ts
  have skipped := skipSeparators_meets meets
  rw [blockItems_told form record ts, blockItems_told form record ts']
  generalize skipSeparators ts = us at shorter skipped
  generalize skipSeparators ts' = us' at skipped
  cases skipped with
  | here =>
      have brace : seam.closing.isSign .rbrace = true := Token.isSign_iff.mpr seam.closes
      simp only [brace, if_true]
      exact fun _ => Or.inl rfl
  | cons t meets =>
      dsimp only
      split
      case isTrue => exact fun _ => agrees_ok meets
      case isFalse =>
        refine (blockItem_agrees repeats record t meets).andThen
          (fun value rest finished y => blockItems_runsOut form value finished y)
          fun value rest rest' read meets => ?_
        have fewer := Attempt.length_lt_of_bare read
        exact blockItems_agrees repeats value meets
termination_by ts.length
decreasing_by exact Nat.lt_of_lt_of_le fewer shorter

theorem block_repeats (repeats : seam.FormRepeats form) (record : σ)
    : seam.RepeatsTold Exhausted (block form record) := by
  intro ts ts' meets
  exact agreesTold_afterAttempt (expectSign_agrees (by decide) _ meets)
    fun _ _ _ meets => blockItems_agrees repeats record meets

end Forms

end Seam

end Prognosis.Grammar
