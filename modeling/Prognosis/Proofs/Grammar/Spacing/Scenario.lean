import Prognosis.Proofs.Grammar.Relaid
import Prognosis.Proofs.Grammar.Spacing.Declaration

/-! Separators in a scenario. They may stand in front of every item of a block, behind the last one,
around imports and behind the scenario, or be missing there: where nothing is reported, the scenario
is the same.
-/

namespace Prognosis.Grammar

variable {α : Type} [Scalar α]

-----------------------------------------------------------------------------------------
-- The body
-----------------------------------------------------------------------------------------

/-- How a metadata entry is read, from the colon behind its key on. -/
def metadataTaking (body : Body α) (key : String) : Taking α (Body α) :=
  (takes (expectSign .colon "':'")).andThen fun _ =>
    (takes (metadataValue key body.metadata)).map fun m => { body with metadata := m }

theorem metadataValue_local {follows : List (Token α) → Prop} (key : String) (m : Metadata α)
    : (takes (metadataValue key m)).Local follows := by
  unfold metadataValue
  split
  all_goals simp only [takes_andThen, takes_mapValue]
  case h_1 =>
    exact date_local.then_anywhere fun _ => (expectSign_local _ _).then_anywhere fun _ =>
      date_local.map _
  case h_2 => exact (choice_local _ _ _).map _
  case h_3 => exact (number_local true).map _
  case h_4 => exact stringList_local.map _
  case h_5 | h_6 => exact wordOrString_local.map _
  all_goals exact quotedString_local.map _

theorem metadataTaking_local (body : Body α) (key : String)
    : (metadataTaking body key).Local anywhere :=
  (expectSign_local _ _).then_anywhere fun _ => (metadataValue_local _ _).map _

/-- How an item of the body of a scenario is read behind its first token. -/
def bodyTaking : ItemTaking α (Body α) :=
  fun body t ts next rest => (bodyItem body t ts).told = ([], .ok (next, rest))

/-- No word that declares something is the key of a metadata entry. -/
theorem declarationSpelling?_eq_none {key : String} (span : Span)
    (isKey : metadataKeys.contains key = true)
    : declarationSpelling? (α := α) key span = none := by
  unfold declarationSpelling?
  split
  case h_6 =>
    rw [Option.map_eq_none_iff]
    unfold quantitySpelling?
    split
    case h_5 => rfl
    all_goals exact absurd isKey (by decide)
  all_goals exact absurd isKey (by decide)

/-- An item of the body is a metadata entry or a declaration. -/
theorem bodyTaking_iff {body next : Body α} {t : Token α} {ts rest : List (Token α)}
    : bodyTaking body t ts next rest
      ↔ t.isAnyWord = true
        ∧ if metadataKeys.contains t.text = true then metadataTaking body t.text ts next rest
          else ((silently? (declaration? t.text t.span)).map fun d =>
            { body with declarations := body.declarations ++ [d] }) ts next rest := by
  rw [bodyTaking, bodyItem]
  cases word : t.isAnyWord with
  | false => simp [told_silent_iff, failHere]
  | true =>
      cases isKey : metadataKeys.contains t.text with
      | true =>
          have entry : metadataTaking body t.text = takes fun ts =>
              Attempt.andThen (expectSign .colon "':'" ts) fun _ more =>
                (metadataValue t.text body.metadata more).mapValue fun m =>
                  { body with metadata := m } := by
            simp only [takes_andThen, takes_mapValue]
            rfl
          cases colon : atSign ts .colon with
          | true => simp [entry, takes, told_silent_iff, Attempt.bare_afterToken]
          | false =>
              have unknown := declaration?_eq_none
                (declarationSpelling?_eq_none (α := α) t.span isKey) ts
              simp only [unknown, Bool.and_false, Bool.false_eq_true, if_false, if_true,
                told_silent_iff, true_and]
              refine iff_of_false (fun read => by cases read) ?_
              rintro ⟨_, _, first, -⟩
              obtain ⟨u, rfl, is⟩ := expectSign_takes_iff.mp first
              exact Bool.false_ne_true (colon.symm.trans is)
      | false =>
          simp only [Bool.and_false, Bool.false_and, Bool.false_eq_true, if_false, if_true,
            true_and, Taking.map, silently?]
          cases declaration? t.text t.span ts with
          | none => simp [told_silent_iff, failHere]
          | some outcome => simp [Outcome.told_afterToken, told_mapValue_iff]

/-- How what is nested in the body of a scenario is spelled: its declarations. -/
def bodyInner : Body α → Token α → Option (Spelling α (Body α)) :=
  declaredInner declarationSpelling? fun body d =>
    { body with declarations := body.declarations ++ [d] }

theorem bodyTaking_elastic (body : Body α) (t : Token α)
    : Elastic anywhere (bodyTaking body t) (spelledBy bodyTaking bodyInner body t) := by
  refine declaredInner_elastic (fun word spelling known => ?_) (fun unknown => ?_) trivial
  · have noKey : ¬metadataKeys.contains t.text = true := by
      intro isKey
      rw [declarationSpelling?_eq_none t.span isKey] at known
      cases known
    have same : bodyTaking body t = (silently? (declaration? t.text t.span)).map fun d =>
        { body with declarations := body.declarations ++ [d] } := by
      funext ts next rest
      rw [bodyTaking_iff, if_neg noKey]
      exact propext (and_iff_right word)
    rw [same]
    exact (declaration_elastic known).map _
  · intro ts next rest read
    obtain ⟨word, read⟩ := bodyTaking_iff.mp read
    split at read
    case isTrue isKey =>
      obtain ⟨taken, rfl, again⟩ := metadataTaking_local body t.text ts next rest read
      refine ⟨taken, rfl, fun more may => bodyTaking_iff.mpr ⟨word, ?_⟩⟩
      rw [if_pos isKey]
      exact again more may
    case isFalse =>
      obtain ⟨_, ⟨_, known, -⟩, -⟩ := read
      rw [declaration?_eq_none (unknown word)] at known
      cases known

theorem bodyTaking_initial {body next : Body α} {t : Token α} {ts rest : List (Token α)}
    (read : bodyTaking body t ts next rest)
    : Initial t := by
  obtain ⟨word, read⟩ := bodyTaking_iff.mp read
  refine Or.inl ⟨word, fun goesOn => ?_⟩
  simp only [List.mem_cons, List.not_mem_nil, or_false] at goesOn
  have noKey : ¬metadataKeys.contains t.text = true := by
    rcases goesOn with is | is | is <;> rw [is] <;> decide
  rw [if_neg noKey] at read
  obtain ⟨_, ⟨_, known, -⟩, -⟩ := read
  rcases goesOn with is | is | is <;> rw [is] at known <;> cases known

theorem bodyItems_silently (name : String) (header : Span) (body : Body α)
    {opening : Token α} {ts rest : List (Token α)} {last : Body α}
    (opens : opening.isSign .lbrace = true)
    : (bodyItems name header body ts).told = ([], .ok (last, rest))
      ↔ bracedItems bodyTaking body (opening :: ts) last rest := by
  have same (body : Body α) (t : Token α)
      : silently (fun ts => (orRecover t ts body (bodyItem body t ts)).told)
        = bodyTaking body t := by
    funext ts next rest
    exact propext told_orRecover_iff
  have loop : (bodyItems name header body ts).told = ([], .ok (last, rest))
      ↔ ∃ closing, Run (fun body t => silently fun ts =>
          (orRecover t ts body (bodyItem body t ts)).told) Closes body ts last
            (closing :: rest) :=
    loop_silently (bodyItems_told name header) fun body t ts next rest read =>
      Nat.le_of_lt_succ (Attempt.length_lt_of_bare (congrArg Prod.snd read))
  simp only [same] at loop
  rw [loop]
  refine ⟨fun ⟨closing, run⟩ => ⟨opening, ts, closing, rfl, opens, run⟩, ?_⟩
  rintro ⟨_, _, closing, ⟨⟩, -, run⟩
  exact ⟨closing, run⟩

/-- How the body of a scenario is spelled. -/
def bodySpelling (body : Body α) : Spelling α (Body α) :=
  Braced (spelledBy bodyTaking bodyInner) body

theorem body_elastic (body : Body α)
    : Elastic anywhere (bracedItems bodyTaking body) (bodySpelling body) :=
  runs_elastic bodyTaking_elastic (fun _ _ _ _ _ read => bodyTaking_initial read)
    (fun _ _ _ _ _ => trivial) body

-----------------------------------------------------------------------------------------
-- Imports
-----------------------------------------------------------------------------------------

omit [Scalar α]

/-- How an import is read behind its keyword. -/
def importTaking : ItemTaking α (List (Declaration α)) :=
  fun given t ts next rest => t.isWord "import" = true
    ∧ ((takes (imported t.span)).map fun i => given ++ [.imported i]) ts next rest

/-- The token is no keyword of an import. -/
def EndsImports (t : Token α) : Prop :=
  ¬t.isWord "import" = true

/-- What stands in front of a token that is no import is read as imports. By induction on the number
of tokens, and along the imports.
-/
theorem imports_silently {given : List (Declaration α)} {ts more : List (Token α)} {t : Token α}
    : imports ts = .ok ⟨given, [], t :: more⟩
      ↔ Run importTaking EndsImports [] ts given (t :: more) := by
  constructor
  case mp =>
    suffices run : ∀ before, imports ts = .ok ⟨given, [], t :: more⟩
        → Run importTaking EndsImports before ts (before ++ given) (t :: more) from run []
    intro before read
    induction fewer : ts.length using Nat.strong_induction_on generalizing before given ts with
    | _ length ih =>
        have shorter := skipSeparators_length ts
        rw [imports_step] at read
        match skipped : skipSeparators ts with
        | [] => simp [skipped] at read
        | u :: after =>
            simp only [skipped, List.length_cons] at read shorter
            split at read
            case isFalse other =>
              cases read
              rw [List.append_nil]
              exact .stop skipped other
            case isTrue word =>
              match first : (imported u.span after).bare with
              | .error (.fault fault) => simp [first] at read
              | .error (.finding found) =>
                  cases later : imports (recover 0 after) <;>
                    simp [first, later, Except.map] at read
              | .ok (i, left) =>
                  match later : imports left with
                  | .error fault => simp [first, later, Except.map] at read
                  | .ok ⟨others, _, _⟩ =>
                      simp only [first, later, Except.map] at read
                      cases read
                      have less := Attempt.length_lt_of_bare first
                      have run := ih left.length (by omega) (before ++ [.imported i]) later rfl
                      rw [List.append_assoc] at run
                      exact .item skipped (not_not.mpr word) ⟨word, i, first, rfl⟩ run
  case mpr =>
    suffices read : ∀ before last, Run importTaking EndsImports before ts last (t :: more)
        → ∃ others, last = before ++ others ∧ imports ts = .ok ⟨others, [], t :: more⟩ by
      intro run
      obtain ⟨others, rfl, read⟩ := read [] given run
      exact read
    intro before last run
    generalize behind : t :: more = left at run
    induction run with
    | stop skipped ends =>
        cases behind
        refine ⟨[], (List.append_nil _).symm, ?_⟩
        rw [imports_step, skipped]
        exact if_neg ends
    | item skipped _ read _ ih =>
        obtain ⟨others, rfl, readOthers⟩ := ih behind
        obtain ⟨word, i, first, rfl⟩ := read
        refine ⟨.imported i :: others, List.append_assoc _ _ _, ?_⟩
        rw [imports_step, skipped]
        simp only [word, if_true]
        rw [first]
        simp only [readOthers]
        rfl

/-- How imports are spelled. -/
def importsSpelling : Spelling α (List (Declaration α)) :=
  fun p given => Row (fun before t => .solid (importTaking before t)) [] p given

theorem imports_elastic
    : Elastic (StopsHere EndsImports) (Run (importTaking (α := α)) EndsImports [])
        importsSpelling := by
  have each (given : List (Declaration α)) (t : Token α)
      : Elastic anywhere (importTaking given t) (.solid (importTaking given t)) := by
    refine .solid ?_ trivial
    rintro ts next rest ⟨word, read⟩
    obtain ⟨taken, rfl, again⟩ := (imported_local t.span).map _ ts next rest read
    exact ⟨taken, rfl, fun more may => ⟨word, again more may⟩⟩
  refine run_elastic each ?_ (fun _ _ _ _ _ => trivial) []
  rintro given t ts next rest ⟨word, -⟩
  exact ⟨by simp [Token.isSeparator, isSign_of_isWord word], not_not.mpr word⟩

-----------------------------------------------------------------------------------------
-- Files
-----------------------------------------------------------------------------------------

section Files

variable [Scalar α] {ts : List (Token α)} {s : Scenario α}

/-- How a file is spelled that holds a scenario. Slots are around its imports, around the items of
its body and of the blocks in there, and behind the scenario.
-/
inductive FileSpelling : Spelling α (Scenario α)
  | intro {front body : Template α} {given : List (Declaration α)} {keyword label : Token α}
      {s : Scenario α} (imports : importsSpelling front given)
      (isKeyword : keyword.isWord "scenario" = true) (placed : s.span = keyword.span)
      (isName : textValue? label = some s.name)
      (inside : bodySpelling ⟨.empty, given⟩ body ⟨s.metadata, s.declarations⟩)
    : FileSpelling (front ++ some keyword :: some label :: (body ++ [none])) s

/-- A file is read without a report where its tokens are spelled so, with any number of separators
in each slot.
-/
theorem file_spelled_iff
    : file ts = .ok (some s, []) ↔ ∃ p, FileSpelling p s ∧ Fills p ts := by
  constructor
  case mp =>
    intro read
    obtain ⟨front, keyword, after, left, first, silent, behind, isKeyword, block, ended⟩ :=
      file_reads_iff.mp read
    obtain ⟨placed, label, opening, more, rfl, isName, opens, inside⟩ :=
      scenarioBlock_reads_iff.mp block
    obtain ⟨given, _, _⟩ := front
    cases silent
    cases behind
    obtain ⟨p, imports, rfl, fills, spelled⟩ :=
      imports_elastic.spelled _ _ _ (imports_silently.mp first)
    obtain ⟨q, body, same, fillsBody, spelledBody⟩ :=
      (body_elastic _).spelled _ _ _ ((bodyItems_silently s.name keyword.span _ opens).mp inside)
    have gap : ∀ t ∈ left, t.isSeparator = true := List.dropWhile_eq_nil_iff.mp ended
    refine ⟨_, .intro spelled isKeyword placed isName spelledBody, fills.append ?_⟩
    rw [same]
    exact .token keyword (.token label (fillsBody.append (Fills.slot_iff.mpr gap)))
  case mpr =>
    rintro ⟨_, @⟨front, body, given, keyword, label, _, imports, isKeyword, placed, isName, inside⟩,
      fills⟩
    obtain ⟨us, _, rfl, filled, _ | ⟨_, _ | ⟨_, behind⟩⟩⟩ := fills.of_append
    obtain ⟨vs, gap, rfl, filledBody, filledGap⟩ := behind.of_append
    have separated := Fills.slot_iff.mp filledGap
    obtain ⟨opening, more, closing, same, opens, run⟩ :=
      (body_elastic _).sound body _ vs gap inside filledBody trivial
    have stops : EndsImports keyword := by
      intro import_
      simp only [Token.isWord, Bool.and_eq_true, beq_iff_eq] at isKeyword import_
      exact absurd (isKeyword.2.symm.trans import_.2) (by decide)
    have plain : keyword.isSeparator = false := by
      simp [Token.isSeparator, isSign_of_isWord isKeyword]
    have first := imports_elastic.sound front given us
      (keyword :: label :: (vs ++ gap)) imports filled ⟨keyword, _, rfl, stops, plain⟩
    rw [same] at first ⊢
    have told := (bodyItems_silently s.name keyword.span _ opens).mpr
      ⟨opening, more, closing, rfl, opens, run⟩
    have block : scenarioBlock keyword.span given (label :: opening :: more)
        = .ok ⟨some s, [], gap⟩ :=
      scenarioBlock_reads_iff.mpr ⟨placed, label, opening, more, rfl, isName, opens, told⟩
    exact file_reads_iff.mpr ⟨_, keyword, _, gap, imports_silently.mpr first, rfl, rfl, isKeyword,
      block, List.dropWhile_eq_nil_iff.mpr separated⟩

/-- A file of which nothing is reported holds a scenario, and its tokens are spelled with slots
around each item of a block. With any other number of separators in these slots, and wherever the
tokens stand then, nothing is reported either and the scenario is the same up to places.

Witness: `file_separated`
-/
theorem file_respaced {scenario : Option (Scenario α)} (read : file ts = .ok (scenario, []))
    : ∃ s, scenario = some s ∧ (∃ p, FileSpelling p s ∧ Fills p ts)
      ∧ ∀ p, FileSpelling p s → ∀ ts', Fills p ts'
        → file ts' = .ok (some s, [])
          ∧ ∀ ts'', ts''.map Token.content = ts'.map Token.content
            → ∃ s', file ts'' = .ok (some s', []) ∧ s'.unplaced = s.unplaced := by
  cases scenario with
  | none =>
      have reported := file_answers ts
      rw [read] at reported
      exact (reported rfl rfl).elim
  | some s =>
      refine ⟨s, rfl, file_spelled_iff.mp read, fun p spelled ts' fills => ?_⟩
      have again : file ts' = .ok (some s, []) := file_spelled_iff.mpr ⟨p, spelled, fills⟩
      exact ⟨again, fun ts'' same => file_carried (moved_of_content same) again⟩

end Files

/-- A word at no place. -/
def unplacedWord (text : String) : Token Int :=
  ⟨.word, text, .nowhere⟩

/-- A sign at no place. -/
def unplacedSign (sign : Sign) : Token Int :=
  ⟨.sign sign, sign.text, .nowhere⟩

/-- A quoted text at no place. -/
def unplacedText (text : String) : Token Int :=
  ⟨.text text, "\"" ++ text ++ "\"", .nowhere⟩

/-- An impact behind its keyword, with slots around its two properties. -/
def impactTemplate : Template Int :=
  some (unplacedWord "i") :: some (unplacedSign .lbrace)
    :: ([none, some (unplacedWord "derives_from"), some (unplacedSign .colon),
        some (unplacedWord "a"), some (unplacedSign .comma), some (unplacedWord "b"),
        none, some (unplacedWord "label"), some (unplacedSign .colon), some (unplacedText "x"),
        none]
      ++ [some (unplacedSign .rbrace)])

/-- A scenario with the impact, with slots around all its items. -/
def scenarioTemplate : Template Int :=
  [none] ++ some (unplacedWord "scenario") :: some (unplacedText "s")
    :: (some (unplacedSign .lbrace)
        :: ((none :: some (unplacedWord "impact") :: (impactTemplate ++ [none]))
          ++ [some (unplacedSign .rbrace)])
      ++ [none])

/-- The impact whose properties are given. -/
def impactOf (derivesFrom : List Path) (label : Option String) : Impact Int :=
  ⟨"i", derivesFrom, none, none, none, label, none, none, .nowhere⟩

/-- The scenario that is spelled by the template. -/
def impactScenario : Scenario Int :=
  ⟨"s", .empty, [.quantity (.impact (impactOf [⟨"a", []⟩, ⟨"b", []⟩] (some "x")))], .nowhere⟩

theorem scenarioTemplate_spells : FileSpelling scenarioTemplate impactScenario := by
  have derives : (impactForm "i").item (impactOf [] none) (unplacedWord "derives_from")
      [unplacedSign .colon, unplacedWord "a", unplacedSign .comma, unplacedWord "b"]
      (impactOf [⟨"a", []⟩, ⟨"b", []⟩] none) [] := by
    change Outcome.told _ = _
    cbv
  have label : (impactForm "i").item (impactOf [⟨"a", []⟩, ⟨"b", []⟩] none) (unplacedWord "label")
      [unplacedSign .colon, unplacedText "x"]
      (impactOf [⟨"a", []⟩, ⟨"b", []⟩] (some "x")) [] := by
    change Outcome.told _ = _
    cbv
  have name : takes identifier [unplacedWord "i"] "i" [] := by
    change Attempt.bare _ = _
    cbv
  have impact : headed identifier (fun name => spelledBy (impactForm name).item noSlots)
      (fun name => ⟨name, [], none, none, none, none, none, none, (unplacedWord "impact").span⟩)
      impactTemplate (impactOf [⟨"a", []⟩, ⟨"b", []⟩] (some "x")) :=
    ⟨"i", [some (unplacedWord "i")], _, rfl, ⟨_, rfl, name⟩, .intro (by decide)
      (.cons (spelledBy_solid rfl derives) (.cons (spelledBy_solid rfl label) (.nil _)))
      (by decide)⟩
  have declared : spelledBy bodyTaking bodyInner ⟨.empty, []⟩ (unplacedWord "impact")
      impactTemplate ⟨.empty, impactScenario.declarations⟩ :=
    spelledBy_inner rfl ⟨_, ⟨_, ⟨_, impact, rfl⟩, rfl⟩, rfl⟩
  exact .intro (.nil []) rfl rfl rfl (.intro rfl (.cons declared (.nil _)) rfl)

/-- Names with a comma between them, properties with semicolons and commas around them: the scenario
is the same as without separators.
-/
theorem file_separated
    : ∃ s, file (TokenText.scan
            "scenario \"s\" \x7b , impact i \x7b derives_from: a, b; , label: \"x\", \x7d ; \x7d ,"
          ).tokens = .ok (some s, [])
        ∧ s.unplaced = impactScenario := by
  have dense : file [unplacedWord "scenario", unplacedText "s", unplacedSign .lbrace,
      unplacedWord "impact", unplacedWord "i", unplacedSign .lbrace, unplacedWord "derives_from",
      unplacedSign .colon, unplacedWord "a", unplacedSign .comma, unplacedWord "b",
      unplacedWord "label", unplacedSign .colon, unplacedText "x", unplacedSign .rbrace,
      unplacedSign .rbrace]
      = .ok (some impactScenario, []) := by
    cbv
  have separated {gap : List (Token Int)} (is : gap.all (·.isSeparator) = true)
      : ∀ t ∈ gap, t.isSeparator = true :=
    List.all_eq_true.mp is
  have fills : Fills scenarioTemplate
      ([] ++ unplacedWord "scenario" :: unplacedText "s" :: unplacedSign .lbrace
        :: ([unplacedSign .comma] ++ unplacedWord "impact" :: unplacedWord "i"
          :: unplacedSign .lbrace :: ([] ++ unplacedWord "derives_from" :: unplacedSign .colon
            :: unplacedWord "a" :: unplacedSign .comma :: unplacedWord "b"
            :: ([unplacedSign .semicolon, unplacedSign .comma] ++ unplacedWord "label"
              :: unplacedSign .colon :: unplacedText "x"
              :: ([unplacedSign .comma] ++ unplacedSign .rbrace
                :: ([unplacedSign .semicolon] ++ unplacedSign .rbrace
                  :: ([unplacedSign .comma] ++ []))))))) :=
    .slot (separated rfl) (.token _ (.token _ (.token _
      (.slot (separated rfl) (.token _ (.token _ (.token _
        (.slot (separated rfl) (.token _ (.token _ (.token _ (.token _ (.token _
          (.slot (separated rfl) (.token _ (.token _ (.token _
            (.slot (separated rfl) (.token _
              (.slot (separated rfl) (.token _ (.slot (separated rfl) .nil))))))))))))))))))))))
  obtain ⟨_, ⟨⟩, -, again⟩ := file_respaced dense
  exact (again scenarioTemplate scenarioTemplate_spells _ fills).2 _ (by cbv)

end Prognosis.Grammar
