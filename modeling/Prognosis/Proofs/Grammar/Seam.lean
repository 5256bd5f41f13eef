import Prognosis.Grammar.Declaration
import Prognosis.Proofs.Grammar.Reading

/-! Two rows of tokens that begin alike. The first one ends with a closing brace, and the other one
goes on there with a closing brace or a declaration. What readers take from both of them is the
same, unless they look behind the brace or ask for a name in its place; what follows a declaration
therefore does not change how it is read.
-/

namespace Prognosis

-----------------------------------------------------------------------------------------
-- Tokens at a seam
-----------------------------------------------------------------------------------------

/-- The finding asks for a word, so that a keyword of a declaration would answer it. -/
def SyntaxFinding.AsksForWord (finding : SyntaxFinding) : Prop :=
  ∃ what found, finding = .expected what found ∧ what ∈ ["a name", "an expression"]

namespace Token

variable {α : Type} {t : Token α}

/-- The token is a keyword of a declaration. -/
def IsKeyword (t : Token α) : Prop :=
  t.kind = .word ∧ t.text ∈ Grammar.declarationKeywords

/-- The token closes a block or starts a declaration. -/
def Delimits (t : Token α) : Prop :=
  t.kind = .sign .rbrace ∨ t.IsKeyword

theorem isSign_eq_false {sign : Sign} (other : t.kind ≠ .sign sign) : t.isSign sign = false :=
  Bool.eq_false_iff.mpr fun is => other (isSign_iff.mp is)

namespace Delimits

theorem isSign (delimits : t.Delimits) (sign : Sign) (other : sign ≠ .rbrace)
    : t.isSign sign = false := by
  apply isSign_eq_false
  rcases delimits with is | ⟨is, -⟩
  · rw [is]
    simpa using other.symm
  · rw [is]
    exact nofun

theorem isWord (delimits : t.Delimits) {word : String}
    (other : word ∉ Grammar.declarationKeywords)
    : t.isWord word = false := by
  rcases delimits with is | ⟨-, keyword⟩
  · simp [Token.isWord, isAnyWord, is]
  · rw [Token.isWord, Bool.and_eq_false_iff]
    right
    rw [beq_eq_false_iff_ne]
    rintro rfl
    exact other keyword

theorem isSeparator (delimits : t.Delimits) : t.isSeparator = false := by
  simp [Token.isSeparator, delimits.isSign]

end Delimits

end Token

namespace Grammar

variable {α β γ : Type}

/-- What stands at a seam: the closing brace that ends one row of tokens, what the other row goes on
with instead, and the findings that are tolerated. These stand in front of the end of the first
row and ask for no word at the brace; where there are any, what follows the keyword of the
declaration makes neither a property nor an argument of it.
-/
structure Seam (α : Type) where
  closing : Token α
  next : Token α
  after : List (Token α)
  tolerates : Located SyntaxFinding → Prop
  closes : closing.kind = .sign .rbrace
  delimits : next.Delimits
  placed : ∀ l, tolerates l → l.span ≠ none
  unasked : ∀ l, tolerates l → l.finding.AsksForWord → l.span ≠ some closing.span
  apart
    : ∀ l, tolerates l
        → atSign after .colon = false ∧ atSign after .assign = false ∧ atSign after .eq = false

namespace Seam

variable {seam : Seam α}

/-- The rows of tokens are the same up to the seam. -/
inductive Meets (seam : Seam α) : List (Token α) → List (Token α) → Prop
  | here : Meets seam [seam.closing] (seam.next :: seam.after)
  | cons (t : Token α) {ts ts' : List (Token α)} (meets : Meets seam ts ts')
    : Meets seam (t :: ts) (t :: ts')

theorem closing_delimits (seam : Seam α) : seam.closing.Delimits :=
  Or.inl seam.closes

theorem meets_append (seam : Seam α) (common : List (Token α))
    : seam.Meets (common ++ [seam.closing]) (common ++ seam.next :: seam.after) := by
  induction common with
  | nil => exact .here
  | cons t common ih => exact .cons t ih

theorem Meets.length_pos {ts ts' : List (Token α)} (meets : seam.Meets ts ts')
    : 0 < ts.length := by
  cases meets <;> exact Nat.succ_pos _

/-- Signs other than closing braces stand at the start of both rows or of none. -/
theorem Meets.atSign {ts ts' : List (Token α)} (meets : seam.Meets ts ts') (sign : Sign)
    (other : sign ≠ .rbrace)
    : Grammar.atSign ts' sign = Grammar.atSign ts sign := by
  cases meets with
  | here => exact (seam.delimits.isSign _ other).trans (seam.closing_delimits.isSign _ other).symm
  | cons t meets => rfl

end Seam

-----------------------------------------------------------------------------------------
-- Readings without proofs
-----------------------------------------------------------------------------------------

variable {ts ts' : List (Token α)}

/-- The value and the tokens that are left. -/
def Attempt.bare (a : Attempt α β ts) : Except Failure (β × List (Token α)) :=
  a.map fun p => (p.value, p.rest)

/-- The same for what may have been read from no token at all. -/
def bare (a : Except Failure (Continued α β ts)) : Except Failure (β × List (Token α)) :=
  a.map fun p => (p.value, p.rest)

namespace Attempt

@[simp]
theorem bare_error {e : Failure} : bare (.error e : Attempt α β ts) = .error e := rfl

@[simp]
theorem bare_ok {p : Parsed α β ts} : bare (.ok p) = .ok (p.value, p.rest) := rfl

theorem length_lt_of_bare {a : Attempt α β ts} {value : β} {rest : List (Token α)}
    (read : a.bare = .ok (value, rest))
    : rest.length < ts.length := by
  cases a with
  | error e => cases read
  | ok p =>
      cases read
      exact p.shorter

theorem bare_mapValue (a : Attempt α β ts) (f : β → γ)
    : (a.mapValue f).bare = a.bare.map fun r => (f r.1, r.2) := by
  cases a <;> rfl

theorem bare_afterToken (t : Token α) (a : Attempt α β ts) : (a.afterToken t).bare = a.bare := by
  cases a <;> rfl

theorem bare_andThen (a : Attempt α β ts)
    (next : β → (rest : List (Token α)) → Attempt α γ rest)
    : (a.andThen next).bare = a.bare.bind fun r => (next r.1 r.2).bare := by
  cases a with
  | error e => rfl
  | ok p =>
      simp only [andThen, bare_ok, Except.bind]
      cases next p.value p.rest <;> rfl

theorem bare_andMaybe (a : Attempt α β ts)
    (next : β → (rest : List (Token α)) → Except Failure (Continued α γ rest))
    : (a.andMaybe next).bare = a.bare.bind fun r => Grammar.bare (next r.1 r.2) := by
  cases a with
  | error e => rfl
  | ok p =>
      simp only [andMaybe, bare_ok, Except.bind]
      cases next p.value p.rest <;> rfl

theorem left_mapValue {ts : List (Token α)} (a : Attempt α β ts) (f : β → γ)
    : (a.mapValue f).bare.map Prod.snd = a.bare.map Prod.snd := by
  cases a <;> rfl

theorem left_andThen {ts : List (Token α)} (a : Attempt α β ts)
    (next : β → (rest : List (Token α)) → Attempt α γ rest)
    : (a.andThen next).bare.map Prod.snd
      = a.bare.bind fun r => (next r.1 r.2).bare.map Prod.snd := by
  rw [bare_andThen]
  cases a.bare <;> rfl

end Attempt

@[simp]
theorem bare_error {e : Failure} : bare (.error e : Except Failure (Continued α β ts)) = .error e :=
  rfl

@[simp]
theorem bare_ok {p : Continued α β ts} : bare (.ok p) = .ok (p.value, p.rest) := rfl

-----------------------------------------------------------------------------------------
-- Readings that agree
-----------------------------------------------------------------------------------------

namespace Seam

variable {seam : Seam α} {finished : List (Token α) → Prop}

/-- The reading of the first row, if it is over neither by what it leaves nor by a finding that is
not tolerated, is repeated on the other row: the same value is read up to the same place, or the
other row is at fault as well.
-/
def Agrees (seam : Seam α) (finished : List (Token α) → Prop)
    (a a' : Except Failure (β × List (Token α))) : Prop :=
  match a with
  | .ok (value, rest) => finished rest ∨ ∃ rest', a' = .ok (value, rest') ∧ seam.Meets rest rest'
  | .error (.finding found) => seam.tolerates found → ∃ found', a' = .error (.finding found')
  | .error (.fault _) => True

/-- No rest of the first row ends the comparison. -/
def never : List (Token α) → Prop :=
  fun _ => False

theorem agrees_ok {value : β} {rest rest' : List (Token α)} (meets : seam.Meets rest rest')
    : seam.Agrees finished (.ok (value, rest)) (.ok (value, rest')) :=
  Or.inr ⟨rest', rfl, meets⟩

theorem agrees_finding {found found' : Located SyntaxFinding}
    : seam.Agrees finished (.error (.finding found) : Except Failure (β × List (Token α)))
        (.error (.finding found')) :=
  fun _ => ⟨found', rfl⟩

theorem agrees_of_not_tolerated {found : Located SyntaxFinding} (not : ¬seam.tolerates found)
    (a' : Except Failure (β × List (Token α)))
    : seam.Agrees finished (.error (.finding found)) a' :=
  fun tolerated => absurd tolerated not

theorem agrees_of_intolerant (intolerant : ¬∃ l, seam.tolerates l) (e : Failure)
    (a' : Except Failure (β × List (Token α)))
    : seam.Agrees finished (.error e) a' := by
  cases e with
  | finding found => exact agrees_of_not_tolerated (fun tolerated => intolerant ⟨_, tolerated⟩) a'
  | fault _ => trivial

variable {a a' : Except Failure (β × List (Token α))}

/-- Nothing is read from the closing brace alone by readers that agree there. -/
theorem Agrees.error_here {a : Attempt α β [seam.closing]} (agrees : seam.Agrees never a.bare a')
    : ∃ e, a = .error e := by
  cases a with
  | error e => exact ⟨e, rfl⟩
  | ok p =>
      rcases agrees with ends | ⟨rest', -, meets⟩
      · exact ends.elim
      · exact absurd p.shorter (Nat.not_lt_of_le meets.length_pos)

theorem Agrees.mono {ends : List (Token α) → Prop} (agrees : seam.Agrees finished a a')
    (weaker : ∀ rest, finished rest → ends rest)
    : seam.Agrees ends a a' := by
  match a, agrees with
  | .ok _, .inl finished => exact .inl (weaker _ finished)
  | .ok _, .inr meets => exact .inr meets
  | .error (.finding _), faulty => exact faulty
  | .error (.fault _), _ => trivial

theorem Agrees.weaken (agrees : seam.Agrees never a a') : seam.Agrees finished a a' :=
  agrees.mono nofun

/-- Reads on after the same value at the same place. -/
theorem Agrees.bind {k k' : β × List (Token α) → Except Failure (γ × List (Token α))}
    (first : seam.Agrees never a a')
    (second : ∀ value rest rest', a = .ok (value, rest) → seam.Meets rest rest'
      → seam.Agrees finished (k (value, rest)) (k' (value, rest')))
    : seam.Agrees finished (a.bind k) (a'.bind k') := by
  match a, first with
  | .ok (value, rest), .inr ⟨rest', same, meets⟩ =>
      rw [same]
      exact second value rest rest' rfl meets
  | .error (.finding found), faulty =>
      intro tolerated
      obtain ⟨found', same⟩ := faulty tolerated
      exact ⟨found', by rw [same]; rfl⟩
  | .error (.fault _), _ => trivial

theorem Agrees.map (agrees : seam.Agrees finished a a') (f : β → γ)
    : seam.Agrees finished (a.map fun r => (f r.1, r.2)) (a'.map fun r => (f r.1, r.2)) := by
  match a, agrees with
  | .ok _, .inl ends => exact .inl ends
  | .ok _, .inr ⟨rest', same, meets⟩ => exact .inr ⟨rest', by rw [same]; rfl, meets⟩
  | .error (.finding _), faulty =>
      intro tolerated
      obtain ⟨found', same⟩ := faulty tolerated
      exact ⟨found', by rw [same]; rfl⟩
  | .error (.fault _), _ => trivial

theorem Agrees.mapValue {a : Attempt α β ts} {a' : Attempt α β ts'}
    (agrees : seam.Agrees finished a.bare a'.bare) (f : β → γ)
    : seam.Agrees finished (a.mapValue f).bare (a'.mapValue f).bare := by
  rw [Attempt.bare_mapValue, Attempt.bare_mapValue]
  exact agrees.map f

/-- Both readings are at fault with the same token in front of the seam. -/
theorem agrees_failHere {finding finding' : SyntaxFinding}
    : seam.Agrees finished
        (failHere ts finding : Except Failure (β × List (Token α))) (failHere ts' finding') :=
  agrees_finding

/-- A word that is asked for at the closing brace is not asked for where a keyword stands. -/
theorem agrees_asked {what : String} (asked : what ∈ ["a name", "an expression"])
    (a' : Except Failure (β × List (Token α)))
    : seam.Agrees finished (failExpected [seam.closing] what) a' :=
  agrees_of_not_tolerated
    (fun tolerated => seam.unasked _ tolerated ⟨what, _, rfl, asked⟩ rfl) a'

-----------------------------------------------------------------------------------------
-- Signs and names
-----------------------------------------------------------------------------------------

section Names

variable {ts ts' : List (Token α)}

theorem expectSign_agrees {sign : Sign} (other : sign ≠ .rbrace) (what : String)
    (meets : seam.Meets ts ts')
    : seam.Agrees finished (expectSign sign what ts).bare (expectSign sign what ts').bare := by
  cases meets with
  | here =>
      simp only [expectSign, seam.closing_delimits.isSign _ other, seam.delimits.isSign _ other]
      exact agrees_failHere
  | cons t meets =>
      rw [expectSign, expectSign]
      split
      case isTrue => exact agrees_ok meets
      case isFalse => exact agrees_failHere

theorem expectWord_agrees {word : String} (other : word ∉ declarationKeywords)
    (meets : seam.Meets ts ts')
    : seam.Agrees finished (expectWord word ts).bare (expectWord word ts').bare := by
  cases meets with
  | here =>
      simp only [expectWord, seam.closing_delimits.isWord other, seam.delimits.isWord other]
      exact agrees_failHere
  | cons t meets =>
      rw [expectWord, expectWord]
      split
      case isTrue => exact agrees_ok meets
      case isFalse => exact agrees_failHere

theorem skipSign_meets {sign : Sign} (other : sign ≠ .rbrace) (meets : seam.Meets ts ts')
    : seam.Meets (skipSign sign ts).rest (skipSign sign ts').rest := by
  cases meets with
  | here =>
      simp only [skipSign, seam.closing_delimits.isSign _ other, seam.delimits.isSign _ other]
      exact .here
  | cons t meets =>
      rw [skipSign, skipSign]
      split
      case isTrue => exact meets
      case isFalse => exact .cons t meets

theorem closing_isAnyWord (seam : Seam α) : seam.closing.isAnyWord = false := by
  rw [Token.isAnyWord, seam.closes]

theorem identifier_agrees (meets : seam.Meets ts ts')
    : seam.Agrees finished (identifier ts).bare (identifier ts').bare := by
  cases meets with
  | here =>
      simp only [identifier, seam.closing_isAnyWord]
      exact agrees_asked (by decide) _
  | cons t meets =>
      rw [identifier, identifier]
      split
      case isTrue => exact agrees_ok meets
      case isFalse => exact agrees_failHere

theorem segments_dot {t u : Token α} {more : List (Token α)} (dot : t.isSign .dot = true)
    : bare (segments (t :: u :: more))
      = if u.isAnyWord then (bare (segments more)).map fun r => (u.text :: r.1, r.2)
        else failExpected (u :: more) "a name" := by
  rw [segments, if_pos dot]
  split
  case isTrue => cases segments more <;> rfl
  case isFalse => rfl

theorem segments_other {t : Token α} {more : List (Token α)} (other : t.isSign .dot = false)
    : bare (segments (t :: more)) = .ok ([], t :: more) := by
  unfold segments
  simp [other, Continued.stay]

/-- By induction on the number of tokens. -/
theorem segments_agrees {ts ts' : List (Token α)} (meets : seam.Meets ts ts')
    : seam.Agrees finished (bare (segments ts)) (bare (segments ts')) := by
  cases meets with
  | here =>
      rw [segments_other (seam.closing_delimits.isSign _ nofun),
        segments_other (seam.delimits.isSign _ nofun)]
      exact agrees_ok .here
  | @cons t us us' meets =>
      by_cases dot : t.isSign .dot = true
      case neg =>
        rw [Bool.not_eq_true] at dot
        rw [segments_other dot, segments_other dot]
        exact agrees_ok (.cons t meets)
      case pos =>
        cases meets with
        | here =>
            rw [segments_dot dot, if_neg (by simp [closing_isAnyWord])]
            exact agrees_asked (by decide) _
        | @cons u more more' meets =>
            rw [segments_dot dot, segments_dot dot]
            split
            case isTrue => exact (segments_agrees meets).map _
            case isFalse => exact agrees_failHere
termination_by ts.length

theorem dottedName_bare (ts : List (Token α))
    : (dottedName ts).bare
      = (identifier ts).bare.bind fun r =>
          (bare (segments r.2)).map fun s => (⟨r.1, s.1⟩, s.2) := by
  rw [dottedName, Attempt.bare_andMaybe]
  congr 1
  funext r
  cases segments r.2 <;> rfl

theorem dottedName_agrees (meets : seam.Meets ts ts')
    : seam.Agrees finished (dottedName ts).bare (dottedName ts').bare := by
  rw [dottedName_bare, dottedName_bare]
  exact (identifier_agrees meets).bind fun root _ _ _ meets =>
    (segments_agrees meets).map fun names => (⟨root, names⟩ : Path)

end Names

/-- The reader agrees on all rows of tokens that meet. -/
def Repeats (seam : Seam α) (finished : List (Token α) → Prop)
    (reader : (ts : List (Token α)) → Attempt α β ts) : Prop :=
  ∀ ts ts', seam.Meets ts ts' → seam.Agrees finished (reader ts).bare (reader ts').bare

end Seam

end Grammar

end Prognosis
