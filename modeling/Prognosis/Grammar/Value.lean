import Prognosis.Grammar.Expression

/-! The values of properties: texts, words, numbers, dates, lists, distributions and models. -/

namespace Prognosis.Grammar

variable {α : Type} [Scalar α]

/-- The value of a quoted text. -/
def textValue? (t : Token α) : Option String :=
  match t.kind with
  | .text value => some value
  | _ => none

/-- Reads a quoted text. -/
def quotedString : (ts : List (Token α)) → Attempt α String ts
  | [] => failAtEnd "a quoted string"
  | t :: rest =>
      match textValue? t with
      | some value => .ok (.single t value)
      | none => failExpected (t :: rest) "a quoted string"

/-- Reads a quoted text or a word. -/
def wordOrString : (ts : List (Token α)) → Attempt α String ts
  | [] => failAtEnd "a name"
  | t :: rest =>
      match textValue? t with
      | some value => .ok (.single t value)
      | none => identifier (t :: rest)

/-- Reads one of several words, written as a word or as a text. -/
def choice {β : Type} (options : List β) (word : β → String) (what : String)
    (ts : List (Token α)) : Attempt α β ts :=
  match wordOrString ts with
  | .error e => .error e
  | .ok read =>
      match options.find? (word · == read.value) with
      | some option => .ok (read.map fun _ => option)
      | none => failHere ts (.unknownChoice what read.value (options.map word))

/-- Reads an unsigned number; the flag admits percentages, which are read as shares. -/
def unsignedNumber (percent : Bool) (negative : Bool) : (ts : List (Token α)) → Attempt α α ts
  | [] => failAtEnd "a number"
  | t :: rest =>
      let signed (x : α) : α := if negative then -x else x
      match t.kind, percent with
      | .number value, _ => .ok (.single t (signed value))
      | .percentage value, true => .ok (.single t (signed value / Scalar.ofNat 100))
      | _, _ => failExpected (t :: rest) "a number"

/-- Reads a number with an optional minus sign. -/
def number (percent : Bool) (ts : List (Token α)) : Attempt α α ts :=
  match ts with
  | [] => failAtEnd "a number"
  | t :: rest =>
      if t.isSign .minus then Attempt.afterToken t (unsignedNumber percent true rest)
      else unsignedNumber percent false (t :: rest)

/-- Reads a whole number. -/
def wholeNumber (ts : List (Token α)) : Attempt α Int ts :=
  match number false ts with
  | .error e => .error e
  | .ok read =>
      match Scalar.truncate? read.value with
      | none => .error (.fault .overflow)
      | some whole =>
          if Scalar.eq read.value (Scalar.ofInt whole) then .ok (read.map fun _ => whole)
          else failHere ts (.expectedWhole ((found ts).getD ""))

/-- Reads a truth value. -/
def boolean : (ts : List (Token α)) → Attempt α Bool ts
  | [] => failAtEnd "true or false"
  | t :: rest =>
      if t.isWord "true" then .ok (.single t true)
      else if t.isWord "false" then .ok (.single t false)
      else failExpected (t :: rest) "true or false"

/-- Reads a date; a whole number without a point is a year. -/
def date (ts : List (Token α)) : Attempt α PartialDate ts :=
  let what := "a date (YYYY, YYYY-MM or YYYY-MM-DD)"
  match ts with
  | [] => failAtEnd what
  | t :: rest =>
      match t.kind with
      | .date value => .ok (.single t value)
      | .number value =>
          match Scalar.truncate? value with
          | none => .error (.fault .overflow)
          | some year =>
              if Scalar.eq value (Scalar.ofInt year) && !t.text.contains '.' then
                .ok (.single t (.ofYear year))
              else failExpected (t :: rest) what
      | _ => failExpected (t :: rest) what

/-- Reads a duration. -/
def duration (ts : List (Token α)) : Attempt α (Duration α) ts :=
  let what := "a duration such as 5y, 6m, 4w or 30d"
  match ts with
  | [] => failAtEnd what
  | t :: rest =>
      match t.kind with
      | .duration value => .ok (.single t value)
      | _ => failExpected (t :: rest) what

/-- Reads items up to a closing bracket. Commas stand between them and may stand after the
last one.
-/
def items {β : Type} (item : (ts : List (Token α)) → Attempt α β ts) (ts : List (Token α))
    : Attempt α (List β) ts :=
  match ts with
  | [] => (item []).mapValue fun x => [x]
  | t :: rest =>
      if t.isSign .rbracket then .ok (.single t [])
      else
        match item (t :: rest) with
        | .error e => .error e
        | .ok first =>
            match hrest : first.rest with
            | [] => failAtEnd "',' or ']'"
            | u :: more =>
                if u.isSign .rbracket then
                  .ok ⟨[first.value], more, first.shorter_of_rest hrest⟩
                else if u.isSign .comma then
                  match items item more with
                  | .error e => .error e
                  | .ok others =>
                      .ok ⟨first.value :: others.value, others.rest,
                        Nat.lt_trans others.shorter (first.shorter_of_rest hrest)⟩
                else failExpected (u :: more) "',' or ']'"
termination_by ts.length
decreasing_by
  exact first.shorter_of_rest hrest

/-- Reads items between brackets. -/
def bracketed {β : Type} (item : (ts : List (Token α)) → Attempt α β ts) (ts : List (Token α))
    : Attempt α (List β) ts :=
  Attempt.andThen (expectSign .lbracket "'['" ts) fun _ rest => items item rest

/-- Reads one quoted text, or several between brackets. -/
def stringList : (ts : List (Token α)) → Attempt α (List String) ts
  | [] => failAtEnd "'['"
  | t :: rest =>
      match textValue? t with
      | some value => .ok (.single t [value])
      | none => bracketed quotedString (t :: rest)

/-- Reads numbers between brackets. -/
def numberList (ts : List (Token α)) : Attempt α (List α) ts :=
  bracketed (number false) ts

/-- A comma before another name stands here: what follows is a word and no property, which
would have a colon after it.
-/
def continuesNames : List (Token α) → Bool
  | t :: u :: rest => t.isSign .comma && u.isAnyWord && !atSign rest .colon
  | _ => false

/-- Reads names after a first one, each after a comma. -/
def moreNames (ts : List (Token α)) : Except Failure (Continued α (List Path) ts) :=
  match ts with
  | [] => .ok (.stay [])
  | t :: rest =>
      if continuesNames (t :: rest) then
        match dottedName rest with
        | .error e => .error e
        | .ok name =>
            match moreNames name.rest with
            | .error e => .error e
            | .ok others =>
                .ok ⟨name.value :: others.value, others.rest, by
                  have := name.shorter
                  have := others.notLonger
                  simp only [List.length_cons]
                  omega⟩
      else .ok (.stay [])
termination_by ts.length
decreasing_by
  have := name.shorter
  simp only [List.length_cons]
  omega

/-- Reads names with commas between them, with or without brackets around. -/
def nameList (ts : List (Token α)) : Attempt α (List Path) ts :=
  if atSign ts .lbracket then bracketed dottedName ts
  else
    Attempt.andMaybe (dottedName ts) fun name rest =>
      match moreNames rest with
      | .error e => .error e
      | .ok others => .ok ⟨name :: others.value, others.rest, others.notLonger⟩

/-- Reads the bounds of a range. -/
def range (ts : List (Token α)) : Attempt α (Expr α × Expr α) ts :=
  Attempt.andThen (expectSign .lbracket "'[' to open range" ts) fun _ rest =>
  Attempt.andThen (expression rest) fun low rest =>
  Attempt.andThen (expectSign .comma "',' between range bounds" rest) fun _ rest =>
  Attempt.andThen (expression rest) fun high rest =>
  Attempt.mapValue (expectSign .rbracket "']' to close range" rest) fun _ => (low, high)

/-- Reads a distribution: a spread after its sign, or the name of a family with parameters. -/
def distribution (ts : List (Token α)) : Attempt α (Distribution α) ts :=
  match ts with
  | [] => failAtEnd "an expression"
  | t :: rest =>
      if t.isSign .plusMinus then
        Attempt.afterToken t
          (Attempt.mapValue (expression rest) fun spread => ⟨.normal, [spread], [], t.span⟩)
      else
        match expression (t :: rest) with
        | .error e => .error e
        | .ok read =>
            match read.value with
            | .call function positional named _ =>
                match DistributionKind.ofName? function with
                | some kind => .ok (read.map fun _ => ⟨kind, positional, named, t.span⟩)
                | none => failHere (t :: rest) .noDistribution
            | _ => failHere (t :: rest) .noDistribution

/-- Positional coefficients of a polynomial get the names c0, c1 and so on. -/
def coefficients (positional : List (Expr α)) : List (String × Expr α) :=
  positional.zipIdx.map fun (e, index) => ("c" ++ Decimal.wholeText index, e)

/-- Reads a model: the name of a family with named parameters. Only polynomials have positional
ones.
-/
def model (ts : List (Token α)) : Attempt α (Model α) ts :=
  match ts with
  | [] => failAtEnd "an expression"
  | t :: rest =>
      match expression (t :: rest) with
      | .error e => .error e
      | .ok read =>
          match read.value with
          | .call function positional named _ =>
              match ModelKind.ofName? function with
              | some kind =>
                  if positional.isEmpty || kind == .polynomial then
                    .ok (read.map fun _ => ⟨kind, coefficients positional ++ named, t.span⟩)
                  else failHere (t :: rest) (.unnamedParameters function)
              | none => failHere (t :: rest) .noModel
          | _ => failHere (t :: rest) .noModel

end Prognosis.Grammar
