import Prognosis.Check.Finding

/-! The names that a scenario declares. Of several declarations of a name the first one owns
it.
-/

namespace Prognosis

variable {α : Type}

/-- A declaration with its place in the order of all declarations. -/
structure Symbol (α : Type) where
  name : String
  index : Nat
  declaration : Declaration α

/-- The owners of names, in order. -/
abbrev Symbols (α : Type) :=
  List (Symbol α)

/-- What names refer to: a named value, or another scenario that is not resolved. -/
inductive Referent (α : Type) where
  | quantity (decl : Quantity α)
  | imported (decl : Import)

/-- What a declaration is to those that refer to it. -/
def Declaration.referent? : Declaration α → Option (Referent α)
  | .quantity q => some (.quantity q)
  | .imported i => some (.imported i)
  | _ => none

/-- Word for the kind of a declaration. -/
def Declaration.kindWord : Declaration α → String
  | .quantity q => q.kind.word
  | .branch _ => "branch"
  | .simulate _ => "simulate"
  | .watch _ => "watch"
  | .calibrate _ => "calibrate"
  | .imported _ => "import"

namespace Symbols

/-- The owner of a name. -/
def find? (symbols : Symbols α) (name : String) : Option (Symbol α) :=
  List.find? (·.name == name) symbols

/-- The named value that owns a name. -/
def quantity? (symbols : Symbols α) (name : String) : Option (Quantity α) :=
  (symbols.find? name).bind (·.declaration.quantity?)

/-- What a dotted name refers to. -/
def referent? (symbols : Symbols α) (path : Path) : Option (Referent α) :=
  (symbols.find? path.root).bind (·.declaration.referent?)

/-- A nested declaration replaces a declaration outside: one of its kind owns its name. -/
def isOverride (symbols : Symbols α) (nested : Quantity α) : Bool :=
  match symbols.quantity? nested.name with
  | some outer => outer.kind == nested.kind
  | none => false

/-- Names with their owners from the given place on, and what is wrong with the others. -/
def collect (known : Symbols α) (index : Nat)
    : List (Declaration α) → Symbols α × List (Located (Finding α))
  | [] => (known, [])
  | d :: rest =>
      match d.name? with
      | none => collect known (index + 1) rest
      | some name =>
          match find? known name with
          | none => collect (known ++ [⟨name, index, d⟩]) (index + 1) rest
          | some owner =>
              let (symbols, findings) := collect known (index + 1) rest
              (symbols,
                ⟨.duplicate name owner.declaration.kindWord, some d.span⟩ :: findings)

/-- Names of a scenario with their owners. -/
def ofScenario (s : Scenario α) : Symbols α :=
  (collect [] 0 s.declarations).1

end Symbols

end Prognosis
