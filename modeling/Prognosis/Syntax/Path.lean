/-! Names of declarations, with the segments that a dotted name adds to them. -/

namespace Prognosis

/-- A dotted name: the declaration it refers to and the segments after it. -/
structure Path where
  root : String
  rest : List String
  deriving DecidableEq, Repr

namespace Path

/-- A name without dots. -/
def ofRoot (root : String) : Path :=
  ⟨root, []⟩

/-- Segments joined by dots. -/
def text (p : Path) : String :=
  ".".intercalate (p.root :: p.rest)

/-- Reads a name: the declaration it refers to is what stands before the first dot. -/
def ofText (text : String) : Path :=
  match text.splitOn "." with
  | [] => ⟨"", []⟩
  | root :: rest => ⟨root, rest⟩

end Path

end Prognosis
