/-!
Positions in a source text.
-/

namespace LeafPaths

/-- A line and a column, both counted from one. Columns count characters. -/
structure Position where
  line : Nat
  column : Nat
deriving DecidableEq, Repr, Inhabited

namespace Position

/-- The beginning of a text. Complaints about the end of a text are placed here too. -/
def start : Position := ⟨1, 1⟩

def step (p : Position) (c : Char) : Position :=
  if c = '\n' then ⟨p.line + 1, 1⟩ else ⟨p.line, p.column + 1⟩

def advance (p : Position) (cs : List Char) : Position := cs.foldl step p

end Position

end LeafPaths
