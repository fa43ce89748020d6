/-!
# Positions in a source

Lines and columns, both counted from one.
-/

namespace PredicateTrace

/-- A place in a source. -/
structure Position where
  line : Nat
  column : Nat
  deriving DecidableEq, Repr, Inhabited

namespace Position

/-- The place of the first character. -/
def start : Position := ⟨1, 1⟩

/-- The place after a character. -/
def advance (p : Position) (c : Char) : Position :=
  if c = '\n' then ⟨p.line + 1, 1⟩ else ⟨p.line, p.column + 1⟩

/-- The place `n` characters further on the same line. -/
def shift (p : Position) (n : Nat) : Position :=
  ⟨p.line, p.column + n⟩

end Position

end PredicateTrace
