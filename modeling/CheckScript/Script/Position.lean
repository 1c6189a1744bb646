/-
Places in a script.
-/

namespace CheckScript
namespace Script

/-- Line and column, both counted from 1; columns count characters. -/
structure Position where
  line : Nat
  column : Nat
deriving DecidableEq, Repr

namespace Position

def start : Position := ⟨1, 1⟩

/-- The place behind `c`, if `c` stands at `p`. -/
def next (p : Position) (c : Char) : Position :=
  if c = '\n' then ⟨p.line + 1, 1⟩ else ⟨p.line, p.column + 1⟩

/-- The place behind all of `cs`. -/
def after (p : Position) (cs : List Char) : Position := cs.foldl next p

/-- Order of reading. -/
def noLater (p q : Position) : Bool :=
  p.line < q.line || (p.line == q.line && p.column ≤ q.column)

end Position
end Script
end CheckScript
