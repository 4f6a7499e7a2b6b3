/-!
# Source positions

A position names a line and a byte column of a source text. It is only compared and
printed here; `DataHolder.Excerpt.Range` finds the text it points at.
-/

namespace DataHolder

/-- A place in a source text: lines count from one, byte columns from zero. -/
structure Position where
  line : UInt32 := 0
  column : UInt32 := 0
deriving DecidableEq, Inhabited

/-- The line and the column in decimal, with a colon between them. -/
def Position.text (p : Position) : String :=
  toString p.line.toNat ++ ":" ++ toString p.column.toNat

end DataHolder
