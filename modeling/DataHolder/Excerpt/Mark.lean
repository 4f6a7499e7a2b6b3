import DataHolder.Excerpt.Line

/-!
# Marks on lines

A labelled range of bytes becomes a mark under the line that it lies on. A range that
reaches into another line becomes two marks, at its start and at its end, which are joined
by a rail at the left; rails that overlap stand side by side. `Mark.rows` gives the marks
of a line rows for their labels: the rightmost comes first, and a label moves down where it
would run into another mark.
-/

namespace DataHolder.Excerpt

/-- A range of bytes with a label. -/
structure Annotated where
  range : ByteRange
  label : List Char
  /-- Whether it is what the excerpt is about, rather than a remark. -/
  primary : Bool
deriving DecidableEq, Inhabited

/-- How a mark belongs to a rail; rails are counted from the left. -/
inductive Shape where
  | single
  | opens (rail : Nat)
  | closes (rail : Nat)
deriving DecidableEq, Inhabited

/-- The rail that a mark opens or closes. -/
def Shape.rail? : Shape → Option Nat
  | .single => none
  | .opens rail => some rail
  | .closes rail => some rail

/-- A mark under a line. -/
structure Mark where
  /-- The index of the line. -/
  line : Nat
  /-- The number of characters before it on the line. -/
  char : Nat
  /-- The number of bytes before it in the source text. -/
  byte : Nat
  /-- The first column under which it stands, and the first one behind it. -/
  start : Nat
  stop : Nat
  label : List Char
  primary : Bool
  shape : Shape := .single
deriving DecidableEq, Inhabited

namespace Mark

/-- Whether there is a label to show. -/
def hasLabel (m : Mark) : Bool := !m.label.isEmpty

/-- Whether a mark belongs to a rail. -/
def isJoined (m : Mark) : Bool := m.shape.rail?.isSome

/-- Whether a mark opens a rail. -/
def opensRail (m : Mark) : Bool :=
  match m.shape with
  | .opens _ => true
  | _ => false

/-- The number of columns of a mark. -/
def length (m : Mark) : Nat := if m.start < m.stop then m.stop - m.start else m.start - m.stop

/-- Whether two marks meet when the first is made longer by some columns. -/
def meets (a b : Mark) (padding : Nat) : Bool :=
  (b.start ≤ a.start && a.start < b.stop) || (a.start ≤ b.start && b.start < a.stop + padding)

/-- Whether a mark cannot have its label beside it because a mark further left meets it. One
without a label at the very same place is no hindrance. -/
def isCovered (m : Mark) (others : List Mark) : Bool :=
  m.hasLabel && others.any fun other =>
    other.meets m 0 && !(other.byte == m.byte && !other.hasLabel)

/-- Whether a mark that stands in a row keeps a mark further left out of that row. -/
def blocks (row : Nat) (m other : Mark) : Bool :=
  let room := if other.hasLabel then byteSize other.label + 2 else 0
  (other.meets m room && m.hasLabel && other.hasLabel) ||
    (m.isJoined && other.hasLabel) || (m.hasLabel && other.isJoined) ||
    (m.isJoined && other.isJoined) ||
    (other.meets m room && other.stop ≤ m.stop && other.hasLabel && row == 0)

/-- The rows of marks that are given from right to left, where `row` is the first that is
still free. -/
def rowsFrom (row : Nat) : List Mark → List (Nat × Mark)
  | [] => []
  | m :: others =>
    let row := if row == 0 && m.isCovered others then 1 else row
    (row, m) :: rowsFrom (if others.any (m.blocks row) then row + 1 else row) others

/-- Marks from right to left. Marks at the same character keep their order, even where a line
end of two bytes sets them apart. -/
def rightToLeft (marks : List Mark) : List Mark :=
  marks.mergeSort fun a b => a.start > b.start || (a.start == b.start && a.char ≥ b.char)

/-- The rows of the marks of a line, from right to left. -/
def rows (marks : List Mark) : List (Nat × Mark) := rowsFrom 0 (rightToLeft marks)

end Mark

/-! ## Ranges that reach into another line -/

/-- A range whose start and stop lie on different lines. -/
structure Span where
  start : Place
  stop : Place
  source : Annotated
  /-- How many later spans push its rail aside. -/
  depth : Nat := 1
  /-- A later span covers exactly the same range. -/
  isRepeated : Bool := false
deriving DecidableEq, Inhabited

namespace Span

/-- A span in the presence of a later one. -/
def beside (s later : Span) : Span :=
  if s.start = later.start ∧ s.stop = later.stop then { s with isRepeated := true }
  else if later.start.line ≤ s.stop.line ∧ s.start.line ≤ later.stop.line then
    { s with depth := s.depth + 1 }
  else s

/-- Spans from the first line on, the longer ones first. -/
def sorted (spans : List Span) : List Span :=
  spans.mergeSort fun a b =>
    a.start.line < b.start.line ||
      (a.start.line == b.start.line && a.stop.line ≥ b.stop.line)

/-- Every span in the presence of the later ones. -/
def arrange : List Span → List Span
  | [] => []
  | s :: rest => rest.foldl beside s :: arrange rest

/-- Spans over the range of a primary one are primary too. -/
def promote (spans : List Span) : List Span :=
  spans.map fun s =>
    let isPrimary := spans.any fun t => t.source.primary && t.source.range = s.source.range
    { s with source := { s.source with primary := isPrimary } }

/-- The number of rails that are needed. -/
def railCount (spans : List Span) : Nat := (spans.map Span.depth).foldl max 0

/-- The marks of a span; of a repeated one only the end is marked, without a rail. -/
def marks (rails : Nat) (s : Span) : List Mark :=
  let rail := rails - s.depth + 1
  let opening : Mark :=
    { line := s.start.line, char := s.start.char, byte := s.source.range.start
      start := s.start.column, stop := s.start.column + 1, label := []
      primary := s.source.primary, shape := .opens rail }
  let closing : Mark :=
    { line := s.stop.line, char := s.stop.char - 1, byte := s.source.range.stop - 1
      start := s.stop.column - 1, stop := s.stop.column, label := s.source.label
      primary := s.source.primary, shape := .closes rail }
  if s.isRepeated then [{ closing with shape := .single }] else [opening, closing]

end Span

/-- A range as a mark on one line, or as a span over several. A mark has at least one
column. -/
def Annotated.place (ls : List Line) (a : Annotated) : Mark ⊕ Span :=
  let start := startPlace ls a.range
  let stop := stopPlace ls a.range
  if start.line = stop.line then
    .inl
      { line := start.line, char := start.char, byte := a.range.start, start := start.column
        stop := if start.column = stop.column then stop.column + 1 else stop.column
        label := a.label, primary := a.primary }
  else .inr { start, stop, source := a }

/-- The marks for some ranges, and the number of rails. -/
def marksFor (ls : List Line) (ranges : List Annotated) : List Mark × Nat :=
  let placed := ranges.map (Annotated.place ls)
  let singles := placed.filterMap Sum.getLeft?
  let spans := Span.arrange (Span.promote (Span.sorted (placed.filterMap Sum.getRight?)))
  let rails := Span.railCount spans
  (singles ++ spans.flatMap (Span.marks rails), rails)

end DataHolder.Excerpt
