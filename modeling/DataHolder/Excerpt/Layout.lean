import DataHolder.Excerpt.Canvas
import DataHolder.Excerpt.Mark

/-!
# Layout of an excerpt

The lines that carry marks are drawn with their numbers at the left, a gutter, the rails,
and the source text; the marks and their labels follow below each line. Of the lines
between two of them, a single one is drawn and more are left out. Where everything stands
far to the right, the columns that lead up to it are cut off.
-/

namespace DataHolder.Excerpt

/-- The columns at the left of the source text. -/
structure Frame where
  /-- The number of digits of the number of the last line that a range lies on. -/
  digits : Nat
  /-- The number of rails. -/
  rails : Nat
  /-- The number of columns that are cut off at the left of the source text. -/
  cut : Nat
deriving DecidableEq, Inhabited

namespace Frame

/-- The column of the gutter. -/
def gutter (f : Frame) : Nat := f.digits + 1

/-- The column of a rail. -/
def rail (f : Frame) (n : Nat) : Nat := f.digits + 2 + n

/-- The column at which the source text starts. -/
def text (f : Frame) : Nat := f.digits + 3 + (if f.rails = 0 then 0 else f.rails + 1)

/-- The column at which a column of the source text stands. -/
def column (f : Frame) (n : Nat) : Nat := f.text + n - f.cut

end Frame

namespace Mark

/-- The style of a mark and its label. -/
def style (m : Mark) : Style := if m.primary then .red else .blue

/-- The character with which a mark underlines. -/
def underline (m : Mark) : Char := if m.primary then '^' else '-'

end Mark

/-- A line number with blanks before it, as wide as the widest that is reckoned with. -/
def numberText (f : Frame) (number : Nat) : List Char :=
  let digits := (toString number).toList
  List.replicate (f.digits - digits.length) ' ' ++ digits

/-- Cut columns off at the start of a text: how many columns that takes away, and the text
that is left. A wide character is cut off whole, and so may take away more than was asked. -/
def cutText : Nat → List Char → Nat × List Char
  | 0, cs => (0, cs)
  | _ + 1, [] => (0, [])
  | n + 1, c :: cs =>
    let (taken, rest) := cutText (n + 1 - Text.width c) cs
    (Text.width c + taken, rest)

/-- Three dots, for what is left out. -/
def dots : List Char := ['.', '.', '.']

/-- The row for a source line: its number, the gutter and the text. Where the text is cut,
dots stand for the first columns of what is left of it. -/
def sourceRow (f : Frame) (l : Line) : Row :=
  let row := Row.put (Row.puts [] 0 (numberText f l.number) .blue) f.gutter '|' .blue
  if f.cut = 0 then Row.puts row f.text l.shownText .plain
  else
    let (taken, rest) := cutText dots.length (cutText f.cut l.shownText).2
    Row.puts (Row.puts row f.text dots .blue) (f.text + taken) rest .plain

/-- The row with the gutter alone. -/
def gutterRow (f : Frame) : Row := Row.put [] f.gutter '|' .blue

/-- Whether the marks of a line all open a rail before any text of the line, so that the
rails can start beside the line itself. -/
def startsBeside (l : Line) (marks : List Mark) : Bool :=
  marks.all fun m => m.opensRail && (l.shownText.take m.start).all Text.isBlank

/-- The rows for labels: where all marks open rails, the leftmost comes first. -/
def labelRows (marks : List Mark) : List (Nat × Mark) × Nat :=
  let rows := Mark.rows marks
  let last := (rows.map Prod.fst).foldl max 0
  let height := if last = 0 then 0 else last + 1
  if marks.all Mark.opensRail then (rows.map fun (row, m) => (last - row, m), height - 1)
  else (rows, height)

/-- The horizontal part of a rail, from the rail to the mark. -/
def drawJoin (f : Frame) (canvas : Canvas) (placed : Nat × Mark) : Canvas :=
  let (row, m) := placed
  match m.shape.rail? with
  | some rail =>
    Canvas.horizontal canvas (row + 1) (f.rail rail + 1) (f.column m.start) '_' m.style
  | none => canvas

/-- The vertical parts: from a mark down to its label, and along a rail to the end of the
rows of its line. -/
def drawVerticals (f : Frame) (height : Nat) (canvas : Canvas) (placed : Nat × Mark) : Canvas :=
  let (row, m) := placed
  let canvas :=
    if 0 < row && (m.hasLabel || m.isJoined) then
      Canvas.vertical canvas 1 (row + 2) (f.column m.start) '|' m.style
    else canvas
  match m.shape with
  | .opens rail =>
    Canvas.vertical (Canvas.put canvas (row + 1) (f.rail rail) ' ' m.style) (row + 2) (height + 2)
      (f.rail rail) '|' m.style
  | .closes rail => Canvas.vertical canvas 0 (row + 2) (f.rail rail) '|' m.style
  | .single => canvas

/-- The label: beside its mark in the first row, and elsewhere under its start. -/
def drawLabel (f : Frame) (canvas : Canvas) (placed : Nat × Mark) : Canvas :=
  let (row, m) := placed
  if row = 0 then
    Canvas.puts canvas 1 (f.column (m.stop + (if m.stop = 0 then 2 else 1))) m.label m.style
  else Canvas.puts canvas (row + 2) (f.column m.start) m.label m.style

/-- The line under the source text; a mark that a label or a rail hangs on shows its
start. -/
def drawUnderline (f : Frame) (canvas : Canvas) (placed : Nat × Mark) : Canvas :=
  let (row, m) := placed
  let canvas := Canvas.horizontal canvas 1 (f.column m.start) (f.column m.stop) m.underline m.style
  if m.isJoined || (0 < row && m.hasLabel) then
    Canvas.put canvas 1 (f.column m.start) m.underline m.style
  else canvas

/-- Marks from the longest to the shortest, the primary one last of equals, so that what is
drawn later stays visible. -/
def longestFirst (rows : List (Nat × Mark)) : List (Nat × Mark) :=
  rows.mergeSort fun a b =>
    a.2.length > b.2.length || (a.2.length == b.2.length && (!a.2.primary || b.2.primary))

/-- The rows for a line and its marks, which are shifted by the columns that its own text
loses. -/
def lineRows (f : Frame) (l : Line) (marks : List Mark) : Canvas :=
  let canvas : Canvas := [sourceRow f l]
  let f := { f with cut := (cutText f.cut l.shownText).1 }
  if startsBeside l marks then
    marks.foldl (fun canvas m =>
      match m.shape.rail? with
      | some rail => Canvas.put canvas 0 (f.rail rail) '/' m.style
      | none => canvas) canvas
  else
    let (rows, height) := labelRows marks
    let canvas := Canvas.vertical canvas 1 (height + 2) f.gutter '|' .blue
    let canvas := rows.foldl (drawJoin f) canvas
    let canvas := rows.foldl (drawVerticals f height) canvas
    let canvas := rows.foldl (drawLabel f) canvas
    (longestFirst rows).foldl (drawUnderline f) canvas

/-- A rail and the style in which it is drawn. -/
abbrev Rail := Nat × Style

/-- The rails that the marks of a line open or close. -/
def touchedRails (marks : List Mark) : List Rail :=
  marks.filterMap fun m => m.shape.rail?.map fun rail => (rail, m.style)

/-- Draw rails beside all rows. -/
def drawRails (f : Frame) (rails : List Rail) (canvas : Canvas) : Canvas :=
  canvas.map fun row =>
    rails.foldl (fun row rail => Row.put row (f.rail rail.1) '|' rail.2) row

/-- What stands between two lines with marks: nothing, the one line between them, or dots. -/
def between (f : Frame) (ls : List Line) (l next : Line) : Canvas :=
  if next.index ≤ l.index + 1 then []
  else if next.index = l.index + 2 then
    (ls[l.index + 1]?.map (sourceRow f)).toList
  else [Row.puts [] 0 dots .blue]

/-- The rows of all lines with marks, where `before` are the rails that are open above them. -/
def body (f : Frame) (ls : List Line) (marks : List Mark) (before : List Rail) :
    List Line → Canvas
  | [] => []
  | l :: rest =>
    let own := marks.filter fun m => m.line == l.index
    let touched := touchedRails own
    let still := before.filter fun rail => !(touched.map Prod.fst).contains rail.1
    let opened := touched.filter fun rail => !(before.map Prod.fst).contains rail.1
    let here := drawRails f still (lineRows f l own)
    let gap :=
      match rest with
      | next :: _ => drawRails f (still ++ opened) (between f ls l next)
      | [] => []
    here ++ gap ++ body f ls marks (still ++ opened) rest

/-- The lines that carry marks. -/
def markedLines (ls : List Line) (marks : List Mark) : List Line :=
  ls.filter fun l => marks.any fun m => m.line == l.index

/-! ## What is cut off -/

/-- The columns of blanks before the text of a line, where the line has any other text. -/
def Line.indent? (l : Line) : Option Nat :=
  let blanks := l.text.takeWhile Text.isBlank
  if blanks.length = l.text.length then none
  else some (blanks.foldr (fun c n => (if c = '\t' then 4 else 1) + n) 0)

/-- The columns to cut off, where the text of the lines and all marks stand behind a margin
of more than 26 columns: 22 columns of the margin are left. -/
def cutColumns (ls : List Line) (marks : List Mark) : Nat :=
  match ls.filterMap Line.indent? with
  | [] => 0
  | indent :: indents =>
    let margin := (indents ++ marks.map Mark.start).foldl min indent
    if 26 < margin then margin - 22 else 0

end DataHolder.Excerpt
