import DataHolder.Diagnostic.Basic
import DataHolder.Excerpt.Layout

/-!
# Diagnostics beside the source text

A diagnostic is drawn as its severity and message, the place in its file, an excerpt of the
source text with the ranges that it is about, and its hints. Where one of the ranges cuts a
character apart, there is no drawing.
-/

namespace DataHolder

namespace Excerpt

/-- A text as it is shown on one line. -/
def shownText (s : String) : List Char := s.toList.flatMap Text.shown

/-- The lines of a text, each split off at a newline. -/
def textRows (cs : List Char) : List (List Char) := cs.splitOn '\n'

/-- Rows for a text behind a row that is begun; its later lines start at a column. -/
def textBehind (begun : Row) (indent : Nat) (lines : List (List Char)) (style : Style) : Canvas :=
  match lines with
  | [] => [begun]
  | first :: rest =>
    Row.append begun first style ::
      rest.map fun line => Row.append (List.replicate indent {}) line style

/-- The severity and the message. -/
def titleRows (d : Diagnostic) : Canvas :=
  let severity := d.severity.text.toList
  textBehind (Row.append (Row.append [] severity .red) [':', ' '] .bold) (severity.length + 2)
    (textRows (shownText d.message)) .bold

/-- The first primary mark in reading order. -/
def firstPrimary? (marks : List Mark) : Option Mark :=
  ((marks.filter Mark.primary).mergeSort fun a b =>
    a.line < b.line || (a.line == b.line && a.char ≤ b.char)).head?

/-- The place of the first primary mark in its file, as a line and a column that both count
from one. -/
def placeRow (f : Frame) (path : String) (marks : List Mark) : Row :=
  let arrow := Row.append (List.replicate f.digits {}) ['-', '-', '>', ' '] .blue
  match firstPrimary? marks with
  | some m =>
    Row.append arrow
      (path ++ ":" ++ toString (m.line + 1) ++ ":" ++ toString (m.char + 1)).toList .plain
  | none => Row.append arrow path.toList .plain

/-- The rows of a hint. -/
def hintRows (f : Frame) (hint : String) : Canvas :=
  let begun := Row.append (List.replicate (f.digits + 1) {}) ['=', ' '] .blue
  let begun := Row.append begun ['h', 'e', 'l', 'p'] .bold
  textBehind (Row.append begun [':', ' '] .plain) (f.digits + 9) (textRows hint.toList) .plain

/-- The ranges that a diagnostic is about: its own, and those of the remarks. -/
def rangesOf (source : List Char) (d : Diagnostic) : List Annotated :=
  { range := range source d.position, label := d.message.toList, primary := true } ::
    d.related.map fun r =>
      { range := range source r.position, label := r.message.toList, primary := false }

/-- A diagnostic beside the source text. -/
def canvas (source : List Char) (path : Option String) (d : Diagnostic) : Canvas :=
  let ls := lines source
  let ranges := rangesOf source d
  let (marks, rails) := marksFor ls ranges
  let marked := markedLines ls marks
  let f : Frame :=
    { digits := (toString (lastNumber ls (ranges.map Annotated.range))).length
      rails, cut := cutColumns marked marks }
  titleRows d ++ (path.map fun path => placeRow f path marks).toList ++ [gutterRow f] ++
    body f ls marks [] marked ++
    (if d.hints.isEmpty then [] else gutterRow f :: d.hints.flatMap (hintRows f))

/-- A diagnostic beside the source text, where all its ranges cover whole characters. -/
def canvas? (source : List Char) (path : Option String) (d : Diagnostic) : Option Canvas :=
  if (rangesOf source d).all fun a => a.range.isWhole source then some (canvas source path d)
  else none

end Excerpt

namespace Log

/-- The diagnostics of a log: beside the source text, where each of them can be drawn there, or a
line for each where the text is not at hand. -/
def render (log : Log) (source path : Option String) (colored : Bool) : Option String :=
  match source with
  | some source => do
    let drawn ← log.mapM (Excerpt.canvas? source.toList path)
    return "\n".intercalate (drawn.map fun canvas => canvas.text colored)
  | none => some log.text

end Log

end DataHolder
