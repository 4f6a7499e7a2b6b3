import DataHolder.Excerpt.Range
import DataHolder.Text.Blank
import DataHolder.Text.Width

/-!
# Lines of a source text

A source text is shown line by line. Each line knows which bytes it covers, so that the
ends of a range of bytes are found as places: a line, a count of characters, and a column
of the display.
-/

namespace DataHolder.Excerpt

/-- A line of a source text. -/
structure Line where
  /-- Its number, counted from zero. -/
  index : Nat
  /-- Its text without the line end. -/
  text : List Char
  /-- The number of bytes before it. -/
  start : Nat
  /-- The number of bytes of its line end. -/
  endSize : Nat
deriving Inhabited

namespace Line

/-- The number of bytes of the text of a line. -/
def size (l : Line) : Nat := byteSize l.text

/-- The number of bytes up to its line end. -/
def contentStop (l : Line) : Nat := l.start + l.size

/-- The number of bytes up to the next line. -/
def stop (l : Line) : Nat := l.contentStop + l.endSize

/-- The text of a line as it is shown. -/
def shownText (l : Line) : List Char := l.text.flatMap Text.shown

/-- The number under which a line is shown. -/
def number (l : Line) : Nat := l.index + 1

end Line

/-- The texts of lines and the bytes of their line ends; `current` is what has been read of
the present line, backwards. A return before a newline belongs to the line end. -/
def splitLines (current : List Char) : List Char → List (List Char × Nat)
  | [] => if current.isEmpty then [] else [(current.reverse, 0)]
  | c :: rest =>
    if c = '\n' then
      match current with
      | '\r' :: body => (body.reverse, 2) :: splitLines [] rest
      | body => (body.reverse, 1) :: splitLines [] rest
    else splitLines (c :: current) rest

/-- Number lines and place them one behind the other. -/
def placeLines (index start : Nat) : List (List Char × Nat) → List Line
  | [] => []
  | (text, endSize) :: rest =>
    let line : Line := { index, text, start, endSize }
    line :: placeLines (index + 1) line.stop rest

/-- The lines of a source text. A newline at the very end starts no line, and the empty text
has one empty line. -/
def lines (source : List Char) : List Line :=
  match splitLines [] source with
  | [] => [{ index := 0, text := [], start := 0, endSize := 0 }]
  | found => placeLines 0 0 found

/-- A place in a source text. -/
structure Place where
  /-- The index of its line. -/
  line : Nat
  /-- The number of characters before it on its line. -/
  char : Nat
  /-- The number of columns before it on its line. -/
  column : Nat
deriving DecidableEq, Inhabited

/-- The characters that lie within the first `n` bytes. -/
def takeBytes (n : Nat) : List Char → List Char
  | [] => []
  | c :: cs => if c.utf8Size ≤ n then c :: takeBytes (n - c.utf8Size) cs else []

/-- The line that holds a byte, or the last one. -/
def lineAt (ls : List Line) (byte : Nat) : Line :=
  (ls.find? fun l => l.start ≤ byte && byte < l.stop).getD (ls.getLastD default)

/-- The number of the last line on which one of the ranges has a byte. The line that a range
merely runs up to does not count. -/
def lastNumber (ls : List Line) (ranges : List ByteRange) : Nat :=
  let reach := (ranges.map ByteRange.stop).foldl max 0
  max 1 (ls.countP fun l => l.start < reach)

/-- The place of a byte on a line. -/
def Line.place (l : Line) (byte : Nat) : Place :=
  let before := takeBytes (byte - l.start) l.text
  { line := l.index, char := before.length, column := Text.columns before }

/-- Where a range of bytes starts. Behind the text of its line one more character counts. -/
def startPlace (ls : List Line) (r : ByteRange) : Place :=
  let l := lineAt ls r.start
  let p := l.place r.start
  if l.size < r.start - l.start then { p with char := p.char + 1 } else p

/-- Where a range of bytes stops. On a later line than its start, a stop behind the text of
the line counts one more. -/
def stopPlace (ls : List Line) (r : ByteRange) : Place :=
  if r.start = r.stop then startPlace ls r
  else
    let l := lineAt ls r.stop
    let p := l.place r.stop
    if (startPlace ls r).line ≠ p.line ∧ l.contentStop < r.stop then
      { p with char := p.char + 1, column := p.column + 1 }
    else p

end DataHolder.Excerpt
