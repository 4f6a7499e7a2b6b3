import DataHolder.Position
import DataHolder.Text.Alphanumeric

/-!
# The text that a position points at

A position addresses a line and a byte column of a source text. The range it points at is
the identifier that starts there, or else one byte; a position past the end of its line or
of the text is moved back to that end. Ranges count bytes of UTF-8.
-/

namespace DataHolder.Excerpt

/-- The number of bytes that a text takes in UTF-8. -/
def byteSize (cs : List Char) : Nat := cs.foldr (fun c n => c.utf8Size + n) 0

/-- What is left of a text without its first `n` bytes, where a character ends there. -/
def dropBytes? (n : Nat) : List Char → Option (List Char)
  | [] => if n = 0 then some [] else none
  | c :: cs =>
    if n = 0 then some (c :: cs)
    else if c.utf8Size ≤ n then dropBytes? (n - c.utf8Size) cs
    else none

/-- What is left of a text without its first `n` lines; a line ends behind its newline. -/
def dropLines : Nat → List Char → List Char
  | 0, cs => cs
  | _ + 1, [] => []
  | n + 1, c :: cs => if c = '\n' then dropLines n cs else dropLines (n + 1) cs

/-- The first line of a text, without its newline. -/
def firstLine (cs : List Char) : List Char := cs.takeWhile fun c => c != '\n'

/-- A range of bytes; the byte at `stop` is no longer part of it. -/
structure ByteRange where
  start : Nat
  stop : Nat
deriving DecidableEq, Inhabited

/-- Whether a range covers whole characters of a text: it starts and stops between two of them. -/
def ByteRange.isWhole (source : List Char) (r : ByteRange) : Bool :=
  (dropBytes? r.start source).isSome && (dropBytes? r.stop source).isSome

/-- The bytes of the identifier that starts at a column of a line, or none. -/
def identifierSize (line : List Char) (column : Nat) : Nat :=
  match dropBytes? column line with
  | some cs => byteSize (cs.takeWhile Text.isIdentifier)
  | none => 0

/-- The range that a position points at in a text. -/
def range (source : List Char) (p : Position) : ByteRange :=
  let rest := dropLines (p.line.toNat - 1) source
  let line := firstLine rest
  let column := min p.column.toNat (byteSize line)
  let start := byteSize source - byteSize rest + column
  let size := identifierSize line column
  if size = 0 then ⟨start, min (start + 1) (max (byteSize source) start)⟩
  else ⟨start, start + size⟩

end DataHolder.Excerpt
