/-!
# Canvas

A canvas is a grid of characters with styles that grows as it is drawn on. Whatever is
drawn last is seen. Its rows are printed as text, plainly or with escape sequences for the
styles; each row ends where the last thing was drawn on it, be it a blank.
-/

namespace DataHolder.Excerpt

/-- How a character is shown. -/
inductive Style where
  | plain
  | bold
  | red
  | blue
deriving DecidableEq, Inhabited

/-- A character of a canvas. -/
structure Cell where
  char : Char := ' '
  style : Style := .plain
deriving DecidableEq, Inhabited

/-- A row of a canvas. -/
abbrev Row := List Cell

/-- Replace an element of a list that is first made long enough. -/
def setGrow {α : Type} (fill : α) (f : α → α) : Nat → List α → List α
  | 0, [] => [f fill]
  | 0, a :: as => f a :: as
  | n + 1, [] => fill :: setGrow fill f n []
  | n + 1, a :: as => a :: setGrow fill f n as

namespace Row

/-- Draw a character at a column. -/
def put (row : Row) (column : Nat) (c : Char) (style : Style) : Row :=
  setGrow {} (fun _ => { char := c, style }) column row

/-- Draw a text from a column on. -/
def puts (row : Row) (column : Nat) (text : List Char) (style : Style) : Row :=
  match text with
  | [] => row
  | c :: rest => Row.puts (Row.put row column c style) (column + 1) rest style

/-- Draw a text behind what is there. -/
def append (row : Row) (text : List Char) (style : Style) : Row :=
  row ++ text.map fun c => { char := c, style }

/-- The text of a row without its styles. -/
def plainText (row : Row) : String := String.ofList (row.map Cell.char)

end Row

namespace Style

/-- The escape sequence for a number. -/
def escape (code : String) : String :=
  String.ofList [Char.ofNat 27, '['] ++ code ++ "m"

/-- What switches a style on. -/
def on : Style → String
  | .plain => ""
  | .bold => escape "1"
  | .red => escape "1" ++ escape "91"
  | .blue => escape "1" ++ escape "94"

/-- What switches a style off. -/
def off : Style → String
  | .plain => ""
  | _ => escape "0"

end Style

/-- The text of cells, where `current` is the style that is switched on. -/
def styledText (current : Style) : Row → String
  | [] => current.off
  | cell :: rest =>
    if cell.style = current then cell.char.toString ++ styledText current rest
    else current.off ++ cell.style.on ++ cell.char.toString ++ styledText cell.style rest

/-- The text of a row, with or without its styles. -/
def Row.text (colored : Bool) (row : Row) : String :=
  if colored then styledText .plain row else row.plainText

/-- A grid of characters. -/
abbrev Canvas := List Row

namespace Canvas

/-- Draw a character at a row and a column. -/
def put (canvas : Canvas) (row column : Nat) (c : Char) (style : Style) : Canvas :=
  setGrow [] (fun r => Row.put r column c style) row canvas

/-- Draw a text from a place on. -/
def puts (canvas : Canvas) (row column : Nat) (text : List Char) (style : Style) : Canvas :=
  setGrow [] (fun r => Row.puts r column text style) row canvas

/-- Draw a character in a column on the rows from `first` to before `stop`. -/
def vertical (canvas : Canvas) (first stop column : Nat) (c : Char) (style : Style) : Canvas :=
  (List.range' first (stop - first)).foldl (fun canvas row => Canvas.put canvas row column c style)
    canvas

/-- Draw a character in a row on the columns from `first` to before `stop`. -/
def horizontal (canvas : Canvas) (row first stop : Nat) (c : Char) (style : Style) : Canvas :=
  if stop ≤ first then canvas
  else Canvas.puts canvas row first (List.replicate (stop - first) c) style

/-- The lines of a canvas. -/
def text (colored : Bool) (canvas : Canvas) : String :=
  "\n".intercalate (canvas.map (Row.text colored))

end Canvas

end DataHolder.Excerpt
