/-!
Text for a terminal. Every character of a row has a style, and neighbours of one style are
written between one pair of control sequences.
-/

namespace EffectLint

inductive Style where
  | Plain
  | Strong
  | Error
  | Warning
  | Help
  -- for all that is drawn around the source text
  | Frame
  | Added
  | Removed
  deriving DecidableEq

namespace Style

-- The control sequences that start a style.
def opening : Style → String
  | .Plain => ""
  | .Strong => "\x1b[1m"
  | .Error => "\x1b[1m\x1b[91m"
  | .Warning => "\x1b[1m\x1b[33m"
  | .Help => "\x1b[1m\x1b[96m"
  | .Frame => "\x1b[1m\x1b[94m"
  | .Added => "\x1b[92m"
  | .Removed => "\x1b[91m"

def closing : Style → String
  | .Plain => ""
  | _ => "\x1b[0m"

end Style

structure Cell where
  style : Style
  char : Char
  deriving DecidableEq

abbrev Row := List Cell

namespace Row

def ofChars (style : Style) (chars : List Char) : Row :=
  chars.map (Cell.mk style)

def ofString (style : Style) (text : String) : Row :=
  ofChars style text.toList

def blank (length : Nat) : Row :=
  List.replicate length ⟨.Plain, ' '⟩

-- Write one row over another, starting at a column. A gap between them is filled with blanks.
def write (row : Row) (column : Nat) (piece : Row) : Row :=
  if piece.isEmpty then row
  else row.take column ++ blank (column - row.length) ++ piece ++ row.drop (column + piece.length)

def chars (row : Row) : List Char :=
  row.map Cell.char

-- The row cut where its style changes.
def runs (row : Row) : List Row :=
  row.splitBy (·.style == ·.style)

def runText (run : Row) : String :=
  match run with
  | [] => ""
  | first :: _ => first.style.opening ++ String.ofList run.chars ++ first.style.closing

def text (isColored : Bool) (row : Row) : String :=
  if isColored then String.join (row.runs.map runText) else String.ofList row.chars

end Row

end EffectLint
