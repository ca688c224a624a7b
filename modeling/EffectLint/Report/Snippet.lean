import EffectLint.Report.Diagnostic
import EffectLint.Report.Patch
import EffectLint.Report.Window
import EffectLint.Text.Line

/-!
Diagnostics with the lines of source text that they are about. Carets stand under the place of
the diagnostic and dashes under related places, and a fix is shown applied.
-/

namespace EffectLint

-- Source text and how it is to be shown.
structure Exhibit where
  source : List Char
  path : Option String
  isColored : Bool

def Severity.style : Severity → Style
  | .Error => .Error
  | .Warning => .Warning

-- Some characters of one line, counted from its start.
structure Place where
  line : Line
  start : Nat
  stop : Nat

-- A mark on one line of the source.
structure PlacedMark where
  line : Line
  mark : Mark

namespace Place

-- The column at which a character of the line is shown.
def column (place : Place) (index : Nat) : Nat :=
  (Text.shown (place.line.text.take index)).length

-- A mark takes at least one column.
def mark (place : Place) (style : Style) (isPrimary : Bool) (label : String) : PlacedMark :=
  let start := place.column place.start
  ⟨place.line, style, isPrimary, start, max (place.column place.stop) (start + 1), label.toList⟩

end Place

namespace Exhibit

variable (exhibit : Exhibit)

-- A range within the source. An empty one takes the next byte, if there is any.
def clamp (span : Span) : Span :=
  let limit := Text.width exhibit.source
  let start := min span.start limit
  let stop := min span.stop limit
  if start = stop then ⟨start, min (start + 1) limit⟩ else ⟨start, stop⟩

-- What ends a line, or the source, has its place at the end of the text.
def place (span : Span) : Place :=
  let span := exhibit.clamp span
  let line := Text.lineAt exhibit.source span.start
  ⟨line, min (Text.column exhibit.source line span.start) line.text.length,
    min (Text.column exhibit.source line span.stop) line.text.length⟩

def primary (diagnostic : Diagnostic) : PlacedMark :=
  (exhibit.place diagnostic.span).mark diagnostic.severity.style true ""

def marks (diagnostic : Diagnostic) : List PlacedMark :=
  exhibit.primary diagnostic :: diagnostic.related.map fun related =>
    (exhibit.place related.span).mark .Frame false related.message

end Exhibit

-- The columns that line numbers take.
abbrev Gutter := Nat

namespace Gutter

variable (gutter : Gutter)

-- Something drawn beside the source text.
def beside (row : Row) : Row :=
  (Row.write [] (gutter + 1) [⟨.Frame, '|'⟩]).write (gutter + 3) row

-- A number is aligned to the right, and a sign stands between it and the text.
def numbered (number : Nat) (sign : Row) (row : Row) : Row :=
  let digits := (toString number).toList
  let aligned := List.replicate (gutter - digits.length) ' ' ++ digits
  ((Row.ofChars .Frame aligned).write (gutter + 1) sign).write (gutter + 3) row

def patchRows (number : Nat) (patch : Patch) : List Row :=
  let newRow (sign : Row) := gutter.numbered number sign patch.newRow
  if patch.isDestructive then
    gutter.numbered number (Row.ofString .Removed "- ") patch.oldRow ::
      (if patch.newLine.all Text.isBlank then [] else [newRow (Row.ofString .Added "+ ")]) ++
      [gutter.beside []]
  else
    newRow (Row.ofString .Frame "| ") ::
      if patch.isWholeLine then [] else [gutter.beside patch.markRow]

def fixRows (place : Place) (fix : Fix) : List Row :=
  let patch : Patch := ⟨place.line.text, place.start, place.stop, fix.replacement.toList⟩
  [gutter.beside [], Row.ofString .Help "help" ++ Row.ofString .Plain (": " ++ fix.description),
    gutter.beside []] ++ gutter.patchRows place.line.number patch.shrink

end Gutter

-- The marked lines of a source, and the columns of them that are shown.
structure Excerpt where
  lines : List Line
  marks : List PlacedMark
  gutter : Gutter
  window : Window

namespace Excerpt

-- The columns that a row takes at most, with what stands before the source text.
def rowLength : Nat := 140

def ofMarks (lines : List Line) (marks : List PlacedMark) : Excerpt :=
  let marked := lines.filter fun line => marks.any (·.line == line)
  let gutter := (marked.map fun line => (toString line.number).length).foldl max 0
  let extent := Extent.ofLines (marked.map (·.text)) (marks.map (·.mark))
  ⟨lines, marks, gutter, Window.fit (rowLength - (gutter + 3)) extent⟩

variable (excerpt : Excerpt)

def sourceRow (line : Line) : Row :=
  excerpt.gutter.numbered line.number [⟨.Frame, '|'⟩] (excerpt.window.lineRow line.text)

-- A line with all marks that are on it.
def markedRows (line : Line) : List Row :=
  let own := (excerpt.marks.filter (·.line == line)).map PlacedMark.mark
  excerpt.sourceRow line ::
    (excerpt.window.markRows line.text (Mark.rows own)).map excerpt.gutter.beside

-- What lies between two lines that are shown: a single line is shown as well, more are left out.
def between (upper lower : Line) : List Row :=
  match excerpt.lines.filter fun line =>
      upper.number < line.number && line.number < lower.number with
  | [] => []
  | [line] => [excerpt.sourceRow line]
  | _ => [Window.ellipsis]

def rowsOf : List Line → List Row
  | [] => []
  | [line] => excerpt.markedRows line
  | line :: next :: rest =>
      excerpt.markedRows line ++ excerpt.between line next ++ rowsOf (next :: rest)

def rows : List Row :=
  excerpt.rowsOf (excerpt.lines.filter fun line => excerpt.marks.any (·.line == line))

end Excerpt

namespace Exhibit

variable (exhibit : Exhibit)

def messageRow (line : String) : Row :=
  Row.ofChars .Strong (Text.shown line.toList)

-- Further lines of a message are aligned with the first one.
def titleRows (diagnostic : Diagnostic) : List Row :=
  let name := Row.ofString diagnostic.severity.style diagnostic.severity.name ++
    Row.ofString .Strong ": "
  match diagnostic.message.splitOn "\n" with
  | [] => [name]
  | first :: rest =>
      (name ++ messageRow first) ::
        rest.map fun line => Row.blank name.length ++ messageRow line

-- Where the diagnostic is, as a line and a column that count from one. What follows the end of
-- the text is one column further on.
def pathRow (gutter : Gutter) (diagnostic : Diagnostic) (path : String) : Row :=
  let offset := (exhibit.clamp diagnostic.span).start
  let line := Text.lineAt exhibit.source offset
  let column := min (Text.column exhibit.source line offset) (line.text.length + 1) + 1
  Row.blank gutter ++ Row.ofString .Frame "--> " ++
    Row.ofString .Plain (path ++ ":" ++ toString line.number ++ ":" ++ toString column)

def diagnosticRows (diagnostic : Diagnostic) : List Row :=
  let excerpt := Excerpt.ofMarks (Text.lines exhibit.source) (exhibit.marks diagnostic)
  let gutter := excerpt.gutter
  titleRows diagnostic ++ exhibit.path.toList.map (exhibit.pathRow gutter diagnostic) ++
    [gutter.beside []] ++ excerpt.rows ++
    diagnostic.fix.toList.flatMap (gutter.fixRows (exhibit.place diagnostic.span))

def diagnosticText (diagnostic : Diagnostic) : String :=
  String.intercalate "\n" ((exhibit.diagnosticRows diagnostic).map (Row.text exhibit.isColored))

-- The diagnostics, with a blank line between them.
def text (diagnostics : List Diagnostic) : String :=
  String.intercalate "\n\n" (diagnostics.map exhibit.diagnosticText)

end Exhibit

end EffectLint
