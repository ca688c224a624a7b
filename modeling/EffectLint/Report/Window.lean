import EffectLint.Report.Mark
import EffectLint.Text.Shown

/-!
The columns of source text that are shown. The lines of an excerpt are all cut at the same
columns, so that their marks stay in line, and an ellipsis stands where a line was cut.
-/

namespace EffectLint

-- What has to be seen, in columns. Ends are one past the last column.
structure Extent where
  -- the blanks that every line starts with
  indent : Nat
  -- the marks, without and with labels beside them
  start : Nat
  stop : Nat
  reach : Nat
  -- the longest line
  length : Nat

structure Window where
  -- how many columns there is room for
  room : Nat
  left : Nat
  right : Nat
  deriving DecidableEq

namespace Extent

-- The column past a mark and its label, counting the blank between them.
def markReach (mark : Mark) : Nat :=
  if mark.isPrimary then mark.stop else mark.stop + mark.label.length + 1

-- A blank line has no indentation, and text with a mark in it is not indentation either.
def ofLines (lines : List (List Char)) (marks : List Mark) : Extent :=
  let start := (marks.map (·.start)).min?.getD 0
  let indents := (lines.filter fun line => !line.all Text.isBlank).map fun line =>
    (Text.shown (line.takeWhile Text.isBlank)).length
  ⟨min (indents.min?.getD 0) start, start, (marks.map (·.stop)).foldl max 0,
    (marks.map markReach).foldl max 0,
    (lines.map fun line => (Text.shown line).length).foldl max 0⟩

end Extent

namespace Window

-- Columns kept free on either side of the marks, for an ellipsis and some text.
def slack : Nat := 6

def startingAt (room left : Nat) : Window :=
  ⟨room, left, left + room⟩

-- Deep indentation is cut down in any case. If the rest is still too long, the marks stay in
-- view together with as much before them as possible: the text from its indentation on, then
-- their labels, then the marks alone.
def fit (room : Nat) (extent : Extent) : Window :=
  let indent := extent.indent - slack
  let start := extent.start - slack
  let stop := extent.stop + slack
  let reach := extent.reach + slack
  let left := if indent ≤ 20 then 0 else indent - 16
  let right := max extent.length left
  if right - left ≤ room then ⟨room, left, right⟩
  else if reach - indent ≤ room then startingAt room indent
  else if reach - start ≤ room then startingAt room (start - (room - (reach - start)) / 2)
  else if stop - start ≤ room then startingAt room (start - (room - (stop - start)) / 5 * 2)
  else ⟨room, start, stop⟩

variable (window : Window)

-- The columns of a line of some length that are shown.
def lineStart (length : Nat) : Nat :=
  min window.left length

def lineStop (length : Nat) : Nat :=
  if length - window.left ≤ window.room then length else min length window.right

def ellipsis : Row :=
  Row.ofString .Frame "..."

-- A line of source text. Its last columns give way to an ellipsis only if the line is cut there,
-- but where lines are cut at the front, all of them are, even those with nothing to show.
def lineRow (text : List Char) : Row :=
  let text := Text.shown text
  let stop := window.lineStop text.length
  let row := Row.ofChars .Plain ((text.take stop).drop (window.lineStart text.length))
  let front := if window.left = 0 then row else row.write 0 ellipsis
  if text.length ≤ stop then front else front.write (row.length - ellipsis.length) ellipsis

-- Rows of marks for a line, cut as the line is.
def markRows (text : List Char) (rows : List Row) : List Row :=
  rows.map (·.drop (window.lineStart (Text.shown text).length))

end Window

end EffectLint
