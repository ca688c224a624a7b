import EffectLint.Text.Styled

/-!
Marks under a line of source text. A label stands to the right of its mark, unless it would run
into another mark; then it hangs below, at the end of a line drawn down from the mark.
-/

namespace EffectLint

structure Mark where
  style : Style
  isPrimary : Bool
  -- columns, the second one past the end
  start : Nat
  stop : Nat
  label : List Char
  deriving DecidableEq

-- A mark and how far down its label hangs, where zero is beside the mark.
structure HungMark where
  mark : Mark
  drop : Nat
  deriving DecidableEq

namespace Mark

def sign (mark : Mark) : Char :=
  if mark.isPrimary then '^' else '-'

def length (mark : Mark) : Nat :=
  mark.stop - mark.start

def hasLabel (mark : Mark) : Bool :=
  !mark.label.isEmpty

-- Two ranges of columns meet when one of them holds the start of the other.
def meets (start stop otherStart otherStop : Nat) : Bool :=
  (otherStart ≤ start && start < otherStop) || (start ≤ otherStart && otherStart < stop)

-- The columns that a mark takes with its label beside it, and one blank on either side.
def reach (mark : Mark) : Nat :=
  if mark.hasLabel then mark.stop + mark.label.length + 2 else mark.stop

-- A label that would have to be written across the mark `left`.
def isCrossed (mark left : Mark) : Bool :=
  mark.hasLabel && meets left.start left.stop mark.start mark.stop &&
    !(left.start == mark.start && left.stop == mark.stop && !left.hasLabel)

-- Whether the label of `left`, written beside it, would run into `mark`, whose own label
-- hangs at `drop`.
def isReached (mark left : Mark) (drop : Nat) : Bool :=
  left.hasLabel && meets left.start left.reach mark.start mark.stop &&
    (mark.hasLabel || (left.stop ≤ mark.stop && drop == 0))

-- Marks from right to left. No label hangs higher than those to the right of it.
def hangFrom (drop : Nat) : List Mark → List HungMark
  | [] => []
  | mark :: rest =>
      let drop := if drop == 0 && rest.any mark.isCrossed then 1 else drop
      let next := if rest.any (mark.isReached · drop) then drop + 1 else drop
      ⟨mark, drop⟩ :: hangFrom next rest

def hang (marks : List Mark) : List HungMark :=
  hangFrom 0 (marks.mergeSort fun left right => right.start ≤ left.start)

-- Long marks are drawn first, so that short ones stay visible, and primary ones last.
def drawnBefore (left right : Mark) : Bool :=
  right.length < left.length ||
    (left.length == right.length && (!left.isPrimary || right.isPrimary))

def signs (mark : Mark) : Row :=
  Row.ofChars mark.style (List.replicate mark.length mark.sign)

end Mark

namespace HungMark

-- The line down to a hanging label.
def drawLine (hung : HungMark) (depth : Nat) (row : Row) : Row :=
  if hung.mark.hasLabel && 0 < hung.drop && depth ≤ hung.drop then
    row.write hung.mark.start [⟨hung.mark.style, '|'⟩]
  else row

def drawLabel (hung : HungMark) (depth : Nat) (row : Row) : Row :=
  let label := Row.ofChars hung.mark.style hung.mark.label
  if hung.drop == 0 then
    if depth == 0 then row.write (hung.mark.stop + 1) label else row
  else if depth == hung.drop + 1 then row.write hung.mark.start label
  else row

end HungMark

namespace Mark

-- One of the rows under the source text, where row zero holds the marks themselves.
def rowAt (hung : List HungMark) (depth : Nat) : Row :=
  let lines := hung.foldl (fun row mark => mark.drawLine depth row) []
  let labels := hung.foldl (fun row mark => mark.drawLabel depth row) lines
  if depth == 0 then
    let marks := (hung.map HungMark.mark).mergeSort drawnBefore
    marks.foldl (fun row mark => row.write mark.start mark.signs) labels
  else labels

def rows (marks : List Mark) : List Row :=
  let hung := hang marks
  let lowest := (hung.map HungMark.drop).foldl max 0
  (List.range (if lowest == 0 then 1 else lowest + 2)).map (rowAt hung)

end Mark

end EffectLint
