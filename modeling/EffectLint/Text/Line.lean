import EffectLint.Text.Span

/-!
The lines of a text. A line knows its number and the offset at which it starts, so that a place
in the text can be given as a line and a column.
-/

namespace EffectLint

structure Line where
  -- counted from one
  number : Nat
  start : Nat
  -- without what ends the line
  text : List Char
  deriving DecidableEq

namespace Text

-- A line feed ends a line, and a carriage return right before it belongs to the end.
def dropReturn (reversed : List Char) : List Char :=
  match reversed with
  | '\r' :: before => before
  | _ => reversed

-- The lines from the one that has begun with `seen`, which is reversed.
def linesFrom (number start : Nat) (seen : List Char) : List Char → List Line
  | [] => if seen.isEmpty then [] else [⟨number, start, seen.reverse⟩]
  | char :: rest =>
      if char = '\n' then
        ⟨number, start, (dropReturn seen).reverse⟩ ::
          linesFrom (number + 1) (start + width seen + 1) [] rest
      else linesFrom number start (char :: seen) rest

-- What follows the last line feed is a line only if there is anything. An empty text still has
-- one line.
def lines (text : List Char) : List Line :=
  if text.isEmpty then [⟨1, 0, []⟩] else linesFrom 1 0 [] text

-- The last line that starts at or before an offset.
def lineAt (text : List Char) (offset : Nat) : Line :=
  ((lines text).takeWhile (·.start ≤ offset)).getLast?.getD ⟨1, 0, []⟩

-- The number of characters between the start of a line and an offset.
def column (text : List Char) (line : Line) (offset : Nat) : Nat :=
  (slice text ⟨line.start, offset⟩).length

end Text

end EffectLint
