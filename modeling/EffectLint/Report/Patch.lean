import EffectLint.Report.Mark
import EffectLint.Text.Shown

/-!
A line of source text with a fix applied. A fix that loses nothing of the line is shown by the
new line, with the new text marked; any other by the old line and the new one.
-/

namespace EffectLint

-- Characters of a line that are replaced.
structure Patch where
  line : List Char
  start : Nat
  stop : Nat
  replacement : List Char
  deriving DecidableEq

namespace Patch

def before (patch : Patch) : List Char :=
  patch.line.take patch.start

def replaced (patch : Patch) : List Char :=
  (patch.line.take patch.stop).drop patch.start

def after (patch : Patch) : List Char :=
  patch.line.drop patch.stop

def newLine (patch : Patch) : List Char :=
  patch.before ++ patch.replacement ++ patch.after

def commonLength : List Char → List Char → Nat
  | left :: leftRest, right :: rightRest =>
      if left = right then commonLength leftRest rightRest + 1 else 0
  | _, _ => 0

-- How much of the replaced text can stay at its front, so that the rest of it can stay at its
-- end and only text between the two is new.
def keptFront? (replaced replacement : List Char) : Option Nat :=
  if replaced.isPrefixOf replacement then some replaced.length
  else if replaced.isSuffixOf replacement then some 0
  else
    let front := commonLength replaced replacement
    if (replaced.drop front).isSuffixOf (replacement.drop front) then some front else none

-- The same change with as little replaced as possible.
def shrink (patch : Patch) : Patch :=
  match keptFront? patch.replaced patch.replacement with
  | some front =>
      let back := patch.replaced.length - front
      { patch with
        start := patch.start + front
        stop := patch.start + front
        replacement :=
          (patch.replacement.take (patch.replacement.length - back)).drop front }
  | none => patch

-- Something other than blanks is replaced.
def isLossy (patch : Patch) : Bool :=
  !patch.replaced.all Text.isBlank

-- Text that comes back in the new text, apart from blanks around it, is not lost.
def isDestructive (patch : Patch) : Bool :=
  patch.isLossy && (patch.replacement.all Text.isBlank ||
    (keptFront? (Text.trim patch.replaced) (Text.trim patch.replacement)).isNone)

-- Nothing of the old line is left beside the new text.
def isWholeLine (patch : Patch) : Bool :=
  Text.trim patch.replacement == Text.trim patch.newLine

def oldRow (patch : Patch) : Row :=
  Row.ofChars .Plain (Text.shown patch.before) ++
    Row.ofChars .Removed (Text.shown patch.replaced) ++
    Row.ofChars .Plain (Text.shown patch.after)

def newRow (patch : Patch) : Row :=
  Row.ofChars .Plain (Text.shown patch.before) ++
    Row.ofChars .Added (Text.shown patch.replacement) ++
    Row.ofChars .Plain (Text.shown patch.after)

def sign (patch : Patch) : Char :=
  if patch.isLossy then '~' else '+'

-- Blanks around the new text are not marked, unless it is all blanks.
def markRow (patch : Patch) : Row :=
  let marked := if patch.replacement.all Text.isBlank then patch.replacement
    else Text.trim patch.replacement
  let leading := if patch.replacement.all Text.isBlank then []
    else patch.replacement.takeWhile Text.isBlank
  Row.write [] ((Text.shown patch.before).length + leading.length)
    (Row.ofChars .Added (List.replicate (Text.shown marked).length patch.sign))

end Patch

end EffectLint
