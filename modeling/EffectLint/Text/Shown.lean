/-!
How characters appear on a terminal. Control characters have pictures of their own, so that every
column of a shown text holds something to point at.
-/

namespace EffectLint

namespace Text

-- Marks that turn the direction of text. They would put a shown text out of order.
def isDirectional (char : Char) : Bool :=
  ('\u202a' ≤ char && char ≤ '\u202e') || ('\u2066' ≤ char && char ≤ '\u2069')

-- A tab takes four columns. A joiner takes none, and any other character takes one.
def picture (char : Char) : List Char :=
  if char = '\t' then [' ', ' ', ' ', ' ']
  else if char = '\n' then ['\n']
  else if char < ' ' then [Char.ofNat (0x2400 + char.toNat)]
  else if char = '\x7f' then ['\u2421']
  else if char = '\u200d' then []
  else if isDirectional char then ['\ufffd']
  else [char]

def shown (text : List Char) : List Char :=
  text.flatMap picture

-- Blanks by the property White_Space, which has not changed since Unicode 6.3.
def isBlank (char : Char) : Bool :=
  ('\t' ≤ char && char ≤ '\r') || char == ' ' || char == '\u0085' || char == '\u00a0' ||
    char == '\u1680' || ('\u2000' ≤ char && char ≤ '\u200a') || char == '\u2028' ||
    char == '\u2029' || char == '\u202f' || char == '\u205f' || char == '\u3000'

-- A text without the blanks at both ends.
def trim (text : List Char) : List Char :=
  ((text.dropWhile isBlank).reverse.dropWhile isBlank).reverse

end Text

end EffectLint
