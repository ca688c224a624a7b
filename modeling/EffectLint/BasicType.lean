/-!
The types that have a keyword of their own.
-/

namespace EffectLint

inductive BasicType where
  | Void
  | Boolean
  | Integer
  | Long
  | Unsigned
  | Character
  | Double
  | Text
  deriving DecidableEq

namespace BasicType

def all : List BasicType :=
  [.Void, .Boolean, .Integer, .Long, .Unsigned, .Character, .Double, .Text]

def name : BasicType → String
  | .Void => "void"
  | .Boolean => "bool"
  | .Integer => "int"
  | .Long => "long"
  | .Unsigned => "uint"
  | .Character => "char"
  | .Double => "double"
  | .Text => "string"

def isNumeric : BasicType → Bool
  | .Integer | .Long | .Unsigned | .Character | .Double => true
  | .Void | .Boolean | .Text => false

-- Rank in arithmetic. Everything below `uint` counts as `int`.
def rank : BasicType → Nat
  | .Double => 4
  | .Long => 3
  | .Unsigned => 2
  | .Void | .Boolean | .Integer | .Character | .Text => 1

-- The type of an arithmetic operation on two numbers: the operand of higher rank, the left
-- one when they agree, and `int` when both have the lowest rank.
def wider (left right : BasicType) : BasicType :=
  if left.rank < right.rank then right
  else if left.rank = 1 then .Integer
  else left

end BasicType

end EffectLint
