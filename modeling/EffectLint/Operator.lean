/-!
The operators of the language: how each is written and how tightly it binds. The grammar and
the display text of expressions read the same table of levels.
-/

namespace EffectLint

-- Binding strength, loosest first. An operand stands bare wherever its own level is at least
-- the level its position asks for, and in parentheses elsewhere.
namespace Level

abbrev comma : Nat := 1
abbrev assign : Nat := 2
abbrev conditional : Nat := 3
abbrev orOr : Nat := 4
abbrev andAnd : Nat := 5
abbrev bitOr : Nat := 6
abbrev bitXor : Nat := 7
abbrev bitAnd : Nat := 8
abbrev compare : Nat := 9
abbrev shift : Nat := 10
abbrev add : Nat := 11
abbrev multiply : Nat := 12
abbrev power : Nat := 13
abbrev unary : Nat := 14
abbrev attached : Nat := 15
abbrev primary : Nat := 16

end Level

-- Operators that only compute a value from two values.
inductive BinaryOp where
  | Add
  | Sub
  | Concat
  | Mul
  | Div
  | Mod
  | Pow
  | Shl
  | Shr
  | Ushr
  | BitAnd
  | BitOr
  | BitXor
  | Eq
  | Ne
  | Lt
  | Le
  | Gt
  | Ge
  | Identical
  | NotIdentical
  deriving DecidableEq

namespace BinaryOp

def all : List BinaryOp :=
  [.Add, .Sub, .Concat, .Mul, .Div, .Mod, .Pow, .Shl, .Shr, .Ushr, .BitAnd, .BitOr, .BitXor,
    .Eq, .Ne, .Lt, .Le, .Gt, .Ge, .Identical, .NotIdentical]

def spelling : BinaryOp → String
  | .Add => "+"
  | .Sub => "-"
  | .Concat => "~"
  | .Mul => "*"
  | .Div => "/"
  | .Mod => "%"
  | .Pow => "^^"
  | .Shl => "<<"
  | .Shr => ">>"
  | .Ushr => ">>>"
  | .BitAnd => "&"
  | .BitOr => "|"
  | .BitXor => "^"
  | .Eq => "=="
  | .Ne => "!="
  | .Lt => "<"
  | .Le => "<="
  | .Gt => ">"
  | .Ge => ">="
  | .Identical => "is"
  | .NotIdentical => "!is"

def level : BinaryOp → Nat
  | .BitOr => Level.bitOr
  | .BitXor => Level.bitXor
  | .BitAnd => Level.bitAnd
  | .Eq | .Ne | .Lt | .Le | .Gt | .Ge | .Identical | .NotIdentical => Level.compare
  | .Shl | .Shr | .Ushr => Level.shift
  | .Add | .Sub | .Concat => Level.add
  | .Mul | .Div | .Mod => Level.multiply
  | .Pow => Level.power

-- Powers group to the right, every other operator to the left.
def groupsRight (op : BinaryOp) : Bool :=
  op == .Pow

def isComparison (op : BinaryOp) : Bool :=
  op.level == Level.compare

end BinaryOp

-- Operators that an assignment `op=` applies before it stores.
inductive AssignOp where
  | Add
  | Sub
  | Concat
  | Mul
  | Div
  | Mod
  | Shl
  | Shr
  | Ushr
  | BitAnd
  | BitOr
  | BitXor
  | Pow
  deriving DecidableEq

namespace AssignOp

def all : List AssignOp :=
  [.Add, .Sub, .Concat, .Mul, .Div, .Mod, .Shl, .Shr, .Ushr, .BitAnd, .BitOr, .BitXor, .Pow]

def spelling : AssignOp → String
  | .Add => "+="
  | .Sub => "-="
  | .Concat => "~="
  | .Mul => "*="
  | .Div => "/="
  | .Mod => "%="
  | .Shl => "<<="
  | .Shr => ">>="
  | .Ushr => ">>>="
  | .BitAnd => "&="
  | .BitOr => "|="
  | .BitXor => "^="
  | .Pow => "^^="

end AssignOp

inductive UnaryOp where
  | Negate
  | Plus
  | Not
  | Complement
  deriving DecidableEq

namespace UnaryOp

def all : List UnaryOp :=
  [.Negate, .Plus, .Not, .Complement]

def spelling : UnaryOp → String
  | .Negate => "-"
  | .Plus => "+"
  | .Not => "!"
  | .Complement => "~"

end UnaryOp

-- Whether `++` or `--` stands before its operand or after it.
inductive Fixity where
  | Before
  | After
  deriving DecidableEq

-- The two operators that change their operand by one.
inductive StepOp where
  | Increment
  | Decrement
  deriving DecidableEq

def StepOp.spelling : StepOp → String
  | .Increment => "++"
  | .Decrement => "--"

end EffectLint
