import EffectLint.Operator
import EffectLint.BasicType
import EffectLint.Text.Span

/-!
The tree of a module as written: names are not resolved and types are the expressions that
denote them. Every node knows the part of the source it stands for.
-/

namespace EffectLint

-- An identifier as it stands in the source.
structure Name where
  text : String
  span : Span
  deriving DecidableEq

-- What a function promises.
structure Promises where
  isPure : Bool
  isNothrow : Bool
  deriving DecidableEq

namespace Promises

def none : Promises :=
  ⟨false, false⟩

def both (left right : Promises) : Promises :=
  ⟨left.isPure || right.isPure, left.isNothrow || right.isNothrow⟩

end Promises

-- A parameter whose type is written as a `τ`.
structure Parameter (τ : Type) where
  isRef : Bool
  type : τ
  name : Option Name

inductive TypeTree where
  | Basic (span : Span) (type : BasicType)
  | Named (span : Span) (name : Name)
  | Pointer (span : Span) (target : TypeTree)
  | Array (span : Span) (element : TypeTree)
  | AssocArray (span : Span) (value key : TypeTree)
  -- a pointer to a function, or a delegate
  | Callable (span : Span) (isDelegate : Bool) (promises : Promises) (result : TypeTree)
      (parameters : List (Parameter TypeTree))
  -- stands where no type could be read
  | Error (span : Span)

namespace TypeTree

def span : TypeTree → Span
  | .Basic span _ | .Named span _ | .Pointer span _ | .Array span _ | .AssocArray span _ _
  | .Callable span _ _ _ _ | .Error span => span

def isError : TypeTree → Bool
  | .Error _ => true
  | _ => false

end TypeTree

-- What may stand between two operands of the climbing operators.
inductive Connective where
  | Value (op : BinaryOp)
  | AndAnd
  | OrOr
  | In
  deriving DecidableEq

namespace Connective

def level : Connective → Nat
  | .Value op => op.level
  | .OrOr => Level.orOr
  | .AndAnd => Level.andAnd
  | .In => Level.compare

end Connective

-- What may stand in front of a single operand.
inductive LeadingOp where
  | Value (op : UnaryOp)
  | Deref
  | AddressOf
  | Delete
  | Step (op : StepOp)
  deriving DecidableEq

inductive Expr where
  | Identifier (span : Span) (name : String)
  | Integer (span : Span) (value : Nat)
  | Text (span : Span) (text : String)
  | Boolean (span : Span) (value : Bool)
  | Null (span : Span)
  | Paren (span : Span) (inner : Expr)
  | Binary (span : Span) (op : Connective) (left right : Expr)
  -- a plain assignment, or one that applies an operator first
  | Assign (span : Span) (op : Option AssignOp) (target value : Expr)
  | Conditional (span : Span) (condition yes no : Expr)
  | Comma (span : Span) (first second : Expr)
  | Leading (span : Span) (op : LeadingOp) (operand : Expr)
  -- a step written after its operand
  | Step (span : Span) (op : StepOp) (operand : Expr)
  | Cast (span : Span) (type : TypeTree) (operand : Expr)
  | New (span : Span) (name : Name)
  | NewAnonymous (span : Span)
  | Call (span : Span) (callee : Expr) (arguments : List Expr)
  | Index (span : Span) (base index : Expr)
  | Remove (span : Span) (container key : Expr)
  | Tuple (span : Span) (elements : List Expr)
  | Assert (span : Span) (condition : Expr) (message : Option Expr)
  -- `auto name = value`
  | Declare (span : Span) (name : Name) (value : Expr)
  -- whether the operand would be accepted
  | Compiles (span : Span) (operand : Expr)
  -- stands where no expression could be read
  | Error (span : Span)

namespace Expr

def span : Expr → Span
  | .Identifier span _ | .Integer span _ | .Text span _ | .Boolean span _ | .Null span
  | .Paren span _ | .Binary span _ _ _ | .Assign span _ _ _ | .Conditional span _ _ _
  | .Comma span _ _ | .Leading span _ _ | .Step span _ _ | .Cast span _ _ | .New span _
  | .NewAnonymous span | .Call span _ _ | .Index span _ _ | .Remove span _ _ | .Tuple span _
  | .Assert span _ _ | .Declare span _ _ | .Compiles span _ | .Error span => span

-- `0` or `false`, however many parentheses stand around it.
def isFalseLiteral : Expr → Bool
  | .Integer _ value => value == 0
  | .Boolean _ value => !value
  | .Paren _ inner => inner.isFalseLiteral
  | _ => false

end Expr

-- `type name [= value]`
structure VariableTree where
  span : Span
  type : TypeTree
  name : Name
  value : Option Expr

inductive Statement where
  | Evaluate (value : Expr)
  | Local (declared : VariableTree)
  | Return (span : Span) (value : Option Expr)
  | If (condition : Expr) (yes : Statement) (no : Option Statement)
  | While (condition : Expr) (body : Statement)
  | For (first : Option Statement) (condition step : Option Expr) (body : Statement)
  | Block (span : Span) (statements : List Statement)
  | Empty (span : Span)

structure Block where
  span : Span
  statements : List Statement

structure FunctionTree where
  span : Span
  name : Name
  promises : Promises
  result : TypeTree
  parameters : List (Parameter TypeTree)
  body : Option Block

inductive Item where
  | Import (name : Name)
  | Alias (name : Name) (target : TypeTree)
  | Class (name : Name)
  | Function (declared : FunctionTree)
  | Global (declared : VariableTree)

end EffectLint
