import EffectLint.Operator
import EffectLint.Name.Scope

/-!
The nodes of lowered expressions. A node names its operands by their numbers in the arena.
-/

namespace EffectLint

structure NodeId where
  index : Nat
  deriving DecidableEq, Inhabited

-- The ways of storing a value in a place.
inductive Store where
  | Plain
  -- the first value of a variable
  | Construct
  -- a copy of the bare bytes
  | Blit
  | Compound (op : AssignOp)
  deriving DecidableEq

-- The operators that may leave out their right operand.
inductive LogicalOp where
  | And
  | Or
  deriving DecidableEq

inductive NodeKind where
  | Assign (store : Store) (target value : NodeId)
  | Step (op : StepOp) (fixity : Fixity) (operand : NodeId)
  | Declare (declared : VariableId) (value : Option NodeId)
  | In (key container : NodeId)
  | Remove (container key : NodeId)
  | Assert (condition : NodeId) (message : Option NodeId)
  -- a trap that always springs
  | Halt
  | Delete (operand : NodeId)
  | New (type : TypeId)
  | NewAnonymous
  -- with the function where the callee names one
  | Call (callee : NodeId) (arguments : List NodeId) (function : Option FunctionId)
  | Cast (type : TypeId) (operand : NodeId)
  | Logical (op : LogicalOp) (left right : NodeId)
  | Conditional (condition yes no : NodeId)
  | Comma (first second : NodeId)
  | Variable (id : VariableId)
  | Function (id : FunctionId)
  | Tuple (elements : List NodeId)
  -- stands for an expression that is wrong
  | Error
  | Module (id : ModuleId)
  | Binary (op : BinaryOp) (left right : NodeId)
  | Unary (op : UnaryOp) (operand : NodeId)
  | Deref (operand : NodeId)
  | AddressOf (operand : NodeId)
  | Index (base index : NodeId)
  | Integer (value : Int)
  | Boolean (value : Bool)
  | Text (text : String)
  | Null
  deriving DecidableEq

def Store.spelling : Store → String
  | .Plain | .Construct | .Blit => "="
  | .Compound op => op.spelling

def LogicalOp.spelling : LogicalOp → String
  | .And => "&&"
  | .Or => "||"

namespace NodeKind

-- In the order in which they are evaluated.
def operands : NodeKind → List NodeId
  | .Assign _ target value => [target, value]
  | .Step _ _ operand | .Delete operand | .Cast _ operand | .Unary _ operand | .Deref operand
  | .AddressOf operand => [operand]
  | .Declare _ value => value.toList
  | .In key container => [key, container]
  | .Remove container key => [container, key]
  | .Assert condition message => condition :: message.toList
  | .Call callee arguments _ => callee :: arguments
  | .Logical _ left right | .Binary _ left right => [left, right]
  | .Conditional condition yes no => [condition, yes, no]
  | .Comma first second => [first, second]
  | .Tuple elements => elements
  | .Index base index => [base, index]
  | .Halt | .New _ | .NewAnonymous | .Variable _ | .Function _ | .Error | .Module _ | .Integer _
  | .Boolean _ | .Text _ | .Null => []

-- The word for a node in a message about it.
def operatorName : NodeKind → String
  | .Assign store _ _ => store.spelling
  | .Step op _ _ => op.spelling
  | .Declare _ _ => "declaration"
  | .In _ _ => "in"
  | .Remove _ _ => "remove"
  | .Assert _ _ => "assert"
  | .Halt => "halt"
  | .Delete _ => "delete"
  | .New _ | .NewAnonymous => "new"
  | .Call _ _ _ => "call"
  | .Cast _ _ => "cast"
  | .Logical op _ _ => op.spelling
  | .Conditional _ _ _ => "?"
  | .Comma _ _ => ","
  | .Variable _ | .Function _ => "var"
  | .Tuple _ => "tuple"
  | .Error => "error"
  | .Module _ => "import"
  | .Binary op _ _ => op.spelling
  | .Unary op _ => op.spelling
  | .Deref _ => "*"
  | .AddressOf _ => "&"
  | .Index _ _ => "index"
  | .Integer _ | .Boolean _ | .Text _ => "literal"
  | .Null => "null"

-- The word for a node in a dump.
def name : NodeKind → String
  | .Assign .Plain _ _ => "Assign"
  | .Assign .Construct _ _ => "Construct"
  | .Assign .Blit _ _ => "Blit"
  | .Assign (.Compound _) _ _ => "CompoundAssign"
  | .Step .Increment _ _ => "Increment"
  | .Step .Decrement _ _ => "Decrement"
  | .Declare _ _ => "Declaration"
  | .In _ _ => "In"
  | .Remove _ _ => "Remove"
  | .Assert _ _ => "Assert"
  | .Halt => "Halt"
  | .Delete _ => "Delete"
  | .New _ => "New"
  | .NewAnonymous => "NewAnonClass"
  | .Call _ _ _ => "Call"
  | .Cast _ _ => "Cast"
  | .Logical .And _ _ => "AndAnd"
  | .Logical .Or _ _ => "OrOr"
  | .Conditional _ _ _ => "Cond"
  | .Comma _ _ => "Comma"
  | .Variable _ => "Var"
  | .Function _ => "Func"
  | .Tuple _ => "Tuple"
  | .Error => "Error"
  | .Module _ => "Import"
  | .Binary _ _ _ => "Binary"
  | .Unary _ _ => "Unary"
  | .Deref _ => "Deref"
  | .AddressOf _ => "AddressOf"
  | .Index _ _ => "Index"
  | .Integer _ => "IntLiteral"
  | .Boolean _ => "BoolLiteral"
  | .Text _ => "StringLiteral"
  | .Null => "Null"

-- How tightly the written form holds together.
def level : NodeKind → Nat
  | .Comma _ _ => Level.comma
  | .Assign _ _ _ | .Declare _ _ => Level.assign
  | .Conditional _ _ _ => Level.conditional
  | .Logical .Or _ _ => Level.orOr
  | .Logical .And _ _ => Level.andAnd
  | .Binary op _ _ => op.level
  | .In _ _ => Level.compare
  | .Unary _ _ | .Deref _ | .AddressOf _ | .Cast _ _ | .Delete _ | .New _ | .NewAnonymous
  | .Step _ .Before _ => Level.unary
  | .Step _ .After _ | .Call _ _ _ | .Index _ _ | .Remove _ _ => Level.attached
  | .Assert _ _ | .Halt | .Variable _ | .Function _ | .Tuple _ | .Error | .Module _ | .Integer _
  | .Boolean _ | .Text _ | .Null => Level.primary

end NodeKind

structure Node where
  kind : NodeKind
  -- a reference to a module has none
  type : Option TypeId
  span : Span
  deriving DecidableEq

end EffectLint
