import EffectLint.Tree.Basic

/-!
A tree as a list of lines, each with its depth: a node comes before its parts, and they come in
the order in which they are written.
-/

namespace EffectLint

structure OutlineLine where
  depth : Nat
  label : String
  span : Option Span
  detail : Option String
  deriving DecidableEq

abbrev Outline := Array OutlineLine

namespace Outline

def add (outline : Outline) (depth : Nat) (label : String) (span : Option Span)
    (detail : Option String) : Outline :=
  outline.push ⟨depth, label, span, detail⟩

def name (outline : Outline) (depth : Nat) (name : Name) : Outline :=
  outline.add depth "Name" (some name.span) (some name.text)

def promises (outline : Outline) (depth : Nat) (promises : Promises) : Outline :=
  let words := (if promises.isPure then ["pure"] else []) ++
    (if promises.isNothrow then ["nothrow"] else [])
  outline.add depth "Attrs" none (some (String.intercalate " " words))

mutual

def type (outline : Outline) (depth : Nat) : TypeTree → Outline
  | .Basic span type => outline.add depth "Basic" (some span) (some type.name)
  | .Named span name => outline.add depth "Named" (some span) (some name.text)
  | .Pointer span target => (outline.add depth "Pointer" (some span) none).type (depth + 1) target
  | .Array span element => (outline.add depth "Array" (some span) none).type (depth + 1) element
  | .AssocArray span value key =>
      ((outline.add depth "AssocArray" (some span) none).type (depth + 1) value).type
        (depth + 1) key
  | .Callable span isDelegate promises result parameters =>
      let word := if isDelegate then "delegate" else "function"
      let outline := outline.add depth "Callable" (some span) (some word)
      let outline := (outline.promises (depth + 1) promises).type (depth + 1) result
      outline.parameters (depth + 1) parameters
  | .Error span => outline.add depth "TypeError" (some span) none

def parameters (outline : Outline) (depth : Nat) : List (Parameter TypeTree) → Outline
  | [] => outline
  | ⟨isRef, parameterType, parameterName⟩ :: rest =>
      let outline := outline.add depth "Param" none (if isRef then some "ref" else none)
      let outline := outline.type (depth + 1) parameterType
      let outline := match parameterName with
        | some written => outline.name (depth + 1) written
        | none => outline
      outline.parameters depth rest

end

def connective : Connective → String × Option String
  | .Value op => ("Binary", some op.spelling)
  | .AndAnd => ("AndAnd", none)
  | .OrOr => ("OrOr", none)
  | .In => ("In", none)

def leading : LeadingOp → String × Option String
  | .Value op => ("Unary", some op.spelling)
  | .Deref => ("Deref", none)
  | .AddressOf => ("AddressOf", none)
  | .Delete => ("Delete", none)
  | .Step op => ("Step", some ("prefix " ++ op.spelling))

mutual

def expr (outline : Outline) (depth : Nat) : Expr → Outline
  | .Identifier span name => outline.add depth "Ident" (some span) (some name)
  | .Integer span value => outline.add depth "Int" (some span) (some (toString value))
  | .Text span text => outline.add depth "Str" (some span) (some text)
  | .Boolean span value =>
      outline.add depth "Bool" (some span) (some (if value then "true" else "false"))
  | .Null span => outline.add depth "Null" (some span) none
  | .Paren span inner => (outline.add depth "Paren" (some span) none).expr (depth + 1) inner
  | .Binary span op left right =>
      let (label, detail) := connective op
      ((outline.add depth label (some span) detail).expr (depth + 1) left).expr (depth + 1) right
  | .Assign span op target value =>
      let detail := match op with
        | some op => op.spelling
        | none => "="
      let outline := outline.add depth "Assign" (some span) (some detail)
      (outline.expr (depth + 1) target).expr (depth + 1) value
  | .Conditional span condition yes no =>
      let outline := (outline.add depth "Cond" (some span) none).expr (depth + 1) condition
      (outline.expr (depth + 1) yes).expr (depth + 1) no
  | .Comma span first second =>
      ((outline.add depth "Comma" (some span) none).expr (depth + 1) first).expr (depth + 1) second
  | .Leading span op operand =>
      let (label, detail) := leading op
      (outline.add depth label (some span) detail).expr (depth + 1) operand
  | .Step span op operand =>
      (outline.add depth "Step" (some span) (some ("postfix " ++ op.spelling))).expr
        (depth + 1) operand
  | .Cast span type operand =>
      ((outline.add depth "Cast" (some span) none).type (depth + 1) type).expr (depth + 1) operand
  | .New span name => outline.add depth "New" (some span) (some name.text)
  | .NewAnonymous span => outline.add depth "NewAnonClass" (some span) none
  | .Call span callee arguments =>
      ((outline.add depth "Call" (some span) none).expr (depth + 1) callee).exprs
        (depth + 1) arguments
  | .Index span base index =>
      ((outline.add depth "Index" (some span) none).expr (depth + 1) base).expr (depth + 1) index
  | .Remove span container key =>
      ((outline.add depth "Remove" (some span) none).expr (depth + 1) container).expr
        (depth + 1) key
  | .Tuple span elements => (outline.add depth "Tuple" (some span) none).exprs (depth + 1) elements
  | .Assert span condition none =>
      (outline.add depth "Assert" (some span) none).expr (depth + 1) condition
  | .Assert span condition (some message) =>
      ((outline.add depth "Assert" (some span) none).expr (depth + 1) condition).expr
        (depth + 1) message
  | .Declare span name value =>
      (outline.add depth "AutoDecl" (some span) (some name.text)).expr (depth + 1) value
  | .Compiles span operand =>
      (outline.add depth "TraitsCompiles" (some span) none).expr (depth + 1) operand
  | .Error span => outline.add depth "Error" (some span) none

def exprs (outline : Outline) (depth : Nat) : List Expr → Outline
  | [] => outline
  | first :: rest => (outline.expr depth first).exprs depth rest

end

def expr? (outline : Outline) (depth : Nat) : Option Expr → Outline
  | some value => outline.expr depth value
  | none => outline

def declaration (outline : Outline) (depth : Nat) (label : String) (written : VariableTree) :
    Outline :=
  let outline := outline.add depth label (some written.span) none
  let outline := (outline.type (depth + 1) written.type).name (depth + 1) written.name
  outline.expr? (depth + 1) written.value

mutual

def statement (outline : Outline) (depth : Nat) : Statement → Outline
  | .Evaluate value => (outline.add depth "ExprStmt" none none).expr (depth + 1) value
  | .Local written => outline.declaration depth "Local" written
  | .Return span value => (outline.add depth "Return" (some span) none).expr? (depth + 1) value
  | .If condition yes no =>
      let detail := if no.isSome then some "else" else none
      let outline := (outline.add depth "If" none detail).expr (depth + 1) condition
      let outline := outline.statement (depth + 1) yes
      match no with
      | some no => outline.statement (depth + 1) no
      | none => outline
  | .While condition body =>
      ((outline.add depth "While" none none).expr (depth + 1) condition).statement (depth + 1) body
  | .For first condition step body =>
      let words := (if first.isSome then ["init"] else []) ++
        (if condition.isSome then ["cond"] else []) ++ (if step.isSome then ["step"] else [])
      let outline := outline.add depth "For" none (some (String.intercalate " " words))
      let outline := match first with
        | some first => outline.statement (depth + 1) first
        | none => outline
      let outline := (outline.expr? (depth + 1) condition).expr? (depth + 1) step
      outline.statement (depth + 1) body
  | .Block span statements =>
      (outline.add depth "Block" (some span) none).statements (depth + 1) statements
  | .Empty span => outline.add depth "Empty" (some span) none

def statements (outline : Outline) (depth : Nat) : List Statement → Outline
  | [] => outline
  | first :: rest => (outline.statement depth first).statements depth rest

end

def item (outline : Outline) : Item → Outline
  | .Import name => outline.add 0 "Import" (some name.span) (some name.text)
  | .Alias name target => (outline.add 0 "Alias" (some name.span) (some name.text)).type 1 target
  | .Class name => outline.add 0 "Class" (some name.span) (some name.text)
  | .Function function =>
      let outline := (outline.add 0 "Function" (some function.span) none).name 1 function.name
      let outline := (outline.promises 1 function.promises).type 1 function.result
      let outline := outline.parameters 1 function.parameters
      match function.body with
      | some body => (outline.add 1 "Block" (some body.span) none).statements 2 body.statements
      | none => outline
  | .Global written => outline.declaration 0 "Global" written

def ofItems (items : List Item) : Outline :=
  items.foldl Outline.item #[]

end Outline

end EffectLint
