import EffectLint.Lowering.Type
import EffectLint.Text.Span

/-!
The node for an expression whose operands are lowered. An operand that is wrong makes the whole
expression wrong without a further report, so one mistake is reported once.
-/

namespace EffectLint

namespace Lower

def anyError : List NodeId → Lower Bool
  | [] => return false
  | id :: rest => do
      if ← isError id then
        return true
      else
        anyError rest

-- The node that `build` makes unless one of its operands is wrong.
def unlessError (span : Span) (operands : List NodeId) (build : Lower NodeId) : Lower NodeId := do
  if ← anyError operands then
    errorNode span
  else
    build

-- `operator(left, right)` on numbers of the given types. Text joins to the type of its left
-- part, and what is no arithmetic has the type of its left operand.
def binaryType (table : TypeTable) (op : BinaryOp) (left right : Option TypeId) : TypeId :=
  let left := left.getD .error
  let right := right.getD .error
  if op.isComparison then .bool
  else if op = .Concat then left
  else
    match table.resolvedShape left, table.resolvedShape right with
    | .Basic leftType, .Basic rightType =>
        if leftType.isNumeric && rightType.isNumeric then .ofBasic (leftType.wider rightType)
        else left
    | _, _ => left

def pointerTarget? (table : TypeTable) (type : TypeId) : Option TypeId :=
  match table.resolvedShape type with
  | .Pointer target => some target
  | _ => none

def mapValue? (table : TypeTable) (type : TypeId) : Option TypeId :=
  match table.resolvedShape type with
  | .AssocArray _ value => some value
  | _ => none

-- What indexing a value of the type gives.
def element? (table : TypeTable) (type : TypeId) : Option TypeId :=
  match table.resolvedShape type with
  | .Array element | .Pointer element => some element
  | .AssocArray _ value => some value
  | .Basic .Text => some .char
  | _ => none

def leaf (kind : NodeKind) (type : TypeId) (span : Span) : Lower NodeId :=
  addNode ⟨kind, some type, span⟩

-- Literals that fit into a signed word of 32 bits are `int`.
def intBound : Nat :=
  Nat.pow 2 31

def integerNode (value : Nat) (span : Span) : Lower NodeId :=
  leaf (.Integer value) (if value < intBound then .int else .long) span

def nameNode (name : String) (span : Span) : Lower NodeId := do
  match ← lookup name with
  | some (.Variable id) =>
      let entryType := (← get).program.variableType id
      leaf (.Variable id) entryType span
  | some (.Function id) =>
      let entryType := (← get).program.functionType id
      leaf (.Function id) entryType span
  | some (.Module id) => addNode ⟨.Module id, none, span⟩
  | some (.Type _) =>
      report (.about .NotAValue span name)
      errorNode span
  | none =>
      report (.about .UndefinedIdentifier span name)
      errorNode span

def newNode (name : Name) (span : Span) : Lower NodeId := do
  let table ← types
  match ← lookup name.text with
  | some (.Type id) =>
      if table.isClass id then
        leaf (.New id) id span
      else
        report (.about .NotAClass name.span name.text)
        errorNode span
  | _ =>
      report (.about .NotAClass name.span name.text)
      errorNode span

-- All classes without a name share one type.
def newAnonymousNode (span : Span) : Lower NodeId := do
  let name ← symbol "__anonclass"
  let type ← internType (.Class name)
  leaf .NewAnonymous type span

variable (source : List Char)

-- The text that a diagnostic about a part of the source quotes.
def quote (span : Span) : String :=
  String.ofList (Text.slice source span)

-- Report what is wrong with an operand, in place of the whole expression.
def rejectOperand (kind : DiagnosticKind) (operand : NodeId) : Lower NodeId := do
  let span := (← node operand).span
  report (.about kind span (quote source span))
  errorNode span

def connectiveNode (op : Connective) (span : Span) (left right : NodeId) : Lower NodeId :=
  unlessError span [left, right] do
    match op with
    | .Value op =>
        let type := binaryType (← types) op (← typeOf left) (← typeOf right)
        leaf (.Binary op left right) type span
    | .AndAnd => leaf (.Logical .And left right) .bool span
    | .OrOr => leaf (.Logical .Or left right) .bool span
    | .In =>
        match (← typeOf right).bind (mapValue? (← types)) with
        | some value => leaf (.In left right) (← internType (.Pointer value)) span
        | none => rejectOperand source .NotAssociative right

def assignNode (op : Option AssignOp) (span : Span) (target value : NodeId) : Lower NodeId :=
  unlessError span [target, value] do
    let store := match op with
      | some op => Store.Compound op
      | none => .Plain
    addNode ⟨.Assign store target value, ← typeOf target, span⟩

-- The type of the first branch, unless that is `null` or nothing.
def conditionalNode (span : Span) (condition yes no : NodeId) : Lower NodeId :=
  unlessError span [condition, yes, no] do
    let yesType ← typeOf yes
    let type ←
      if yesType = some .null ∨ yesType = none then
        typeOf no
      else
        pure yesType
    addNode ⟨.Conditional condition yes no, type, span⟩

def commaNode (span : Span) (first second : NodeId) : Lower NodeId :=
  unlessError span [first, second] do
    addNode ⟨.Comma first second, ← typeOf second, span⟩

def leadingNode (op : LeadingOp) (span : Span) (operand : NodeId) : Lower NodeId :=
  unlessError span [operand] do
    let type ← typeOf operand
    match op with
    | .Value .Not => leaf (.Unary .Not operand) .bool span
    | .Value op => addNode ⟨.Unary op operand, type, span⟩
    | .Deref =>
        match type.bind (pointerTarget? (← types)) with
        | some target => leaf (.Deref operand) target span
        | none => rejectOperand source .CannotDereference operand
    | .AddressOf =>
        match type with
        | some target => leaf (.AddressOf operand) (← internType (.Pointer target)) span
        | none => rejectOperand source .NotAValue operand
    | .Delete => leaf (.Delete operand) .void span
    | .Step op => addNode ⟨.Step op .Before operand, type, span⟩

def stepNode (op : StepOp) (span : Span) (operand : NodeId) : Lower NodeId :=
  unlessError span [operand] do
    addNode ⟨.Step op .After operand, ← typeOf operand, span⟩

def castNode (type : TypeId) (span : Span) (operand : NodeId) : Lower NodeId := do
  if type = .error then
    errorNode span
  else
    unlessError span [operand] (leaf (.Cast type operand) type span)

-- `text` takes so many arguments and not as many as were given.
def countMismatch (text : String) (expected given : Nat) : String :=
  "`" ++ text ++ "` takes " ++ toString expected ++ " argument" ++
    (if expected = 1 then "" else "s") ++ " but " ++ toString given ++ " were given"

def callNode (span : Span) (callee : NodeId) (arguments : List NodeId) : Lower NodeId :=
  unlessError span (callee :: arguments) do
    match (← typeOf callee).bind (← types).called? with
    | none => rejectOperand source .NotCallable callee
    | some function =>
        let expected := function.signature.parameters.length
        let node ← node callee
        if expected = arguments.length then
          let named := match node.kind with
            | .Function id => some id
            | _ => none
          leaf (.Call callee arguments named) function.signature.result span
        else
          let text := quote source node.span
          report (.about .WrongArgumentCount span (countMismatch text expected arguments.length))
          errorNode span

def indexNode (span : Span) (base index : NodeId) : Lower NodeId :=
  unlessError span [base, index] do
    match (← typeOf base).bind (element? (← types)) with
    | some element => leaf (.Index base index) element span
    | none => rejectOperand source .NotIndexable base

def removeNode (span : Span) (container key : NodeId) : Lower NodeId :=
  unlessError span [container, key] do
    match (← typeOf container).bind (mapValue? (← types)) with
    | some _ => leaf (.Remove container key) .bool span
    | none => rejectOperand source .NotAssociative container

def typesOf : List NodeId → Lower (List TypeId)
  | [] => return []
  | id :: rest => do
      let first := (← typeOf id).getD .error
      return first :: (← typesOf rest)

def tupleNode (span : Span) (elements : List NodeId) : Lower NodeId :=
  unlessError span elements do
    let type ← internType (.Tuple (← typesOf elements))
    leaf (.Tuple elements) type span

-- An assertion that is false as written is a trap.
def assertNode (isFalse : Bool) (span : Span) (condition : NodeId) (message : Option NodeId) :
    Lower NodeId :=
  unlessError span (condition :: message.toList) do
    if isFalse then
      leaf .Halt .void span
    else
      leaf (.Assert condition message) .void span

-- A declaration, whose value constructs the variable.
def declareNode (id : VariableId) (name : Name) (span : Span) (value : Option NodeId) :
    Lower NodeId := do
  let type := (← get).program.variableType id
  match value with
  | none => leaf (.Declare id none) type span
  | some value =>
      unlessError span [value] do
        let target ← leaf (.Variable id) type name.span
        let whole := name.span.cover (← node value).span
        let construct ← leaf (.Assign .Construct target value) type whole
        leaf (.Declare id (some construct)) type span

end Lower

end EffectLint
