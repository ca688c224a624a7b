import EffectLint.Lowering.Module
import EffectLint.Proofs.Scoping.Resolver

/-!
Lowering without scopes. It looks nothing up: whenever it comes to a name, it takes the next of the
answers that it is given, and what it makes of the name is what the answer says. Nothing is pushed,
popped or searched, and where a scope begins or ends there is nothing to be done.
-/

namespace EffectLint

namespace TypeTable

def find? (table : TypeTable) (shape : Shape) : Option TypeId :=
  (table.shapes.find? shape).map TypeId.mk

end TypeTable

-- The type that a declaration has made, where it is one of a type. `targets` are the types that the
-- aliases of the module are other names for, in source order.
def Site.type? (targets : List TypeId) (program : Program) : Site → Option TypeId
  | .Class name => do
      let symbol ← program.names.find? name.text
      program.types.find? (.Class symbol)
  | .Alias number name => do
      let symbol ← program.names.find? name.text
      let target ← targets[number]?
      program.types.find? (.Alias symbol target)
  | .Import _ _ | .Function _ _ | .Variable _ _ => none

namespace Lower

def program : Lower Program := fun state =>
  (state.program, state)

-- The node for a name that stands for a declaration, or for nothing.
def siteNode (name : String) (span : Span) : Option Site → Lower NodeId
  | some (.Variable number _) => do
      let type := (← program).variableType ⟨number⟩
      leaf (.Variable ⟨number⟩) type span
  | some (.Function number _) => do
      let type := (← program).functionType ⟨number⟩
      leaf (.Function ⟨number⟩) type span
  | some (.Import number _) => addNode ⟨.Module ⟨number⟩, none, span⟩
  | some (.Class _) | some (.Alias _ _) => do
      report (.about .NotAValue span name)
      errorNode span
  | none => do
      report (.about .UndefinedIdentifier span name)
      errorNode span

variable (targets : List TypeId)

def siteType (name : Name) (site : Option Site) : Lower TypeId := do
  match site.bind (Site.type? targets (← program)) with
  | some id => return id
  | none =>
      report (.about .UnknownType name.span name.text)
      return .error

-- An object of the class that a name stands for.
def siteObject (name : Name) (span : Span) (site : Option Site) : Lower NodeId := do
  let program ← program
  match (site.bind (Site.type? targets program)).filter program.types.isClass with
  | some id => leaf (.New id) id span
  | none =>
      report (.about .NotAClass name.span name.text)
      errorNode span

-- A new variable. The first one of its name in a scope is the one that the name stands for.
def newVariable (name : Name) (type : TypeId) (earlier : Option Site) : Lower VariableId := do
  let symbol ← symbol name.text
  let id ← addVariable ⟨symbol, type, name.span, false⟩
  if earlier.isSome then
    report (.about .DuplicateDefinition name.span name.text)
  return id

end Lower

-- Lowering that is told what the names stand for.
abbrev Guided := StateT (List Resolution) Lower

namespace Guided

open Lower (wrapType internType siteNode siteType siteObject newVariable)

theorem bind_apply {α β : Type} (first : Guided α) (next : α → Guided β) (answers : List Resolution)
    (state : LoweringState) :
    (first >>= next) answers state =
      next (first answers state).1.1 (first answers state).1.2 (first answers state).2 :=
  rfl

-- The next answer is taken where it is about a use of the name. Any other one stays.
def use (name : String) : Guided (Option Site) := fun answers =>
  match answers with
  | .Use known site :: rest => return if known = name then (site, rest) else (none, answers)
  | _ => return (none, answers)

def declare (name : String) : Guided (Option Site) := fun answers =>
  match answers with
  | .Declare known earlier :: rest => return if known = name then (earlier, rest) else (none, answers)
  | _ => return (none, answers)

theorem use_cons (name : String) (site : Option Site) (rest : List Resolution)
    (state : LoweringState) : use name (.Use name site :: rest) state = ((site, rest), state) := by
  simp only [use, if_pos]
  rfl

theorem declare_cons (name : String) (earlier : Option Site) (rest : List Resolution)
    (state : LoweringState) :
    declare name (.Declare name earlier :: rest) state = ((earlier, rest), state) := by
  simp only [declare, if_pos]
  rfl

def declareVariable (name : Name) (type : TypeId) : Guided VariableId := do
  newVariable name type (← declare name.text)

def accepts (operand : Guided NodeId) : Guided Bool := do
  let gag ← Lower.startGag
  let id ← operand
  let failed ← Lower.endGag gag
  return !failed && !(← Lower.isError id)

section

variable (targets : List TypeId)

mutual

def type : TypeTree → Guided TypeId
  | .Basic _ type => return .ofBasic type
  | .Named _ name => do
      siteType targets name (← use name.text)
  | .Pointer _ target => do
      wrapType (← type target) .Pointer
  | .Array _ element => do
      wrapType (← type element) .Array
  | .AssocArray _ value key => do
      let value ← type value
      let key ← type key
      if value = .error ∨ key = .error then
        return .error
      else
        internType (.AssocArray key value)
  | .Callable _ isDelegate promises result parameters => do
      let result ← type result
      let parameters ← parameterTypes parameters
      let function ← internType (.Function ⟨parameters, result, promises⟩)
      internType (if isDelegate then .Delegate function else .Pointer function)
  | .Error _ => return .error

def parameterTypes : List (Parameter TypeTree) → Guided (List ParameterType)
  | [] => return []
  | ⟨isRef, written, _⟩ :: rest => do
      let first ← type written
      let others ← parameterTypes rest
      return ⟨first, isRef⟩ :: others

end

variable (source : List Char)

mutual

def expr : Expr → Guided NodeId
  | .Identifier span name => do
      siteNode name span (← use name)
  | .Integer span value => Lower.integerNode value span
  | .Text span text => Lower.leaf (.Text text) .string span
  | .Boolean span value => Lower.leaf (.Boolean value) .bool span
  | .Null span => Lower.leaf .Null .null span
  | .Paren _ inner => expr inner
  | .Binary span op left right => do
      let left ← expr left
      let right ← expr right
      Lower.connectiveNode source op span left right
  | .Assign span op target value => do
      let target ← expr target
      let value ← expr value
      Lower.assignNode op span target value
  | .Conditional span condition yes no => do
      let condition ← expr condition
      let yes ← expr yes
      let no ← expr no
      Lower.conditionalNode span condition yes no
  | .Comma span first second => do
      let first ← expr first
      let second ← expr second
      Lower.commaNode span first second
  | .Leading span op operand => do
      let operand ← expr operand
      Lower.leadingNode source op span operand
  | .Step span op operand => do
      let operand ← expr operand
      Lower.stepNode op span operand
  | .Cast span written operand => do
      let target ← type targets written
      let operand ← expr operand
      Lower.castNode target span operand
  | .New span name => do
      siteObject targets name span (← use name.text)
  | .NewAnonymous span => Lower.newAnonymousNode span
  | .Call span callee arguments => do
      let callee ← expr callee
      let arguments ← exprs arguments
      Lower.callNode source span callee arguments
  | .Index span base index => do
      let base ← expr base
      let index ← expr index
      Lower.indexNode source span base index
  | .Remove span container key => do
      let container ← expr container
      let key ← expr key
      Lower.removeNode source span container key
  | .Tuple span elements => do
      let elements ← exprs elements
      Lower.tupleNode span elements
  | .Assert span condition none => do
      let lowered ← expr condition
      Lower.assertNode condition.isFalseLiteral span lowered none
  | .Assert span condition (some message) => do
      let lowered ← expr condition
      let message ← expr message
      Lower.assertNode condition.isFalseLiteral span lowered (some message)
  | .Declare span name value => do
      let value ← expr value
      let type := (← Lower.typeOf value).getD .error
      let id ← declareVariable name type
      Lower.declareNode id name span (some value)
  | .Compiles span operand => do
      let compiles ← accepts (expr operand)
      Lower.leaf (.Boolean compiles) .bool span
  | .Error span => Lower.errorNode span

def exprs : List Expr → Guided (List NodeId)
  | [] => return []
  | first :: rest => do
      let first ← expr first
      let rest ← exprs rest
      return first :: rest

end

def expr? : Option Expr → Guided (Option NodeId)
  | none => return none
  | some written => do
      return some (← expr targets source written)

mutual

def statement : Statement → Guided (Option Flow)
  | .Evaluate value => do
      return some (.Evaluate (← expr targets source value))
  | .Local declared => do
      let type ← type targets declared.type
      let value ← expr? targets source declared.value
      let id ← declareVariable declared.name type
      return some (.Evaluate (← Lower.declareNode id declared.name declared.span value))
  | .Return _ value => do
      return some (.Return (← expr? targets source value))
  | .If condition yes none => do
      let condition ← expr targets source condition
      let yes ← statement yes
      return some (.If condition (yes.getD (.Block [])) none)
  | .If condition yes (some no) => do
      let condition ← expr targets source condition
      let yes ← statement yes
      let no ← statement no
      return some (.If condition (yes.getD (.Block [])) (some (no.getD (.Block []))))
  | .While condition body => do
      let condition ← expr targets source condition
      let body ← statement body
      return some (.While condition (body.getD (.Block [])))
  | .For none condition step body => do
      let condition ← expr? targets source condition
      let step ← expr? targets source step
      let body ← statement body
      return some (.For none condition step (body.getD (.Block [])))
  | .For (some first) condition step body => do
      let first ← statement first
      let condition ← expr? targets source condition
      let step ← expr? targets source step
      let body ← statement body
      return some (.For first condition step (body.getD (.Block [])))
  | .Block _ written => do
      return some (.Block (← statements written))
  | .Empty _ => return none

def statements : List Statement → Guided (List Flow)
  | [] => return []
  | first :: rest => do
      let first ← statement first
      let rest ← statements rest
      return first.toList ++ rest

end

def parameters : List (Parameter TypeTree) → Guided Unit
  | [] => return ()
  | ⟨_, _, none⟩ :: rest => parameters rest
  | ⟨_, written, some name⟩ :: rest => do
      let type ← type targets written
      let _ ← declareVariable name type
      parameters rest

def body (function : FunctionId) (declared : FunctionTree) : Guided Unit :=
  match declared.body with
  | some block => do
      parameters targets declared.parameters
      let flows ← statements targets source block.statements
      Lower.addBody ⟨function, some flows⟩
  | none => Lower.addBody ⟨function, none⟩

def bodies : List (FunctionId × FunctionTree) → Guided Unit
  | [] => return ()
  | first :: rest => do
      body targets source first.1 first.2
      bodies rest

end

end Guided

end EffectLint
