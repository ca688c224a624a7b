import EffectLint.Lowering.Expression

/-!
Lowering statements and whole modules. Imports and classes come first, then aliases, then
functions and global variables, all in source order, and the bodies of functions last: what is
declared at module level is known in every body.
-/

namespace EffectLint

namespace Lower

variable (source : List Char)

def expr? : Option Expr → Lower (Option NodeId)
  | none => return none
  | some written => some <$> expr source written

-- A variable is known only behind its own first value.
def localVariable (declared : VariableTree) : Lower NodeId := do
  let type ← type declared.type
  let value ← expr? source declared.value
  let id ← declareVariable declared.name type false
  declareNode id declared.name declared.span value

mutual

-- Nothing is left of an empty statement.
def statement : Statement → Lower (Option Flow)
  | .Evaluate value => do
      return some (.Evaluate (← expr source value))
  | .Local declared => do
      return some (.Evaluate (← localVariable source declared))
  | .Return _ value => do
      return some (.Return (← expr? source value))
  | .If condition yes no => do
      let condition ← expr source condition
      let yes ← inScope (statement yes)
      let no ← match no with
        | some no => do
            let no ← inScope (statement no)
            pure (some (no.getD (.Block [])))
        | none => pure none
      return some (.If condition (yes.getD (.Block [])) no)
  | .While condition body => do
      let condition ← expr source condition
      let body ← inScope (statement body)
      return some (.While condition (body.getD (.Block [])))
  | .For first condition step body =>
      inScope do
        let first ← match first with
          | some first => statement first
          | none => pure none
        let condition ← expr? source condition
        let step ← expr? source step
        let body ← inScope (statement body)
        return some (.For first condition step (body.getD (.Block [])))
  | .Block _ written => do
      let written ← inScope (statements written)
      return some (.Block written)
  | .Empty _ => return none

def statements : List Statement → Lower (List Flow)
  | [] => return []
  | first :: rest => do
      let first ← statement first
      let rest ← statements rest
      return first.toList ++ rest

end

def importOrClass : Item → Lower Unit
  | .Import name => do
      let symbol ← symbol name.text
      let id ← addModule ⟨symbol, name.span⟩
      define name (.Module id)
  | .Class name => do
      let symbol ← symbol name.text
      let id ← internType (.Class symbol)
      define name (.Type id)
  | .Alias _ _ | .Function _ | .Global _ => return ()

def typeAlias : Item → Lower Unit
  | .Alias name target => do
      let target ← type target
      let symbol ← symbol name.text
      let id ← internType (.Alias symbol target)
      define name (.Type id)
  | .Import _ | .Class _ | .Function _ | .Global _ => return ()

def functionEntry (declared : FunctionTree) : Lower FunctionId := do
  let signature ← signature declared.result declared.parameters declared.promises
  let type ← internType (.Function signature)
  let symbol ← symbol declared.name.text
  let id ← addFunction ⟨symbol, type, declared.name.span⟩
  define declared.name (.Function id)
  return id

def globalVariable (declared : VariableTree) : Lower Unit := do
  let type ← type declared.type
  let id ← declareVariable declared.name type true
  let value ← expr? source declared.value
  addGlobal ⟨id, value⟩

-- The functions are given back with their numbers, for their bodies are still to come.
def functionOrGlobal : Item → Lower (List (FunctionId × FunctionTree))
  | .Function declared => do
      return [(← functionEntry declared, declared)]
  | .Global declared => do
      globalVariable source declared
      return []
  | .Import _ | .Class _ | .Alias _ _ => return []

def functionsAndGlobals : List Item → Lower (List (FunctionId × FunctionTree))
  | [] => return []
  | first :: rest => do
      let first ← functionOrGlobal source first
      let rest ← functionsAndGlobals rest
      return first ++ rest

def parameterVariables : List (Parameter TypeTree) → Lower Unit
  | [] => return ()
  | parameter :: rest => do
      match parameter.name with
      | some name =>
          let type ← type parameter.type
          let _ ← declareVariable name type false
      | none => pure ()
      parameterVariables rest

-- Parameters and body share a scope.
def body (function : FunctionId) (declared : FunctionTree) : Lower Unit := do
  let lowered ← match declared.body with
    | some block => some <$> inScope do
        parameterVariables declared.parameters
        statements source block.statements
    | none => pure none
  addBody ⟨function, lowered⟩

def module (items : List Item) : Lower Unit := do
  items.forM importOrClass
  items.forM typeAlias
  let functions ← functionsAndGlobals source items
  functions.forM fun (function, declared) => body source function declared

end Lower

def LoweringState.start (reporter : Reporter) : LoweringState :=
  ⟨.empty, .empty, reporter⟩

def lower (source : List Char) (items : List Item) (reporter : Reporter) : LoweringState :=
  ((Lower.module source items).run (.start reporter)).2

end EffectLint
