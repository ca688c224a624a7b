import EffectLint.Program.Basic
import EffectLint.Report.Reporter

/-!
The state of lowering: the program built so far, the open scopes and the reporter.
-/

namespace EffectLint

structure LoweringState where
  program : Program
  scopes : Scopes
  reporter : Reporter

abbrev Lower := StateM LoweringState

namespace Lower

def report (diagnostic : Diagnostic) : Lower Unit := fun state =>
  ((), { state with reporter := state.reporter.report diagnostic })

def pushScope : Lower Unit := fun state =>
  ((), { state with scopes := state.scopes.push })

def popScope : Lower Unit := fun state =>
  ((), { state with scopes := state.scopes.pop })

def inScope {α : Type} (body : Lower α) : Lower α := do
  pushScope
  let result ← body
  popScope
  return result

def startGag : Lower Gag := fun state =>
  let (gag, reporter) := state.reporter.startGag
  (gag, { state with reporter })

def endGag (gag : Gag) : Lower Bool := fun state =>
  let (swallowed, reporter) := state.reporter.endGag gag
  (swallowed, { state with reporter })

def symbol (name : String) : Lower Symbol := fun state =>
  let (symbol, names) := state.program.names.insert name
  (symbol, { state with program := { state.program with names } })

def internType (shape : Shape) : Lower TypeId := fun state =>
  let (type, types) := state.program.types.insert shape
  (type, { state with program := { state.program with types } })

def addNode (node : Node) : Lower NodeId := fun state =>
  let (id, arena) := state.program.arena.add node
  (id, { state with program := { state.program with arena } })

def addVariable (entry : VariableEntry) : Lower VariableId := fun state =>
  (⟨state.program.declared.size⟩,
    { state with program :=
      { state.program with declared := state.program.declared.push entry } })

def addFunction (entry : FunctionEntry) : Lower FunctionId := fun state =>
  (⟨state.program.functions.size⟩,
    { state with program :=
      { state.program with functions := state.program.functions.push entry } })

def addModule (entry : ModuleEntry) : Lower ModuleId := fun state =>
  (⟨state.program.modules.size⟩,
    { state with program := { state.program with modules := state.program.modules.push entry } })

def addBody (body : FunctionBody) : Lower Unit := fun state =>
  ((), { state with program := { state.program with bodies := state.program.bodies.push body } })

def addGlobal (value : GlobalValue) : Lower Unit := fun state =>
  ((), { state with program := { state.program with globals := state.program.globals.push value } })

def node (id : NodeId) : Lower Node := fun state =>
  (state.program.arena.node id, state)

def typeOf (id : NodeId) : Lower (Option TypeId) := do
  return (← node id).type

def isError (id : NodeId) : Lower Bool := do
  return (← node id).kind == .Error

def types : Lower TypeTable := fun state =>
  (state.program.types, state)

-- What a name stands for, where it is known at all.
def lookup (name : String) : Lower (Option Binding) := fun state =>
  ((state.program.names.find? name).bind state.scopes.lookup, state)

-- The first definition of a name in a scope stays, and a second one is reported.
def define (name : Name) (binding : Binding) : Lower Unit := do
  let symbol ← symbol name.text
  if (← get).scopes.isDefinedHere symbol then
    report (.about .DuplicateDefinition name.span name.text)
  else
    modify fun state => { state with scopes := state.scopes.define symbol binding }

def declareVariable (name : Name) (type : TypeId) (isGlobal : Bool) : Lower VariableId := do
  let symbol ← symbol name.text
  let id ← addVariable ⟨symbol, type, name.span, isGlobal⟩
  define name (.Variable id)
  return id

-- A placeholder for an expression that is wrong.
def errorNode (span : Span) : Lower NodeId :=
  addNode ⟨.Error, some .error, span⟩

end Lower

end EffectLint
