import EffectLint.Program.Arena
import EffectLint.Program.Flow
import EffectLint.Type.Text

/-!
A lowered module: its names, types, declarations, expressions and function bodies.
-/

namespace EffectLint

structure VariableEntry where
  name : Symbol
  type : TypeId
  span : Span
  isGlobal : Bool
  deriving DecidableEq

-- Its type is a function type.
structure FunctionEntry where
  name : Symbol
  type : TypeId
  span : Span
  deriving DecidableEq

structure ModuleEntry where
  name : Symbol
  span : Span
  deriving DecidableEq

-- A function without a body is defined elsewhere.
structure FunctionBody where
  function : FunctionId
  body : Option (List Flow)

structure GlobalValue where
  declared : VariableId
  value : Option NodeId

structure Program where
  names : NameTable
  types : TypeTable
  -- every variable, in order of declaration
  declared : Array VariableEntry
  functions : Array FunctionEntry
  modules : Array ModuleEntry
  arena : Arena
  bodies : Array FunctionBody
  globals : Array GlobalValue

def FunctionBody.discards (function : FunctionBody) : List Discard :=
  match function.body with
  | some statements => Flow.discardsAll statements
  | none => []

namespace Program

def empty : Program :=
  ⟨.empty, .start, #[], #[], #[], .empty, #[], #[]⟩

def variableName (program : Program) (id : VariableId) : String :=
  match program.declared[id.index]? with
  | some entry => program.names.text entry.name
  | none => ""

def variableType (program : Program) (id : VariableId) : TypeId :=
  match program.declared[id.index]? with
  | some entry => entry.type
  | none => .error

def functionName (program : Program) (id : FunctionId) : String :=
  match program.functions[id.index]? with
  | some entry => program.names.text entry.name
  | none => ""

def functionType (program : Program) (id : FunctionId) : TypeId :=
  match program.functions[id.index]? with
  | some entry => entry.type
  | none => .error

def moduleName (program : Program) (id : ModuleId) : String :=
  match program.modules[id.index]? with
  | some entry => program.names.text entry.name
  | none => ""

def typeText (program : Program) (type : TypeId) : String :=
  program.types.text program.names type

-- All values that are thrown away, in source order.
def discards (program : Program) : List Discard :=
  program.bodies.toList.flatMap FunctionBody.discards

end Program

end EffectLint
