import EffectLint.Type.Basic

/-!
What names stand for. Scopes are stacked: the innermost one that knows a name decides, and the
scope of the module lies under all others and stays.
-/

namespace EffectLint

structure VariableId where
  index : Nat
  deriving DecidableEq

structure FunctionId where
  index : Nat
  deriving DecidableEq

structure ModuleId where
  index : Nat
  deriving DecidableEq

inductive Binding where
  | Variable (id : VariableId)
  | Function (id : FunctionId)
  | Module (id : ModuleId)
  | Type (id : TypeId)
  deriving DecidableEq

-- Definitions, newest first.
abbrev Scope := List (Symbol × Binding)

structure Scopes where
  -- innermost first
  inner : List Scope
  module : Scope

namespace Scopes

def empty : Scopes :=
  ⟨[], []⟩

def depth (scopes : Scopes) : Nat :=
  scopes.inner.length + 1

def innermost (scopes : Scopes) : Scope :=
  scopes.inner.headD scopes.module

def push (scopes : Scopes) : Scopes :=
  { scopes with inner := [] :: scopes.inner }

-- The scope of the module is never dropped.
def pop (scopes : Scopes) : Scopes :=
  { scopes with inner := scopes.inner.tail }

-- What the innermost scope knows of a name.
def here? (scopes : Scopes) (name : Symbol) : Option Binding :=
  scopes.innermost.lookup name

def isDefinedHere (scopes : Scopes) (name : Symbol) : Bool :=
  (scopes.here? name).isSome

def define (scopes : Scopes) (name : Symbol) (binding : Binding) : Scopes :=
  match scopes.inner with
  | scope :: outer => { scopes with inner := ((name, binding) :: scope) :: outer }
  | [] => { scopes with module := (name, binding) :: scopes.module }

def lookup (scopes : Scopes) (name : Symbol) : Option Binding :=
  (scopes.inner.findSome? (·.lookup name)).or (scopes.module.lookup name)

end Scopes

end EffectLint
