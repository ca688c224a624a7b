import EffectLint.Name.Table
import EffectLint.BasicType
import EffectLint.Tree.Basic

/-!
Types by their shape. A shape names its parts by the numbers that the type table gave them.
-/

namespace EffectLint

structure TypeId where
  index : Nat
  deriving DecidableEq, Inhabited

structure ParameterType where
  type : TypeId
  isRef : Bool
  deriving DecidableEq

structure Signature where
  parameters : List ParameterType
  result : TypeId
  promises : Promises
  deriving DecidableEq

inductive Shape where
  | Basic (type : BasicType)
  -- of the literal `null`
  | Null
  -- of an expression that is wrong
  | Error
  | Class (name : Symbol)
  -- another name for its target
  | Alias (name : Symbol) (target : TypeId)
  | Pointer (target : TypeId)
  | Array (element : TypeId)
  | AssocArray (key value : TypeId)
  | Function (signature : Signature)
  -- of a function type
  | Delegate (function : TypeId)
  | Tuple (elements : List TypeId)
  deriving DecidableEq

namespace Shape

-- The types that a shape is built from.
def parts : Shape → List TypeId
  | .Basic _ | .Null | .Error | .Class _ => []
  | .Alias _ target | .Pointer target => [target]
  | .Array element => [element]
  | .AssocArray key value => [key, value]
  | .Function signature => signature.result :: signature.parameters.map ParameterType.type
  | .Delegate function => [function]
  | .Tuple elements => elements

end Shape

namespace TypeId

abbrev void : TypeId := ⟨0⟩
abbrev bool : TypeId := ⟨1⟩
abbrev int : TypeId := ⟨2⟩
abbrev long : TypeId := ⟨3⟩
abbrev uint : TypeId := ⟨4⟩
abbrev char : TypeId := ⟨5⟩
abbrev double : TypeId := ⟨6⟩
abbrev string : TypeId := ⟨7⟩
abbrev null : TypeId := ⟨8⟩
abbrev error : TypeId := ⟨9⟩

def ofBasic : BasicType → TypeId
  | .Void => void
  | .Boolean => bool
  | .Integer => int
  | .Long => long
  | .Unsigned => uint
  | .Character => char
  | .Double => double
  | .Text => string

-- Known from the start, before any type is written.
def isBuiltin (type : TypeId) : Bool :=
  decide (type.index ≤ error.index)

end TypeId

end EffectLint
