import EffectLint.Effect.Walk
import EffectLint.Program.Basic
import EffectLint.Type.Purity

/-!
Which expressions have an effect. A single node is judged by its kind, a call by what its callee
promises, and a cast by whether it can fail. A tree has an effect if one of its nodes does.
-/

namespace EffectLint

namespace Program

variable (program : Program)

-- Only a strongly pure function that throws nothing is called without an effect. Where nothing
-- is known about the callee, there may be one.
def callHasEffect (callee : Option TypeId) : Remembering Bool := do
  match callee.bind program.types.calleeFunction? with
  | none => return true
  | some function =>
      let purity ← program.types.purity function
      return !(purity == .Strong && function.signature.promises.isNothrow)

-- A cast of what a call returns, from class to class, is checked when it runs.
def castHasEffect (type : TypeId) (operand : NodeId) : Bool :=
  match program.arena.kind operand with
  | .Call _ _ _ =>
      (program.arena.type? operand).any program.types.isClass && program.types.isClass type
  | _ => false

-- Whether evaluating the node has an effect beyond that of its operands.
def hasShallowEffect (id : NodeId) : Remembering Bool :=
  match program.arena.kind id with
  | .Assign _ _ _ | .Step _ _ _ | .Declare _ _ | .In _ _ | .Remove _ _ | .Assert _ _ | .Halt
  | .Delete _ | .New _ | .NewAnonymous => pure true
  | .Call callee _ _ => program.callHasEffect (program.arena.type? callee)
  | .Cast type operand => pure (program.castHasEffect type operand)
  | .Logical _ _ _ | .Conditional _ _ _ | .Comma _ _ | .Variable _ | .Function _ | .Tuple _
  | .Error | .Module _ | .Binary _ _ _ | .Unary _ _ | .Deref _ | .AddressOf _ | .Index _ _
  | .Integer _ | .Boolean _ | .Text _ | .Null => pure false

def stopAtEffect (id : NodeId) : Remembering Control := do
  return if ← program.hasShallowEffect id then .Stop else .Continue

-- Whether some node of the tree has an effect. The first one found settles it.
def hasEffect (root : NodeId) : Remembering Bool :=
  program.arena.walk program.stopAtEffect root

end Program

end EffectLint
