import EffectLint.Effect.Shallow
import EffectLint.Program.Text
import EffectLint.Report.Reporter

/-!
What is reported about a value that is thrown away. An expression that only selects or sequences
other expressions passes the question on to the one that yields the value. What is to be judged
is kept on a list, so the depth of a tree does not matter.
-/

namespace EffectLint

structure Checking where
  reporter : Reporter
  memo : PurityMemo

abbrev Check := StateM Checking

namespace Check

-- Ask a question about effects.
def ask {α : Type} (question : Remembering α) : Check α := fun state =>
  let (answer, memo) := question.run state.memo
  (answer, { state with memo })

def report (diagnostic : Diagnostic) : Check Unit := fun state =>
  ((), { state with reporter := state.reporter.report diagnostic })

end Check

namespace Program

variable (program : Program)

-- The leftmost operand of nested commas.
def firstOfCommasWithin : Nat → NodeId → NodeId
  | 0, id => id
  | depth + 1, id =>
      match program.arena.kind id with
      | .Comma first _ => firstOfCommasWithin depth first
      | _ => id

def firstOfCommas (id : NodeId) : NodeId :=
  program.firstOfCommasWithin (id.index + 1) id

-- `T name = value, .., name`: the chain yields just the variable that it starts by declaring.
def yieldsTemporary (first second : NodeId) : Bool :=
  match program.arena.kind (program.firstOfCommas first), program.arena.kind second with
  | .Declare declared _, .Variable yielded => declared == yielded
  | _, _ => false

-- How a message names what a call runs.
def calleeText (callee : NodeId) (function : Option FunctionId) : String :=
  match function, program.arena.kind callee with
  | some function, _ => program.functionName function
  | none, .Deref pointer => program.text pointer
  | none, _ => program.text callee

-- A call without an effect, whose result has the type `result`.
def discardedCall (id callee : NodeId) (function : Option FunctionId) (result : TypeId) :
    Diagnostic :=
  let detail := "calling `" ++ program.calleeText callee function ++
    "` without side effects discards return value of type `" ++ program.typeText result ++
    "`; prepend a `cast(void)` if intentional"
  { Diagnostic.about .DiscardedPureCall (program.arena.node id).span detail with
    fix := some ⟨"cast(void) " ++ program.text id, "prepend `cast(void)`"⟩ }

def withoutEffect (id : NodeId) : Diagnostic :=
  .about .NoEffect (program.arena.node id).span
    ("`" ++ (program.arena.kind id).operatorName ++ "` has no effect in expression (" ++
      program.text id ++ ")")

def moduleWithoutEffect (id : NodeId) (module : ModuleId) : Diagnostic :=
  .about .ModuleHasNoEffect (program.arena.node id).span (program.moduleName module)

-- A call that returns nothing is never reported.
def warnOfCall (id callee : NodeId) (function : Option FunctionId) : Check Unit := do
  if (← get).reporter.warningsEnabled then
    match program.arena.type? id with
    | some result =>
        if program.types.isVoid result then
          return ()
        else
          Check.report (program.discardedCall id callee function result)
    | none => return ()
  else
    return ()

-- Judge one expression. Those whose value it passes on are to be judged next.
def judge (id : NodeId) : Check (List NodeId) := do
  if ← Check.ask (program.hasShallowEffect id) then
    return []
  else
    match program.arena.kind id with
    | .Cast type _ =>
        if program.types.isVoid type then
          return []
        else
          Check.report (program.withoutEffect id)
          return []
    | .Error => return []
    | .Call callee _ function =>
        program.warnOfCall id callee function
        return []
    | .Module module =>
        Check.report (program.moduleWithoutEffect id module)
        return []
    | .Logical _ _ right => return [right]
    | .Conditional _ yes no => return [yes, no]
    | .Comma first second =>
        return if program.yieldsTemporary first second then [] else [second]
    | .Tuple _ =>
        if ← Check.ask (program.hasEffect id) then
          return []
        else
          Check.report (program.withoutEffect id)
          return []
    | _ =>
        Check.report (program.withoutEffect id)
        return []

def discardWithin : Nat → List NodeId → Check Unit
  | 0, _ => return ()
  | _ + 1, [] => return ()
  | steps + 1, id :: rest => do
      let next ← program.judge id
      discardWithin steps (next ++ rest)

-- Check an expression whose value is thrown away. A tree has no more nodes than the number of
-- its root allows.
def discard (root : NodeId) : Check Unit :=
  program.discardWithin (root.index + 1) [root]

-- Check every value that the program throws away.
def checkDiscards : Check Unit :=
  program.discards.forM fun discarded => program.discard discarded.value

end Program

end EffectLint
