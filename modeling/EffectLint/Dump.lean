import EffectLint.Module

/-!
An analyzed module as text: for every value that is thrown away the tree of its nodes, and
whether it has an effect.
-/

namespace EffectLint

-- The control sequences for the parts of a dump.
structure Palette where
  kind : String
  type : String
  effect : String
  dim : String
  reset : String

namespace Palette

def plain : Palette :=
  ⟨"", "", "", "", ""⟩

def colored : Palette :=
  ⟨"\x1b[34m", "\x1b[32m", "\x1b[31m", "\x1b[2m", "\x1b[0m"⟩

def choose (isColored : Bool) : Palette :=
  if isColored then colored else plain

end Palette

def DiscardSite.name : DiscardSite → String
  | .Statement => "statement"
  | .ForStep => "for step"

namespace Program

variable (program : Program) (palette : Palette)

-- What tells a node from others of its kind.
def nodeDetail? (kind : NodeKind) : Option String :=
  match kind with
  | .Variable id | .Declare id _ => some (program.variableName id)
  | .Function id => some (program.functionName id)
  | .Module id => some (program.moduleName id)
  | .Binary op _ _ => some op.spelling
  | .Unary op _ => some op.spelling
  | .Assign (.Compound op) _ _ => some op.spelling
  | .Integer value => some (toString value)
  | .Boolean value => some (if value then "true" else "false")
  | .Text text => some ("\"" ++ text ++ "\"")
  | _ => none

def indentation (depth : Nat) : String :=
  String.join (List.replicate depth "  ")

-- One node: its kind, detail and type, and a mark where it has an effect of its own.
def nodeLine (depth : Nat) (id : NodeId) : Remembering String := do
  let node := program.arena.node id
  let detail := match program.nodeDetail? node.kind with
    | some detail => " " ++ detail
    | none => ""
  let type := match node.type with
    | some type => " " ++ palette.type ++ program.typeText type ++ palette.reset
    | none => ""
  let mark :=
    if ← program.hasShallowEffect id then " " ++ palette.effect ++ "!" ++ palette.reset else ""
  return indentation depth ++ palette.kind ++ node.kind.name ++ palette.reset ++ detail ++ type ++
    mark

-- The lines of what is still to be shown, each node before its operands.
def nodeLinesWithin : Nat → List (Nat × NodeId) → Array String → Remembering (Array String)
  | 0, _, lines => return lines
  | _ + 1, [], lines => return lines
  | steps + 1, (depth, id) :: rest, lines => do
      let line ← program.nodeLine palette depth id
      let operands := (program.arena.operands id).map ((depth + 1, ·))
      nodeLinesWithin steps (operands ++ rest) (lines.push line)

def treeLines (discarded : Discard) : Remembering (List String) := do
  let root := discarded.value
  let lines ← program.nodeLinesWithin palette (root.index + 1) [(1, root)] #[]
  let verdict := if ← program.hasEffect root then "yes" else "no"
  let closing := "  " ++ palette.dim ++ discarded.site.name ++ " effect: " ++ verdict ++
    palette.reset
  return lines.toList ++ [closing]

def treesLines : List Discard → Remembering (List String)
  | [] => return []
  | first :: rest => do
      let first ← program.treeLines palette first
      return first ++ (← treesLines rest)

def functionLines (function : FunctionBody) : Remembering (List String) := do
  let trees ← program.treesLines palette function.discards
  return ("fn " ++ program.functionName function.function) :: trees

def functionsLines : List FunctionBody → Remembering (List (List String))
  | [] => return []
  | first :: rest => do
      let first ← program.functionLines palette first
      return first :: (← functionsLines rest)

-- The functions that have a body, with a blank line between them.
def dump : Remembering String := do
  let bodies := program.bodies.toList.filter (·.body.isSome)
  let functions ← program.functionsLines palette bodies
  let block (lines : List String) : String := String.join (lines.map (· ++ "\n"))
  return String.intercalate "\n" (functions.map block)

end Program

namespace AnalyzedModule

def dump (analyzed : AnalyzedModule) (isColored : Bool) : String :=
  ((analyzed.program.dump (.choose isColored)).run analyzed.memo).1

-- One line for each diagnostic, and one more for its fix.
def summary (analyzed : AnalyzedModule) : String :=
  let line (diagnostic : Diagnostic) : String :=
    let fix := match diagnostic.fix with
      | some fix => "  help: " ++ fix.description ++ ": `" ++ fix.replacement ++ "`\n"
      | none => ""
    diagnostic.severity.name ++ ": " ++ diagnostic.message ++ "\n" ++ fix
  String.join (analyzed.diagnostics.map line)

end AnalyzedModule

end EffectLint
