import EffectLint.Program.Basic

/-!
Expressions as they would be written. An operand is put in parentheses where it holds together
less tightly than its place asks for.
-/

namespace EffectLint

namespace NodeKind

-- `( operand {, operand} )`
def listText (text : Nat → NodeId → String) (elements : List NodeId) : String :=
  "(" ++ String.intercalate ", " (elements.map (text Level.assign)) ++ ")"

def betweenText (text : Nat → NodeId → String) (op : String) (leftLevel rightLevel : Nat)
    (left right : NodeId) : String :=
  text leftLevel left ++ " " ++ op ++ " " ++ text rightLevel right

end NodeKind

namespace Program

variable (program : Program)

-- `type name [= value]`. The value of a declaration is the one that its variable is
-- constructed from.
def declareText (text : Nat → NodeId → String) (declared : VariableId) (value : Option NodeId) :
    String :=
  let head := program.typeText (program.variableType declared) ++ " " ++
    program.variableName declared
  match value.map program.arena.kind with
  | some (.Assign .Construct _ constructed) => head ++ " = " ++ text Level.assign constructed
  | _ => head

-- The form of a node, with `text` for an operand in a place of a given level.
def kindText (text : Nat → NodeId → String) (kind : NodeKind) : String :=
  let level := kind.level
  match kind with
  | .Assign store target value =>
      NodeKind.betweenText text store.spelling (level + 1) level target value
  | .Step op .Before operand => op.spelling ++ text Level.power operand
  | .Step op .After operand => text Level.attached operand ++ op.spelling
  | .Declare declared value => program.declareText text declared value
  | .In key container => NodeKind.betweenText text "in" level (level + 1) key container
  | .Remove container key =>
      text Level.attached container ++ ".remove(" ++ text Level.assign key ++ ")"
  | .Assert condition none => "assert(" ++ text Level.assign condition ++ ")"
  | .Assert condition (some message) =>
      "assert(" ++ text Level.assign condition ++ ", " ++ text Level.assign message ++ ")"
  | .Halt => "assert(0)"
  | .Delete operand => "delete " ++ text Level.power operand
  | .New type => "new " ++ program.typeText type
  | .NewAnonymous => "new class \x7b\x7d"
  | .Call callee arguments _ => text Level.attached callee ++ NodeKind.listText text arguments
  | .Cast type operand => "cast(" ++ program.typeText type ++ ") " ++ text Level.power operand
  | .Logical op left right => NodeKind.betweenText text op.spelling level (level + 1) left right
  | .Conditional condition yes no =>
      text Level.orOr condition ++ " ? " ++ text Level.comma yes ++ " : " ++
        text Level.conditional no
  | .Comma first second => text Level.comma first ++ ", " ++ text Level.assign second
  | .Variable id => program.variableName id
  | .Function id => program.functionName id
  | .Tuple elements => "tuple" ++ NodeKind.listText text elements
  | .Error => "__error"
  | .Module id => program.moduleName id
  | .Binary op left right =>
      if op.groupsRight then NodeKind.betweenText text op.spelling Level.attached level left right
      else NodeKind.betweenText text op.spelling level (level + 1) left right
  | .Unary op operand => op.spelling ++ text Level.power operand
  | .Deref operand => "*" ++ text Level.power operand
  | .AddressOf operand => "&" ++ text Level.power operand
  | .Index base index => text Level.attached base ++ "[" ++ text Level.assign index ++ "]"
  | .Integer value => toString value
  | .Boolean value => if value then "true" else "false"
  | .Text text => "\"" ++ text ++ "\""
  | .Null => "null"

-- Operands are older than their node, so the number of a node bounds the depth below it.
def textWithin : Nat → Nat → NodeId → String
  | 0, _, _ => ""
  | depth + 1, level, id =>
      let kind := program.arena.kind id
      let text := program.kindText (textWithin depth) kind
      if kind.level < level then "(" ++ text ++ ")" else text

def text (id : NodeId) : String :=
  program.textWithin (id.index + 1) Level.comma id

end Program

end EffectLint
