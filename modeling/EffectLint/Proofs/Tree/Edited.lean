import EffectLint.Proofs.Tree.Induction
import Mathlib.Data.List.Forall2

/-!
Trees that are the same but for the types written in them. A type may promise something else of the
functions it tells of, and the mention of a name may be replaced by a type. All else stays, and so do
the places of all that is not a type.
-/

namespace EffectLint

structure Edit where
  -- what the promises of a function may be changed to
  promises : Promises → Promises → Prop
  -- the types that may take the place of a name
  replaces : String → TypeTree → Prop
  -- names of types that nothing else is called by
  reserved : String → Prop

-- The same way of passing an argument, with related types. The names of parameters in the type of a
-- function do not matter.
inductive Parameter.Related (related : TypeTree → TypeTree → Prop) :
    Parameter TypeTree → Parameter TypeTree → Prop where
  | intro {isRef type type' name name'} : related type type' →
      Related related ⟨isRef, type, name⟩ ⟨isRef, type', name'⟩

-- Where a type stands in the source is left open, but for the names that may be unknown.
inductive TypeTree.Edited (edit : Edit) : TypeTree → TypeTree → Prop where
  | Basic {span span' type} : Edited edit (.Basic span type) (.Basic span' type)
  | Named {span span' name} : Edited edit (.Named span name) (.Named span' name)
  | Reserved {span span' text place place'} : edit.reserved text →
      Edited edit (.Named span ⟨text, place⟩) (.Named span' ⟨text, place'⟩)
  | Replaced {span name written} : edit.replaces name.text written →
      Edited edit (.Named span name) written
  | Pointer {span span' target target'} : Edited edit target target' →
      Edited edit (.Pointer span target) (.Pointer span' target')
  | Array {span span' element element'} : Edited edit element element' →
      Edited edit (.Array span element) (.Array span' element')
  | AssocArray {span span' value value' key key'} : Edited edit value value' →
      Edited edit key key' → Edited edit (.AssocArray span value key) (.AssocArray span' value' key')
  | Callable {span span' isDelegate promises promises' result result' parameters parameters'} :
      edit.promises promises promises' → Edited edit result result' →
      List.Forall₂ (Parameter.Related (Edited edit)) parameters parameters' →
      Edited edit (.Callable span isDelegate promises result parameters)
        (.Callable span' isDelegate promises' result' parameters')
  | Error {span span'} : Edited edit (.Error span) (.Error span')

inductive Expr.Edited (edit : Edit) : Expr → Expr → Prop where
  -- what no other expression and no type stands in
  | Leaf {whole} : whole.parts = [] → Edited edit whole whole
  | Paren {span inner inner'} : Edited edit inner inner' →
      Edited edit (.Paren span inner) (.Paren span inner')
  | Binary {span op left left' right right'} : Edited edit left left' → Edited edit right right' →
      Edited edit (.Binary span op left right) (.Binary span op left' right')
  | Assign {span op target target' value value'} : Edited edit target target' →
      Edited edit value value' → Edited edit (.Assign span op target value) (.Assign span op target' value')
  | Conditional {span condition condition' yes yes' no no'} : Edited edit condition condition' →
      Edited edit yes yes' → Edited edit no no' →
      Edited edit (.Conditional span condition yes no) (.Conditional span condition' yes' no')
  | Comma {span first first' second second'} : Edited edit first first' → Edited edit second second' →
      Edited edit (.Comma span first second) (.Comma span first' second')
  | Leading {span op operand operand'} : Edited edit operand operand' →
      Edited edit (.Leading span op operand) (.Leading span op operand')
  | Step {span op operand operand'} : Edited edit operand operand' →
      Edited edit (.Step span op operand) (.Step span op operand')
  | Cast {span type type' operand operand'} : type.Edited edit type' → Edited edit operand operand' →
      Edited edit (.Cast span type operand) (.Cast span type' operand')
  | Call {span callee callee' arguments arguments'} : Edited edit callee callee' →
      List.Forall₂ (Edited edit) arguments arguments' →
      Edited edit (.Call span callee arguments) (.Call span callee' arguments')
  | Index {span base base' index index'} : Edited edit base base' → Edited edit index index' →
      Edited edit (.Index span base index) (.Index span base' index')
  | Remove {span container container' key key'} : Edited edit container container' →
      Edited edit key key' → Edited edit (.Remove span container key) (.Remove span container' key')
  | Tuple {span elements elements'} : List.Forall₂ (Edited edit) elements elements' →
      Edited edit (.Tuple span elements) (.Tuple span elements')
  | Assert {span condition condition' message message'} : Edited edit condition condition' →
      Option.Rel (Edited edit) message message' →
      Edited edit (.Assert span condition message) (.Assert span condition' message')
  | Declare {span name value value'} : ¬edit.reserved name.text → Edited edit value value' →
      Edited edit (.Declare span name value) (.Declare span name value')
  | Compiles {span operand operand'} : Edited edit operand operand' →
      Edited edit (.Compiles span operand) (.Compiles span operand')

structure VariableTree.Edited (edit : Edit) (declared declared' : VariableTree) : Prop where
  span : declared.span = declared'.span
  type : declared.type.Edited edit declared'.type
  name : declared.name = declared'.name
  free : ¬edit.reserved declared.name.text
  value : Option.Rel (Expr.Edited edit) declared.value declared'.value

inductive Statement.Edited (edit : Edit) : Statement → Statement → Prop where
  | Evaluate {value value'} : value.Edited edit value' → Edited edit (.Evaluate value) (.Evaluate value')
  | Local {declared declared'} : declared.Edited edit declared' →
      Edited edit (.Local declared) (.Local declared')
  | Return {span value value'} : Option.Rel (Expr.Edited edit) value value' →
      Edited edit (.Return span value) (.Return span value')
  | If {condition condition' yes yes' no no'} : condition.Edited edit condition' →
      Edited edit yes yes' → Option.Rel (Edited edit) no no' →
      Edited edit (.If condition yes no) (.If condition' yes' no')
  | While {condition condition' body body'} : condition.Edited edit condition' →
      Edited edit body body' → Edited edit (.While condition body) (.While condition' body')
  | For {first first' condition condition' step step' body body'} :
      Option.Rel (Edited edit) first first' → Option.Rel (Expr.Edited edit) condition condition' →
      Option.Rel (Expr.Edited edit) step step' → Edited edit body body' →
      Edited edit (.For first condition step body) (.For first' condition' step' body')
  | Block {span statements statements'} : List.Forall₂ (Edited edit) statements statements' →
      Edited edit (.Block span statements) (.Block span statements')
  | Empty {span} : Edited edit (.Empty span) (.Empty span)

-- The parameters of a function that is declared have the names of variables.
structure FunctionTree.Edited (edit : Edit) (declared declared' : FunctionTree) : Prop where
  span : declared.span = declared'.span
  name : declared.name = declared'.name
  free : ¬edit.reserved declared.name.text
  promises : edit.promises declared.promises declared'.promises
  result : declared.result.Edited edit declared'.result
  parameters : List.Forall₂ (Parameter.Related (TypeTree.Edited edit)) declared.parameters
    declared'.parameters
  names : declared.parameters.map Parameter.name = declared'.parameters.map Parameter.name
  freeNames : ∀ parameter ∈ declared.parameters, ∀ name ∈ parameter.name, ¬edit.reserved name.text
  body : Option.Rel (fun block block' : Block => block.span = block'.span ∧
    List.Forall₂ (Statement.Edited edit) block.statements block'.statements)
    declared.body declared'.body

-- The targets of aliases may be changed as `targets` tells.
inductive Item.Edited (edit : Edit) (targets : TypeTree → TypeTree → Prop) : Item → Item → Prop where
  | Import {name} : ¬edit.reserved name.text → Edited edit targets (.Import name) (.Import name)
  | Class {name} : Edited edit targets (.Class name) (.Class name)
  | Alias {name target target'} : targets target target' →
      Edited edit targets (.Alias name target) (.Alias name target')
  | Function {declared declared'} : declared.Edited edit declared' →
      Edited edit targets (.Function declared) (.Function declared')
  | Global {declared declared'} : declared.Edited edit declared' →
      Edited edit targets (.Global declared) (.Global declared')

namespace Expr.Edited

variable {edit : Edit} {whole whole' : Expr}

theorem parts (h : whole.Edited edit whole') :
    List.Forall₂ (Expr.Edited edit) whole.parts whole'.parts := by
  cases h with
  | Leaf hparts => rw [hparts]; exact .nil
  | Paren h | Leading h | Step h | Cast _ h | Declare _ h | Compiles h => exact .cons h .nil
  | Binary h h' | Assign h h' | Comma h h' | Index h h' | Remove h h' => exact .cons h (.cons h' .nil)
  | Conditional h h' h'' => exact .cons h (.cons h' (.cons h'' .nil))
  | Call h hrest => exact .cons h hrest
  | Tuple h => exact h
  | Assert h hmessage =>
      cases hmessage with
      | none => exact .cons h .nil
      | some hmessage => exact .cons h (.cons hmessage .nil)

theorem isFalseLiteral (h : whole.Edited edit whole') :
    whole.isFalseLiteral = whole'.isFalseLiteral := by
  induction whole using Expr.induction generalizing whole' with
  | step whole ih =>
      cases h with
      | Leaf => rfl
      | Paren h =>
          rw [Expr.isFalseLiteral, Expr.isFalseLiteral]
          exact ih _ (List.mem_singleton_self _) h
      | _ => rfl

end Expr.Edited

end EffectLint
