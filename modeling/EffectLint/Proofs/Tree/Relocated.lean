import EffectLint.Proofs.Tree.Induction
import EffectLint.Report.Diagnostic

/-!
Moving the places in a tree. All offsets are mapped in the same way and everything else stays, so
trees that are alike but for their places are the same once all places are one.
-/

namespace EffectLint

def Span.relocate (offset : Nat → Nat) (span : Span) : Span :=
  ⟨offset span.start, offset span.stop⟩

def Name.relocate (offset : Nat → Nat) (name : Name) : Name :=
  ⟨name.text, name.span.relocate offset⟩

namespace TypeTree

variable (offset : Nat → Nat)

mutual

def relocate : TypeTree → TypeTree
  | .Basic span type => .Basic (span.relocate offset) type
  | .Named span name => .Named (span.relocate offset) (name.relocate offset)
  | .Pointer span target => .Pointer (span.relocate offset) target.relocate
  | .Array span element => .Array (span.relocate offset) element.relocate
  | .AssocArray span value key => .AssocArray (span.relocate offset) value.relocate key.relocate
  | .Callable span isDelegate promises result parameters =>
      .Callable (span.relocate offset) isDelegate promises result.relocate
        (relocateParameters parameters)
  | .Error span => .Error (span.relocate offset)

def relocateParameters : List (Parameter TypeTree) → List (Parameter TypeTree)
  | [] => []
  | ⟨isRef, type, name⟩ :: rest =>
      ⟨isRef, type.relocate, name.map (Name.relocate offset)⟩ :: relocateParameters rest

end

end TypeTree

def Parameter.relocate (offset : Nat → Nat) (parameter : Parameter TypeTree) :
    Parameter TypeTree :=
  ⟨parameter.isRef, parameter.type.relocate offset, parameter.name.map (Name.relocate offset)⟩

theorem TypeTree.relocateParameters_eq (offset : Nat → Nat)
    (parameters : List (Parameter TypeTree)) :
    relocateParameters offset parameters = parameters.map (Parameter.relocate offset) := by
  induction parameters with
  | nil => rfl
  | cons first rest ih =>
      rw [relocateParameters, ih]
      rfl

namespace Expr

variable (offset : Nat → Nat)

mutual

def relocate : Expr → Expr
  | .Identifier span name => .Identifier (span.relocate offset) name
  | .Integer span value => .Integer (span.relocate offset) value
  | .Text span text => .Text (span.relocate offset) text
  | .Boolean span value => .Boolean (span.relocate offset) value
  | .Null span => .Null (span.relocate offset)
  | .Paren span inner => .Paren (span.relocate offset) inner.relocate
  | .Binary span op left right => .Binary (span.relocate offset) op left.relocate right.relocate
  | .Assign span op target value =>
      .Assign (span.relocate offset) op target.relocate value.relocate
  | .Conditional span condition yes no =>
      .Conditional (span.relocate offset) condition.relocate yes.relocate no.relocate
  | .Comma span first second => .Comma (span.relocate offset) first.relocate second.relocate
  | .Leading span op operand => .Leading (span.relocate offset) op operand.relocate
  | .Step span op operand => .Step (span.relocate offset) op operand.relocate
  | .Cast span type operand =>
      .Cast (span.relocate offset) (type.relocate offset) operand.relocate
  | .New span name => .New (span.relocate offset) (name.relocate offset)
  | .NewAnonymous span => .NewAnonymous (span.relocate offset)
  | .Call span callee arguments =>
      .Call (span.relocate offset) callee.relocate (relocateList arguments)
  | .Index span base index => .Index (span.relocate offset) base.relocate index.relocate
  | .Remove span container key =>
      .Remove (span.relocate offset) container.relocate key.relocate
  | .Tuple span elements => .Tuple (span.relocate offset) (relocateList elements)
  | .Assert span condition message =>
      .Assert (span.relocate offset) condition.relocate (relocateOption message)
  | .Declare span name value =>
      .Declare (span.relocate offset) (name.relocate offset) value.relocate
  | .Compiles span operand => .Compiles (span.relocate offset) operand.relocate
  | .Error span => .Error (span.relocate offset)

def relocateList : List Expr → List Expr
  | [] => []
  | first :: rest => first.relocate :: relocateList rest

def relocateOption : Option Expr → Option Expr
  | none => none
  | some expr => some expr.relocate

end

theorem relocateList_eq (exprs : List Expr) : relocateList offset exprs = exprs.map (relocate offset) := by
  induction exprs with
  | nil => rfl
  | cons first rest ih => rw [relocateList, ih, List.map_cons]

theorem relocateOption_eq (expr : Option Expr) : relocateOption offset expr = expr.map (relocate offset) := by
  cases expr <;> rfl

end Expr

def VariableTree.relocate (offset : Nat → Nat) (declared : VariableTree) : VariableTree :=
  ⟨declared.span.relocate offset, declared.type.relocate offset, declared.name.relocate offset,
    declared.value.map (Expr.relocate offset)⟩

namespace Statement

variable (offset : Nat → Nat)

mutual

def relocate : Statement → Statement
  | .Evaluate value => .Evaluate (value.relocate offset)
  | .Local declared => .Local (declared.relocate offset)
  | .Return span value => .Return (span.relocate offset) (value.map (Expr.relocate offset))
  | .If condition yes no => .If (condition.relocate offset) yes.relocate (relocateOption no)
  | .While condition body => .While (condition.relocate offset) body.relocate
  | .For first condition step body =>
      .For (relocateOption first) (condition.map (Expr.relocate offset))
        (step.map (Expr.relocate offset)) body.relocate
  | .Block span statements => .Block (span.relocate offset) (relocateList statements)
  | .Empty span => .Empty (span.relocate offset)

def relocateList : List Statement → List Statement
  | [] => []
  | first :: rest => first.relocate :: relocateList rest

def relocateOption : Option Statement → Option Statement
  | none => none
  | some statement => some statement.relocate

end

theorem relocateList_eq (statements : List Statement) :
    relocateList offset statements = statements.map (relocate offset) := by
  induction statements with
  | nil => rfl
  | cons first rest ih => rw [relocateList, ih, List.map_cons]

theorem relocateOption_eq (statement : Option Statement) :
    relocateOption offset statement = statement.map (relocate offset) := by
  cases statement <;> rfl

end Statement

def Block.relocate (offset : Nat → Nat) (block : Block) : Block :=
  ⟨block.span.relocate offset, block.statements.map (Statement.relocate offset)⟩

def FunctionTree.relocate (offset : Nat → Nat) (declared : FunctionTree) : FunctionTree :=
  ⟨declared.span.relocate offset, declared.name.relocate offset, declared.promises,
    declared.result.relocate offset, declared.parameters.map (Parameter.relocate offset),
    declared.body.map (Block.relocate offset)⟩

def Item.relocate (offset : Nat → Nat) : Item → Item
  | .Import name => .Import (name.relocate offset)
  | .Alias name target => .Alias (name.relocate offset) (target.relocate offset)
  | .Class name => .Class (name.relocate offset)
  | .Function declared => .Function (declared.relocate offset)
  | .Global declared => .Global (declared.relocate offset)

def Related.relocate (offset : Nat → Nat) (related : Related) : Related :=
  ⟨related.span.relocate offset, related.message⟩

def Diagnostic.relocate (offset : Nat → Nat) (diagnostic : Diagnostic) : Diagnostic :=
  { diagnostic with
    span := diagnostic.span.relocate offset
    related := diagnostic.related.map (Related.relocate offset) }

section

variable (first second : Nat → Nat)

-- What moves twice in each of its parts moves twice as a whole.
theorem moved_twice_option {α : Type} {move move' both : α → α} {found : Option α}
    (h : ∀ value ∈ found, move' (move value) = both value) :
    (found.map move).map move' = found.map both := by
  cases found with
  | none => rfl
  | some value => exact congrArg some (h value rfl)

theorem moved_twice_list {α : Type} {move move' both : α → α} {items : List α}
    (h : ∀ item ∈ items, move' (move item) = both item) :
    (items.map move).map move' = items.map both := by
  rw [List.map_map]
  exact List.map_congr_left h

theorem Parameter.relocate_relocate {parameter : Parameter TypeTree}
    (h : (parameter.type.relocate first).relocate second = parameter.type.relocate (second ∘ first)) :
    (parameter.relocate first).relocate second = parameter.relocate (second ∘ first) := by
  simp only [Parameter.relocate, h, Option.map_map]
  rfl

theorem TypeTree.relocate_relocate (type : TypeTree) :
    (type.relocate first).relocate second = type.relocate (second ∘ first) := by
  induction type with
  | Basic span type => rfl
  | Named span name => rfl
  | Pointer span target ih => simp only [relocate, ih]; rfl
  | Array span element ih => simp only [relocate, ih]; rfl
  | AssocArray span value key ihvalue ihkey => simp only [relocate, ihvalue, ihkey]; rfl
  | Callable span isDelegate promises result parameters ihresult ihparameters =>
      have hparameters := moved_twice_list fun parameter hmem =>
        Parameter.relocate_relocate first second (ihparameters parameter hmem)
      simp only [relocate, ihresult, relocateParameters_eq, hparameters]
      rfl
  | Error span => rfl

theorem Expr.relocate_relocate (expr : Expr) :
    (expr.relocate first).relocate second = expr.relocate (second ∘ first) := by
  induction expr using Expr.induction with
  | step whole ih =>
      cases whole with
      | Call span callee arguments =>
          have hcallee := ih callee List.mem_cons_self
          have harguments := moved_twice_list fun argument hmem =>
            ih argument (List.mem_cons_of_mem _ hmem)
          simp only [relocate, relocateList_eq, hcallee, harguments]
          rfl
      | Tuple span elements =>
          have helements := moved_twice_list fun element (hmem : element ∈ elements) => ih element hmem
          simp only [relocate, relocateList_eq, helements]
          rfl
      | Assert span condition message =>
          have hcondition := ih condition List.mem_cons_self
          have hmessage := moved_twice_option fun other (hmem : other ∈ message) =>
            ih other (List.mem_cons_of_mem _ (Option.mem_toList.mpr hmem))
          simp only [relocate, relocateOption_eq, hcondition, hmessage]
          rfl
      | Cast span type operand =>
          simp only [relocate, TypeTree.relocate_relocate, ih operand (List.mem_singleton_self _)]
          rfl
      | _ =>
          simp only [parts, List.forall_mem_cons] at ih
          simp only [relocate, ih]
          rfl

theorem Expr.relocate_relocate_option (expr : Option Expr) :
    (expr.map (relocate first)).map (relocate second) = expr.map (relocate (second ∘ first)) :=
  moved_twice_option fun value _ => value.relocate_relocate first second

theorem VariableTree.relocate_relocate (declared : VariableTree) :
    (declared.relocate first).relocate second = declared.relocate (second ∘ first) := by
  simp only [relocate, TypeTree.relocate_relocate, Expr.relocate_relocate_option]
  rfl

theorem Statement.relocate_relocate (statement : Statement) :
    (statement.relocate first).relocate second = statement.relocate (second ∘ first) := by
  induction statement with
  | Evaluate value => exact congrArg _ (value.relocate_relocate first second)
  | Local declared => exact congrArg _ (declared.relocate_relocate first second)
  | Return span value =>
      simp only [relocate, Expr.relocate_relocate_option]
      rfl
  | If condition yes no ihyes ihno =>
      simp only [relocate, relocateOption_eq, Expr.relocate_relocate, ihyes,
        moved_twice_option ihno]
  | While condition body ih => simp only [relocate, Expr.relocate_relocate, ih]
  | For one condition step body ihone ihbody =>
      simp only [relocate, relocateOption_eq, Expr.relocate_relocate_option, ihbody,
        moved_twice_option ihone]
  | Block span statements ih =>
      simp only [relocate, relocateList_eq, moved_twice_list ih]
      rfl
  | Empty span => rfl

theorem Block.relocate_relocate (block : Block) :
    (block.relocate first).relocate second = block.relocate (second ∘ first) := by
  have hstatements := moved_twice_list fun statement (_ : statement ∈ block.statements) =>
    statement.relocate_relocate first second
  simp only [relocate, hstatements]
  rfl

theorem FunctionTree.relocate_relocate (declared : FunctionTree) :
    (declared.relocate first).relocate second = declared.relocate (second ∘ first) := by
  have hparameters := moved_twice_list fun parameter (_ : parameter ∈ declared.parameters) =>
    Parameter.relocate_relocate first second (parameter.type.relocate_relocate first second)
  have hbody := moved_twice_option fun block (_ : block ∈ declared.body) =>
    block.relocate_relocate first second
  simp only [relocate, TypeTree.relocate_relocate, hparameters, hbody]
  rfl

theorem Item.relocate_relocate (item : Item) :
    (item.relocate first).relocate second = item.relocate (second ∘ first) := by
  cases item with
  | Import name => rfl
  | Alias name target =>
      simp only [relocate, TypeTree.relocate_relocate]
      rfl
  | Class name => rfl
  | Function declared => exact congrArg _ (declared.relocate_relocate first second)
  | Global declared => exact congrArg _ (declared.relocate_relocate first second)

-- An item without its places in the source.
def Item.bare (item : Item) : Item :=
  item.relocate fun _ => 0

-- Places do not show in a bare item, wherever they were moved.
theorem Item.bare_relocate (item : Item) : (item.relocate first).bare = item.bare :=
  item.relocate_relocate first fun _ => 0

end

end EffectLint
