import EffectLint.Tree.Basic
import Mathlib.Logic.Relation

/-!
Induction over types, expressions and statements as written. For an expression it goes through
its parts, and what stands in it at any depth is reached through them as well. How deep a way down
the tree of a module gets is counted in the steps that lowering takes by a call. The first operand of
an expression is lowered in a loop, whatever its own first operand is, and does not count.
-/

namespace EffectLint

@[induction_eliminator]
theorem TypeTree.induction {motive : TypeTree → Prop}
    (Basic : ∀ span type, motive (.Basic span type))
    (Named : ∀ span name, motive (.Named span name))
    (Pointer : ∀ span target, motive target → motive (.Pointer span target))
    (Array : ∀ span element, motive element → motive (.Array span element))
    (AssocArray : ∀ span value key, motive value → motive key →
      motive (.AssocArray span value key))
    (Callable : ∀ span isDelegate promises result parameters, motive result →
      (∀ parameter ∈ parameters, motive parameter.type) →
      motive (.Callable span isDelegate promises result parameters))
    (Error : ∀ span, motive (.Error span)) (type : TypeTree) : motive type :=
  match type with
  | .Basic span type => Basic span type
  | .Named span name => Named span name
  | .Pointer span target =>
      Pointer span target (induction Basic Named Pointer Array AssocArray Callable Error target)
  | .Array span element =>
      Array span element (induction Basic Named Pointer Array AssocArray Callable Error element)
  | .AssocArray span value key =>
      AssocArray span value key
        (induction Basic Named Pointer Array AssocArray Callable Error value)
        (induction Basic Named Pointer Array AssocArray Callable Error key)
  | .Callable span isDelegate promises result parameters =>
      Callable span isDelegate promises result parameters
        (induction Basic Named Pointer Array AssocArray Callable Error result)
        (fun parameter _ =>
          induction Basic Named Pointer Array AssocArray Callable Error parameter.type)
  | .Error span => Error span
termination_by sizeOf type
decreasing_by
  all_goals simp_wf
  all_goals try omega
  all_goals
    have hmem := List.sizeOf_lt_of_mem ‹_ ∈ _›
    cases parameter
    simp only [Parameter.mk.sizeOf_spec] at hmem ⊢
    omega

@[induction_eliminator]
theorem Statement.induction {motive : Statement → Prop}
    (Evaluate : ∀ value, motive (.Evaluate value))
    (Local : ∀ declared, motive (.Local declared))
    (Return : ∀ span value, motive (.Return span value))
    (If : ∀ condition yes no, motive yes → (∀ other ∈ no, motive other) →
      motive (.If condition yes no))
    (While : ∀ condition body, motive body → motive (.While condition body))
    (For : ∀ first condition step body, (∀ one ∈ first, motive one) → motive body →
      motive (.For first condition step body))
    (Block : ∀ span statements, (∀ one ∈ statements, motive one) → motive (.Block span statements))
    (Empty : ∀ span, motive (.Empty span)) (written : Statement) : motive written :=
  match written with
  | .Evaluate value => Evaluate value
  | .Local declared => Local declared
  | .Return span value => Return span value
  | .If condition yes no =>
      If condition yes no (induction Evaluate Local Return If While For Block Empty yes)
        (fun other _ => induction Evaluate Local Return If While For Block Empty other)
  | .While condition body =>
      While condition body (induction Evaluate Local Return If While For Block Empty body)
  | .For first condition step body =>
      For first condition step body
        (fun one _ => induction Evaluate Local Return If While For Block Empty one)
        (induction Evaluate Local Return If While For Block Empty body)
  | .Block span statements =>
      Block span statements
        (fun one _ => induction Evaluate Local Return If While For Block Empty one)
  | .Empty span => Empty span
termination_by sizeOf written
decreasing_by
  all_goals simp_wf
  all_goals try omega
  · have hmem := Option.mem_def.mp ‹_ ∈ _›
    subst hmem
    simp only [Option.some.sizeOf_spec]
    omega
  · have hmem := Option.mem_def.mp ‹_ ∈ _›
    subst hmem
    simp only [Option.some.sizeOf_spec]
    omega
  · have hmem := List.sizeOf_lt_of_mem ‹_ ∈ _›
    omega

namespace TypeTree

mutual

-- The names that a type mentions, in source order.
def mentioned : TypeTree → List Name
  | .Basic _ _ | .Error _ => []
  | .Named _ name => [name]
  | .Pointer _ part | .Array _ part => part.mentioned
  | .AssocArray _ value key => value.mentioned ++ key.mentioned
  | .Callable _ _ _ result parameters => result.mentioned ++ mentionedIn parameters

def mentionedIn : List (Parameter TypeTree) → List Name
  | [] => []
  | ⟨_, written, _⟩ :: rest => written.mentioned ++ mentionedIn rest

end

theorem mem_mentionedIn {parameters : List (Parameter TypeTree)} {name : Name} :
    name ∈ mentionedIn parameters ↔ ∃ parameter ∈ parameters, name ∈ parameter.type.mentioned := by
  induction parameters with
  | nil => simp [mentionedIn]
  | cons first rest ih => simp [mentionedIn, ih]

end TypeTree

namespace Expr

-- The expressions that an expression is made of, in source order.
def parts : Expr → List Expr
  | .Identifier _ _ | .Integer _ _ | .Text _ _ | .Boolean _ _ | .Null _ | .New _ _
  | .NewAnonymous _ | .Error _ => []
  | .Paren _ part | .Leading _ _ part | .Step _ _ part | .Cast _ _ part | .Declare _ _ part
  | .Compiles _ part => [part]
  | .Binary _ _ left right | .Assign _ _ left right | .Comma _ left right | .Index _ left right
  | .Remove _ left right => [left, right]
  | .Conditional _ condition yes no => [condition, yes, no]
  | .Call _ callee arguments => callee :: arguments
  | .Tuple _ elements => elements
  | .Assert _ condition message => condition :: message.toList

theorem sizeOf_part {part whole : Expr} (hpart : part ∈ whole.parts) :
    sizeOf part < sizeOf whole := by
  cases whole with
  | Call span callee arguments =>
      simp only [parts, List.mem_cons] at hpart
      rcases hpart with rfl | hpart
      · simp_wf
        omega
      · have hlt := List.sizeOf_lt_of_mem hpart
        simp_wf
        omega
  | Tuple span elements =>
      have hlt : sizeOf part < sizeOf elements := List.sizeOf_lt_of_mem hpart
      simp_wf
      omega
  | Assert span condition message =>
      cases message <;> simp [parts] at hpart <;> rcases hpart with rfl | rfl <;> simp_wf <;> omega
  | _ => simp [parts] at hpart <;> rcases hpart with rfl | rfl | rfl <;> simp_wf <;> omega

theorem induction {motive : Expr → Prop}
    (step : ∀ whole, (∀ part ∈ whole.parts, motive part) → motive whole) (whole : Expr) :
    motive whole :=
  step whole fun part hpart =>
    have _ := sizeOf_part hpart
    induction step part
termination_by sizeOf whole

-- Whether an expression is another one or stands somewhere in it.
def Within : Expr → Expr → Prop :=
  Relation.ReflTransGen (fun part whole => part ∈ whole.parts)

-- Whether it is asked somewhere in an expression if something compiles.
def Asks (whole : Expr) : Prop :=
  ∃ span operand, Within (.Compiles span operand) whole

theorem Asks.of_part {part whole : Expr} (hasks : part.Asks) (hpart : part ∈ whole.parts) :
    whole.Asks := by
  obtain ⟨span, operand, hwithin⟩ := hasks
  exact ⟨span, operand, hwithin.tail hpart⟩

theorem asks_Compiles (span : Span) (operand : Expr) : (Compiles span operand).Asks :=
  ⟨span, operand, .refl⟩

end Expr

namespace Expr

-- The operand that is lowered before anything else in an expression.
def firstOperand? : Expr → Option Expr
  | .Paren _ operand | .Binary _ _ operand _ | .Assign _ _ operand _ | .Conditional _ operand _ _
  | .Comma _ operand _ | .Leading _ _ operand | .Step _ _ operand | .Call _ operand _
  | .Index _ operand _ | .Remove _ operand _ => some operand
  | _ => none

def otherOperands : Expr → List Expr
  | .Binary _ _ _ operand | .Assign _ _ _ operand | .Comma _ _ operand | .Index _ _ operand
  | .Remove _ _ operand | .Cast _ _ operand | .Declare _ _ operand | .Compiles _ operand => [operand]
  | .Conditional _ _ yes no => [yes, no]
  | .Call _ _ arguments => arguments
  | .Tuple _ elements => elements
  | .Assert _ condition message => condition :: message.toList
  | _ => []

theorem parts_eq_operands (whole : Expr) :
    whole.parts = whole.firstOperand?.toList ++ whole.otherOperands := by
  cases whole <;> rfl

end Expr

namespace Statement

-- The expressions of a statement, apart from those of the statements in it.
def values : Statement → List Expr
  | .Evaluate value => [value]
  | .Local declared => declared.value.toList
  | .Return _ value => value.toList
  | .If condition _ _ | .While condition _ => [condition]
  | .For _ condition step _ => condition.toList ++ step.toList
  | .Block _ _ | .Empty _ => []

-- The first part of a `for` header does not count as a statement of its own.
def first? : Statement → Option Statement
  | .For first _ _ _ => first
  | _ => none

-- The other statements in a statement.
def nested : Statement → List Statement
  | .If _ yes no => yes :: no.toList
  | .While _ body | .For _ _ _ body => [body]
  | .Block _ statements => statements
  | _ => []

end Statement

inductive TreeNode where
  | Item (item : EffectLint.Item)
  | Statement (written : EffectLint.Statement)
  | Expr (written : EffectLint.Expr)

namespace TreeNode

-- The children that are one step down without counting as one.
def uncounted : TreeNode → List TreeNode
  | .Item _ => []
  | .Statement written => written.first?.toList.map .Statement
  | .Expr whole => whole.firstOperand?.toList.map .Expr

def counted : TreeNode → List TreeNode
  | .Item (.Function declared) => (declared.body.elim [] Block.statements).map .Statement
  | .Item (.Global declared) => declared.value.toList.map .Expr
  | .Item _ => []
  | .Statement written => written.values.map .Expr ++ written.nested.map .Statement
  | .Expr whole => whole.otherOperands.map .Expr

-- A way from a node down to another one, with the number of its steps that count.
inductive Path : TreeNode → Nat → TreeNode → Prop where
  | Here (node : TreeNode) : Path node 0 node
  | Uncounted {node child last : TreeNode} {count : Nat} (hchild : child ∈ node.uncounted)
      (path : Path child count last) : Path node count last
  | Counted {node child last : TreeNode} {count : Nat} (hchild : child ∈ node.counted)
      (path : Path child count last) : Path node (count + 1) last

-- From `used` levels on, no way down gets beyond the limit.
def Fits (limit used : Nat) (node : TreeNode) : Prop :=
  ∀ count last, node.Path count last → used + count ≤ limit

theorem Fits.fewer {limit used used' : Nat} {node : TreeNode} (h : node.Fits limit used')
    (hused : used ≤ used') : node.Fits limit used :=
  fun count last path => Nat.le_trans (Nat.add_le_add_right hused count) (h count last path)

theorem Fits.here {limit used : Nat} {node : TreeNode} (h : node.Fits limit used) : used ≤ limit :=
  h 0 node (.Here node)

theorem fits_of_children {limit used : Nat} {node : TreeNode} (hused : used ≤ limit)
    (huncounted : ∀ child ∈ node.uncounted, child.Fits limit used)
    (hcounted : ∀ child ∈ node.counted, child.Fits limit (used + 1)) : node.Fits limit used := by
  intro count last path
  cases path with
  | Here => exact hused
  | Uncounted hchild path => exact huncounted _ hchild _ _ path
  | Counted hchild path =>
      have hbelow := hcounted _ hchild _ _ path
      omega

end TreeNode

section Operands

variable {limit used : Nat}

def Expr.Fits (limit used : Nat) (whole : Expr) : Prop :=
  (TreeNode.Expr whole).Fits limit used

def Statement.Fits (limit used : Nat) (written : Statement) : Prop :=
  (TreeNode.Statement written).Fits limit used

theorem Expr.fits_of_operands {whole : Expr} (hused : used ≤ limit)
    (hfirst : ∀ operand ∈ whole.firstOperand?, operand.Fits limit used)
    (hothers : ∀ operand ∈ whole.otherOperands, operand.Fits limit (used + 1)) :
    whole.Fits limit used := by
  refine TreeNode.fits_of_children hused (fun child hchild => ?_) fun child hchild => ?_
  · obtain ⟨operand, hoperand, rfl⟩ := List.mem_map.mp hchild
    exact hfirst operand (Option.mem_toList.mp hoperand)
  · obtain ⟨operand, hoperand, rfl⟩ := List.mem_map.mp hchild
    exact hothers operand hoperand

theorem Expr.fits_of_first {whole operand : Expr} (hoperand : operand.Fits limit used)
    (hfirst : whole.firstOperand? = some operand)
    (hothers : ∀ other ∈ whole.otherOperands, other.Fits limit (used + 1)) :
    whole.Fits limit used :=
  fits_of_operands hoperand.here (fun other h => by
    obtain rfl : operand = other := Option.some.inj (hfirst.symm.trans h)
    exact hoperand) hothers

theorem Expr.fits_of_others {whole : Expr} (hused : used ≤ limit)
    (hfirst : whole.firstOperand? = none)
    (hothers : ∀ other ∈ whole.otherOperands, other.Fits limit (used + 1)) :
    whole.Fits limit used :=
  fits_of_operands hused (fun operand h => by simp [hfirst] at h) hothers

theorem Expr.fits_of_leaf {whole : Expr} (hused : used ≤ limit) (hparts : whole.parts = []) :
    whole.Fits limit used := by
  rw [Expr.parts_eq_operands, List.append_eq_nil_iff, Option.toList_eq_nil_iff] at hparts
  exact fits_of_others hused hparts.1 fun other hother => by simp [hparts.2] at hother

theorem Statement.fits_of_inside {written : Statement} (hused : used ≤ limit)
    (hfirst : ∀ first ∈ written.first?, first.Fits limit used)
    (hvalues : ∀ value ∈ written.values, value.Fits limit (used + 1))
    (hnested : ∀ inner ∈ written.nested, inner.Fits limit (used + 1)) :
    written.Fits limit used := by
  refine TreeNode.fits_of_children hused (fun child hchild => ?_) fun child hchild => ?_
  · obtain ⟨first, hmem, rfl⟩ := List.mem_map.mp hchild
    exact hfirst first (Option.mem_toList.mp hmem)
  · rcases List.mem_append.mp hchild with hchild | hchild
    · obtain ⟨value, hmem, rfl⟩ := List.mem_map.mp hchild
      exact hvalues value hmem
    · obtain ⟨inner, hmem, rfl⟩ := List.mem_map.mp hchild
      exact hnested inner hmem

theorem Statement.fits_of_local {declared : VariableTree} (hused : used ≤ limit)
    (hvalue : ∀ value ∈ declared.value, value.Fits limit (used + 1)) :
    (Statement.Local declared).Fits limit used :=
  fits_of_inside hused (fun _ h => nomatch h)
    (fun value hmem => hvalue value (Option.mem_toList.mp hmem)) fun _ h => nomatch h

end Operands

end EffectLint
