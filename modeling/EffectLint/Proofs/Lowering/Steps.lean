import EffectLint.Lowering.Expression
import EffectLint.Proofs.Tree.Induction

/-!
Lowering as a plain recursion over the expression, and the steps that it is made of. Following the
chain of first operands comes to the same as lowering every operand from left to right and making the
node last. What holds of each step, and of a sequence whose parts it holds of, holds of lowering any
expression.
-/

namespace EffectLint

namespace Lower

variable (source : List Char)

-- What remains around an expression does not matter before the expression is lowered.
theorem along_eq (written : Expr) (outer : List Rest) :
    along source written outer = expr source written >>= finish outer := by
  induction written using Expr.induction generalizing outer with
  | step whole ih =>
    cases whole with
    | Identifier | Integer | Text | Boolean | Null | Cast | New | NewAnonymous | Tuple | Declare
    | Compiles | Error =>
        simp only [expr, along, finish, bind_assoc, pure_bind]
    | Paren span inner => simp only [expr, along, ih inner (by simp [Expr.parts]) outer]
    | Assert span condition message =>
        cases message <;> simp only [expr, along, finish, bind_assoc, pure_bind]
    | Binary span op left | Assign span op left | Comma span left | Index span left
    | Remove span left | Conditional span left | Leading span op left | Step span op left
    | Call span left =>
        have hleft := ih left (by simp [Expr.parts])
        simp only [expr, along]
        rw [hleft, hleft [_]]
        simp only [finish, bind_assoc, pure_bind]

theorem alongEach_eq (written : List Expr) :
    alongEach source written = written.mapM (expr source) := by
  induction written with
  | nil => simp only [alongEach, List.mapM_nil]
  | cons first rest ih => simp only [alongEach, List.mapM_cons, ih, expr]

-- The operands from left to right, then the node.
theorem expr_eq (written : Expr) :
    expr source written =
      match written with
      | .Identifier span name => nameNode name span
      | .Integer span value => integerNode value span
      | .Text span text => leaf (.Text text) .string span
      | .Boolean span value => leaf (.Boolean value) .bool span
      | .Null span => leaf .Null .null span
      | .Paren _ inner => expr source inner
      | .Binary span op left right => do
          let left ← expr source left
          let right ← expr source right
          connectiveNode source op span left right
      | .Assign span op target value => do
          let target ← expr source target
          let value ← expr source value
          assignNode op span target value
      | .Conditional span condition yes no => do
          let condition ← expr source condition
          let yes ← expr source yes
          let no ← expr source no
          conditionalNode span condition yes no
      | .Comma span first second => do
          let first ← expr source first
          let second ← expr source second
          commaNode span first second
      | .Leading span op operand => do
          let operand ← expr source operand
          leadingNode source op span operand
      | .Step span op operand => do
          let operand ← expr source operand
          stepNode op span operand
      | .Cast span written operand => do
          let target ← type written
          let operand ← expr source operand
          castNode target span operand
      | .New span name => newNode name span
      | .NewAnonymous span => newAnonymousNode span
      | .Call span callee arguments => do
          let callee ← expr source callee
          let arguments ← arguments.mapM (expr source)
          callNode source span callee arguments
      | .Index span base index => do
          let base ← expr source base
          let index ← expr source index
          indexNode source span base index
      | .Remove span container key => do
          let container ← expr source container
          let key ← expr source key
          removeNode source span container key
      | .Tuple span elements => do
          let elements ← elements.mapM (expr source)
          tupleNode span elements
      | .Assert span condition message => do
          let lowered ← expr source condition
          let message ← message.mapM (expr source)
          assertNode condition.isFalseLiteral span lowered message
      | .Declare span name value => do
          let value ← expr source value
          let type := (← typeOf value).getD .error
          let id ← declareVariable name type false
          declareNode id name span (some value)
      | .Compiles span operand => do
          let compiles ← accepts (expr source operand)
          leaf (.Boolean compiles) .bool span
      | .Error span => errorNode span := by
  cases written with
  | Identifier | Integer | Text | Boolean | Null | Paren | Cast | New | NewAnonymous | Declare
  | Compiles | Error =>
      simp only [expr, along, finish, bind_pure]
  | Tuple => simp only [expr, along, alongEach_eq, finish, bind_pure]
  | Assert span condition message =>
      cases message <;>
        simp only [expr, along, finish, bind_pure, Option.mapM_none, Option.mapM_some, pure_bind,
          map_eq_pure_bind, bind_assoc]
  | Leading | Step | Call =>
      rw [expr, along, along_eq]
      simp only [finish, bind_pure, alongEach_eq]
  | Binary | Assign | Conditional | Comma | Index | Remove =>
      rw [expr, along, along_eq]
      simp only [finish, bind_pure]
      rfl

end Lower

namespace Lower

-- A name that is defined already stays what it is, and that is reported.
theorem define_apply (name : Name) (binding : Binding) (state : LoweringState) :
    define name binding state =
      if (symbol name.text state).2.scopes.isDefinedHere (symbol name.text state).1 = true then
        report (.about .DuplicateDefinition name.span name.text) (symbol name.text state).2
      else ((), ⟨(symbol name.text state).2.program,
        state.scopes.define (symbol name.text state).1 binding, state.reporter⟩) := by
  change (if state.scopes.isDefinedHere (symbol name.text state).1 = true then _ else _ : Lower Unit)
    (symbol name.text state).2 = if state.scopes.isDefinedHere _ = true then _ else _
  split <;> rfl

-- The steps that have nothing to do with the open scopes.
structure Nodewise (P : ∀ {α : Type}, Lower α → Prop) : Prop where
  pure : ∀ {α : Type} (answer : α), P (Pure.pure answer : Lower α)
  bind : ∀ {α β : Type} {first : Lower α} {next : α → Lower β},
    P first → (∀ answer, P (next answer)) → P (first >>= next)
  read : ∀ {α : Type} (look : Program → α), P (fun state => (look state.program, state))
  -- nothing but errors is said
  report : ∀ diagnostic, diagnostic.isError = true → P (report diagnostic)
  symbol : ∀ name, P (symbol name)
  internType : ∀ shape, P (internType shape)
  addNode : ∀ node, P (addNode node)

structure Namewise (P : ∀ {α : Type}, Lower α → Prop) : Prop extends Nodewise @P where
  lookup : ∀ name, P (lookup name)

structure Stepwise (P : ∀ {α : Type}, Lower α → Prop) : Prop extends Namewise @P where
  inScope : ∀ {α : Type} {body : Lower α}, P body → P (inScope body)
  addVariable : ∀ entry, P (addVariable entry)
  define : ∀ name binding, P (define name binding)

namespace Nodewise

variable {P : ∀ {α : Type}, Lower α → Prop} (steps : Nodewise @P)

include steps

theorem reading {α β : Type} (look : Program → α) (next : α → Lower β)
    (hnext : ∀ found, P (next found)) :
    P (do let state ← get; next (look state.program)) := by
  have hread : P ((fun state => (look state.program, state) : Lower α) >>= next) :=
    steps.bind (steps.read look) hnext
  exact hread

theorem node (id : NodeId) : P (node id) :=
  steps.read (·.arena.node id)

theorem types : P types :=
  steps.read Program.types

theorem typeOf (id : NodeId) : P (typeOf id) :=
  steps.read (·.arena.type? id)

theorem isError (id : NodeId) : P (isError id) :=
  steps.read (·.arena.kind id == .Error)

theorem leaf (kind : NodeKind) (type : TypeId) (span : Span) : P (leaf kind type span) :=
  steps.addNode _

theorem errorNode (span : Span) : P (errorNode span) :=
  steps.addNode _

theorem anyError (ids : List NodeId) : P (anyError ids) := by
  induction ids with
  | nil => exact steps.pure false
  | cons id rest ih =>
      refine steps.bind (steps.isError id) fun wrong => ?_
      cases wrong with
      | true => exact steps.pure true
      | false => exact ih

theorem unlessError (span : Span) (operands : List NodeId) {build : Lower NodeId}
    (hbuild : P build) : P (unlessError span operands build) := by
  refine steps.bind (steps.anyError operands) fun wrong => ?_
  cases wrong with
  | true => exact steps.errorNode span
  | false => exact hbuild

theorem rejectOperand (source : List Char) {kind : DiagnosticKind} (hkind : kind.severity = .Error)
    (operand : NodeId) : P (rejectOperand source kind operand) :=
  steps.bind (steps.node operand) fun _ => steps.bind (steps.report _ (beq_of_eq hkind)) fun _ =>
    steps.errorNode _

theorem wrapType (inner : TypeId) (wrap : TypeId → Shape) : P (wrapType inner wrap) := by
  unfold Lower.wrapType
  split
  · exact steps.pure TypeId.error
  · exact steps.internType _

theorem newAnonymousNode (span : Span) : P (newAnonymousNode span) :=
  steps.bind (steps.symbol _) fun _ => steps.bind (steps.internType _) fun _ => steps.leaf _ _ _

variable (source : List Char)

theorem connectiveNode (op : Connective) (span : Span) (left right : NodeId) :
    P (connectiveNode source op span left right) := by
  refine steps.unlessError span _ ?_
  cases op with
  | Value op =>
      exact steps.bind steps.types fun _ => steps.bind (steps.typeOf left) fun _ =>
        steps.bind (steps.typeOf right) fun _ => steps.leaf _ _ _
  | AndAnd => exact steps.leaf _ _ _
  | OrOr => exact steps.leaf _ _ _
  | In =>
      refine steps.bind (steps.typeOf right) fun type => steps.bind steps.types fun table => ?_
      split
      · exact steps.bind (steps.internType _) fun _ => steps.leaf _ _ _
      · exact steps.rejectOperand source rfl right

theorem assignNode (op : Option AssignOp) (span : Span) (target value : NodeId) :
    P (assignNode op span target value) :=
  steps.unlessError span _ (steps.bind (steps.typeOf target) fun _ => steps.addNode _)

theorem conditionalNode (span : Span) (condition yes no : NodeId) :
    P (conditionalNode span condition yes no) := by
  refine steps.unlessError span _ (steps.bind (steps.typeOf yes) fun type => ?_)
  split
  · exact steps.bind (steps.typeOf no) fun _ => steps.addNode _
  · exact steps.addNode _

theorem commaNode (span : Span) (first second : NodeId) : P (commaNode span first second) :=
  steps.unlessError span _ (steps.bind (steps.typeOf second) fun _ => steps.addNode _)

theorem leadingNode (op : LeadingOp) (span : Span) (operand : NodeId) :
    P (leadingNode source op span operand) := by
  refine steps.unlessError span _ (steps.bind (steps.typeOf operand) fun type => ?_)
  cases op with
  | Value op => cases op <;> exact steps.addNode _
  | Deref =>
      refine steps.bind steps.types fun table => ?_
      split
      · exact steps.leaf _ _ _
      · exact steps.rejectOperand source rfl operand
  | AddressOf =>
      cases type with
      | some target => exact steps.bind (steps.internType _) fun _ => steps.leaf _ _ _
      | none => exact steps.rejectOperand source rfl operand
  | Delete => exact steps.leaf _ _ _
  | Step op => exact steps.addNode _

theorem stepNode (op : StepOp) (span : Span) (operand : NodeId) : P (stepNode op span operand) :=
  steps.unlessError span _ (steps.bind (steps.typeOf operand) fun _ => steps.addNode _)

theorem castNode (type : TypeId) (span : Span) (operand : NodeId) :
    P (castNode type span operand) := by
  unfold Lower.castNode
  split
  · exact steps.errorNode span
  · exact steps.unlessError span _ (steps.leaf _ _ _)

theorem callNode (span : Span) (callee : NodeId) (arguments : List NodeId) :
    P (callNode source span callee arguments) := by
  refine steps.unlessError span _ (steps.bind (steps.typeOf callee) fun type =>
    steps.bind steps.types fun table => ?_)
  split
  · exact steps.rejectOperand source rfl callee
  · refine steps.bind (steps.node callee) fun node => ?_
    split
    · exact steps.leaf _ _ _
    · exact steps.bind (steps.report _ rfl) fun _ => steps.errorNode span

theorem indexNode (span : Span) (base index : NodeId) :
    P (indexNode source span base index) := by
  refine steps.unlessError span _ (steps.bind (steps.typeOf base) fun type =>
    steps.bind steps.types fun table => ?_)
  split
  · exact steps.leaf _ _ _
  · exact steps.rejectOperand source rfl base

theorem removeNode (span : Span) (container key : NodeId) :
    P (removeNode source span container key) := by
  refine steps.unlessError span _ (steps.bind (steps.typeOf container) fun type =>
    steps.bind steps.types fun table => ?_)
  split
  · exact steps.leaf _ _ _
  · exact steps.rejectOperand source rfl container

theorem typesOf (ids : List NodeId) : P (typesOf ids) := by
  induction ids with
  | nil => exact steps.pure []
  | cons id rest ih =>
      exact steps.bind (steps.typeOf id) fun _ => steps.bind ih fun _ => steps.pure _

theorem tupleNode (span : Span) (elements : List NodeId) : P (tupleNode span elements) :=
  steps.unlessError span _ (steps.bind (steps.typesOf elements) fun _ =>
    steps.bind (steps.internType _) fun _ => steps.leaf _ _ _)

theorem assertNode (isFalse : Bool) (span : Span) (condition : NodeId) (message : Option NodeId) :
    P (assertNode isFalse span condition message) := by
  refine steps.unlessError span _ ?_
  cases isFalse <;> exact steps.leaf _ _ _

theorem declareNode (id : VariableId) (name : Name) (span : Span) (value : Option NodeId) :
    P (declareNode id name span value) := by
  cases value with
  | none =>
      exact steps.reading (·.variableType id) (Lower.leaf (.Declare id none) · span) fun _ =>
        steps.leaf _ _ _
  | some value =>
      refine steps.reading (·.variableType id) (fun type => Lower.unlessError span [value] do
        let target ← Lower.leaf (.Variable id) type name.span
        let whole := name.span.cover (← Lower.node value).span
        let construct ← Lower.leaf (.Assign .Construct target value) type whole
        Lower.leaf (.Declare id (some construct)) type span) fun type => ?_
      exact steps.unlessError span _ (steps.bind (steps.leaf _ _ _) fun _ =>
        steps.bind (steps.node value) fun _ => steps.bind (steps.leaf _ _ _) fun _ =>
        steps.leaf _ _ _)

-- What looks a name up and goes on without the scopes. Of the whole, `Q` holds.
section Named

variable {Q : Lower NodeId → Prop}

theorem type_Named_of {Q : Lower TypeId → Prop} (span : Span) (name : Name)
    (hlookup : ∀ next : Option Binding → Lower TypeId, (∀ binding, P (next binding)) →
      Q (lookup name.text >>= next)) : Q (type (.Named span name)) := by
  rw [Lower.type]
  refine hlookup _ fun binding => ?_
  split
  · exact steps.pure _
  · exact steps.bind (steps.report _ rfl) fun _ => steps.pure _

theorem nameNode_of (name : String) (span : Span)
    (hlookup : ∀ next : Option Binding → Lower NodeId, (∀ binding, P (next binding)) →
      Q (lookup name >>= next)) : Q (nameNode name span) := by
  refine hlookup _ fun binding => ?_
  cases binding with
  | none => exact steps.bind (steps.report _ rfl) fun _ => steps.errorNode span
  | some binding =>
      cases binding with
      | Variable id =>
          exact steps.reading (·.variableType id) (Lower.leaf (.Variable id) · span) fun _ =>
            steps.leaf _ _ _
      | Function id =>
          exact steps.reading (·.functionType id) (Lower.leaf (.Function id) · span) fun _ =>
            steps.leaf _ _ _
      | Module id => exact steps.addNode _
      | _ => exact steps.bind (steps.report _ rfl) fun _ => steps.errorNode span

theorem newNode_of (name : Name) (span : Span)
    (hlookup : ∀ next : TypeTable → Option Binding → Lower NodeId,
      (∀ table binding, P (next table binding)) →
      Q (Lower.types >>= fun table => lookup name.text >>= next table)) :
    Q (newNode name span) := by
  refine hlookup _ fun table binding => ?_
  split
  · split
    · exact steps.leaf _ _ _
    · exact steps.bind (steps.report _ rfl) fun _ => steps.errorNode span
  · exact steps.bind (steps.report _ rfl) fun _ => steps.errorNode span

end Named

end Nodewise

namespace Namewise

variable {P : ∀ {α : Type}, Lower α → Prop} (steps : Namewise @P)

include steps

theorem parameterTypes {parameters : List (Parameter TypeTree)}
    (htypes : ∀ parameter ∈ parameters, P (type parameter.type)) :
    P (parameterTypes parameters) := by
  induction parameters with
  | nil =>
      rw [Lower.parameterTypes]
      exact steps.pure []
  | cons first rest ih =>
      rw [Lower.parameterTypes]
      have hrest := ih fun parameter hmem => htypes parameter (List.mem_cons_of_mem _ hmem)
      exact steps.bind (htypes first List.mem_cons_self) fun _ =>
        steps.bind hrest fun _ => steps.pure _

theorem type (written : TypeTree) : P (type written) := by
  induction written with
  | Basic span type =>
      rw [Lower.type]
      exact steps.pure _
  | Named span name =>
      exact steps.type_Named_of span name fun _ => steps.bind (steps.lookup name.text)
  | Pointer span target ih =>
      rw [Lower.type]
      exact steps.bind ih fun _ => steps.wrapType _ _
  | Array span element ih =>
      rw [Lower.type]
      exact steps.bind ih fun _ => steps.wrapType _ _
  | AssocArray span value key ihValue ihKey =>
      rw [Lower.type]
      refine steps.bind ihValue fun value => steps.bind ihKey fun key => ?_
      split
      · exact steps.pure _
      · exact steps.internType _
  | Callable span isDelegate promises result parameters ihResult ihParameters =>
      rw [Lower.type]
      exact steps.bind ihResult fun _ => steps.bind (steps.parameterTypes ihParameters) fun _ =>
        steps.bind (steps.internType _) fun _ => steps.internType _
  | Error span =>
      rw [Lower.type]
      exact steps.pure _

theorem signature (result : TypeTree) (parameters : List (Parameter TypeTree))
    (promises : Promises) : P (signature result parameters promises) := by
  have hparameters : P (Lower.parameterTypes parameters) :=
    steps.parameterTypes fun _ _ => steps.type _
  exact steps.bind (steps.type result) fun _ => steps.bind hparameters fun _ => steps.pure _

theorem nameNode (name : String) (span : Span) : P (nameNode name span) :=
  steps.nameNode_of name span fun _ => steps.bind (steps.lookup name)

theorem newNode (name : Name) (span : Span) : P (newNode name span) :=
  steps.newNode_of name span fun _ hnext => steps.bind steps.types fun table =>
    steps.bind (steps.lookup name.text) (hnext table)

end Namewise

namespace Stepwise

variable {P : ∀ {α : Type}, Lower α → Prop} (steps : Stepwise @P) (source : List Char)

include steps

theorem declareVariable (name : Name) (type : TypeId) (isGlobal : Bool) :
    P (declareVariable name type isGlobal) :=
  steps.bind (steps.symbol _) fun _ => steps.bind (steps.addVariable _) fun _ =>
    steps.bind (steps.define _ _) fun _ => steps.pure _

theorem mapM {exprs : List Expr} (hexprs : ∀ part ∈ exprs, P (expr source part)) :
    P (exprs.mapM (expr source)) := by
  induction exprs with
  | nil => exact steps.pure []
  | cons first rest ih =>
      rw [List.mapM_cons]
      have hrest := ih fun part hmem => hexprs part (List.mem_cons_of_mem _ hmem)
      exact steps.bind (hexprs first List.mem_cons_self) fun _ =>
        steps.bind hrest fun _ => steps.pure _

-- Questions are set apart from the other steps: what holds of code that asks nothing need not
-- hold of a question.
theorem expr (written : Expr)
    (haccepts : written.Asks → ∀ body : Lower NodeId, P body → P (accepts body)) :
    P (expr source written) := by
  induction written using Expr.induction with
  | step whole ih =>
    have hpart : ∀ part ∈ whole.parts, P (Lower.expr source part) :=
      fun part hmem => ih part hmem fun hasks => haccepts (hasks.of_part hmem)
    rw [expr_eq]
    cases whole with
    | Identifier span name => exact steps.nameNode name span
    | Integer | Text | Boolean | Null => exact steps.leaf _ _ _
    | Paren span inner => exact hpart inner (by simp [Expr.parts])
    | Binary span op left right =>
        exact steps.bind (hpart left (by simp [Expr.parts])) fun _ =>
          steps.bind (hpart right (by simp [Expr.parts])) fun _ =>
          steps.connectiveNode source op span _ _
    | Assign span op target value =>
        exact steps.bind (hpart target (by simp [Expr.parts])) fun _ =>
          steps.bind (hpart value (by simp [Expr.parts])) fun _ => steps.assignNode op span _ _
    | Conditional span condition yes no =>
        exact steps.bind (hpart condition (by simp [Expr.parts])) fun _ =>
          steps.bind (hpart yes (by simp [Expr.parts])) fun _ =>
          steps.bind (hpart no (by simp [Expr.parts])) fun _ => steps.conditionalNode span _ _ _
    | Comma span first second =>
        exact steps.bind (hpart first (by simp [Expr.parts])) fun _ =>
          steps.bind (hpart second (by simp [Expr.parts])) fun _ => steps.commaNode span _ _
    | Leading span op operand =>
        exact steps.bind (hpart operand (by simp [Expr.parts])) fun _ =>
          steps.leadingNode source op span _
    | Step span op operand =>
        exact steps.bind (hpart operand (by simp [Expr.parts])) fun _ => steps.stepNode op span _
    | Cast span written operand =>
        exact steps.bind (steps.type written) fun _ =>
          steps.bind (hpart operand (by simp [Expr.parts])) fun _ => steps.castNode _ span _
    | New span name => exact steps.newNode name span
    | NewAnonymous span => exact steps.newAnonymousNode span
    | Call span callee arguments =>
        have harguments := steps.mapM source fun part hmem => hpart part (List.mem_cons_of_mem _ hmem)
        exact steps.bind (hpart callee (by simp [Expr.parts])) fun _ =>
          steps.bind harguments fun _ => steps.callNode source span _ _
    | Index span base index =>
        exact steps.bind (hpart base (by simp [Expr.parts])) fun _ =>
          steps.bind (hpart index (by simp [Expr.parts])) fun _ =>
          steps.indexNode source span _ _
    | Remove span container key =>
        exact steps.bind (hpart container (by simp [Expr.parts])) fun _ =>
          steps.bind (hpart key (by simp [Expr.parts])) fun _ =>
          steps.removeNode source span _ _
    | Tuple span elements =>
        exact steps.bind (steps.mapM source hpart) fun _ => steps.tupleNode span _
    | Assert span condition message =>
        refine steps.bind (hpart condition (by simp [Expr.parts])) fun lowered => ?_
        cases message with
        | none => exact steps.assertNode _ span lowered none
        | some message =>
            exact steps.bind (steps.bind (hpart message (by simp [Expr.parts])) fun _ =>
              steps.pure _) fun _ => steps.assertNode _ span lowered _
    | Declare span name value =>
        exact steps.bind (hpart value (by simp [Expr.parts])) fun _ =>
          steps.bind (steps.typeOf _) fun _ => steps.bind (steps.declareVariable _ _ _) fun _ =>
          steps.declareNode _ _ _ _
    | Compiles span operand =>
        have hoperand := hpart operand (by simp [Expr.parts])
        exact steps.bind (haccepts (Expr.asks_Compiles span operand) _ hoperand) fun _ =>
          steps.leaf _ _ _
    | Error span => exact steps.errorNode span

end Stepwise

end Lower

end EffectLint
