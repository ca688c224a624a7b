import EffectLint.Proofs.Arena.Forest
import EffectLint.Proofs.Lowering.Bodies

/-!
What lowering an expression does to the trees of the arena. A maker takes the trees of the operands
and leaves one tree, and trees that it is not given stay as they are. So the tree of an expression
is put together of the trees of its parts.
-/

namespace EffectLint

namespace Lower

-- No node is added.
def Nodeless {α : Type} (body : Lower α) : Prop :=
  ∀ state, (body state).2.program.arena = state.program.arena

namespace Nodeless

variable {α β : Type}

theorem bind {first : Lower α} {next : α → Lower β} (hfirst : Nodeless first)
    (hnext : ∀ answer, Nodeless (next answer)) : Nodeless (first >>= next) :=
  fun state => (hnext _ _).trans (hfirst state)

theorem define (name : Name) (binding : Binding) : Nodeless (define name binding) := by
  intro state
  rw [define_apply]
  split <;> rfl

theorem declareVariable (name : Name) (type : TypeId) (isGlobal : Bool) :
    Nodeless (declareVariable name type isGlobal) :=
  bind (fun _ => rfl) fun _ => bind (fun _ => rfl) fun _ => bind (define _ _) fun _ _ => rfl

theorem wrapType (inner : TypeId) (wrap : TypeId → Shape) : Nodeless (wrapType inner wrap) := by
  intro state
  unfold Lower.wrapType
  split <;> rfl

theorem parameterTypes {parameters : List (Parameter TypeTree)}
    (htypes : ∀ parameter ∈ parameters, Nodeless (type parameter.type)) :
    Nodeless (parameterTypes parameters) := by
  induction parameters with
  | nil =>
      rw [Lower.parameterTypes]
      exact fun _ => rfl
  | cons first rest ih =>
      rw [Lower.parameterTypes]
      have hrest := ih fun parameter hmem => htypes parameter (List.mem_cons_of_mem _ hmem)
      exact bind (htypes first List.mem_cons_self) fun _ => bind hrest fun _ _ => rfl

theorem type (written : TypeTree) : Nodeless (type written) := by
  induction written with
  | Basic | Error =>
      rw [Lower.type]
      exact fun _ => rfl
  | Named span name =>
      rw [Lower.type]
      refine bind (fun _ => rfl) fun binding => ?_
      split
      · exact fun _ => rfl
      · exact fun _ => rfl
  | Pointer span target ih | Array span element ih =>
      rw [Lower.type]
      exact bind ih fun _ => wrapType _ _
  | AssocArray span value key ihValue ihKey =>
      rw [Lower.type]
      refine bind ihValue fun value => bind ihKey fun key => ?_
      split
      · exact fun _ => rfl
      · exact fun _ => rfl
  | Callable span isDelegate promises result parameters ihResult ihParameters =>
      rw [Lower.type]
      exact bind ihResult fun _ => bind (parameterTypes ihParameters) fun _ _ => rfl

theorem forM {step : α → Lower Unit} (hstep : ∀ item, Nodeless (step item)) (items : List α) :
    Nodeless (items.forM step) := by
  induction items with
  | nil => exact fun _ => rfl
  | cons first rest ih =>
      rw [List.forM_eq_forM, List.forM_cons]
      exact (hstep first).bind fun _ => ih

end Nodeless

-- The trees with the roots `taken` become those with the roots that are given for the answer. All
-- other trees are kept.
def Joins {α : Type} (taken : List NodeId) (body : Lower α) (given : α → List NodeId) : Prop :=
  ∀ kept state, state.program.arena.Forest (kept ++ taken) →
    (body state).2.program.arena.Forest (kept ++ given (body state).1)

namespace Joins

variable {α β : Type} {taken : List NodeId} {given : α → List NodeId} {given' : β → List NodeId}

theorem pure {answer : α} (hgiven : given answer = taken) :
    Joins taken (Pure.pure answer) given := by
  subst hgiven
  exact fun _ _ h => h

theorem bind {first : Lower α} {next : α → Lower β} (hfirst : Joins taken first given)
    (hnext : ∀ answer, Joins (given answer) (next answer) given') :
    Joins taken (first >>= next) given' :=
  fun kept state h => hnext _ kept _ (hfirst kept state h)

-- New trees stand beside those that are there.
theorem beside (more : List NodeId) {body : Lower α} (h : Joins [] body given) :
    Joins more body (fun answer => more ++ given answer) := by
  intro kept state hforest
  rw [← List.append_assoc]
  refine h (kept ++ more) state ?_
  rw [List.append_nil]
  exact hforest

theorem still {first : Lower α} {next : α → Lower β} (hfirst : Nodeless first)
    (hnext : ∀ answer, Joins taken (next answer) given') : Joins taken (first >>= next) given' := by
  intro kept state h
  refine hnext _ kept _ ?_
  rw [hfirst state]
  exact h

-- Trees may be let go of.
theorem fewer {body : Lower α} {given' : α → List NodeId} (h : Joins taken body given)
    (hsub : ∀ answer, (given' answer).Sublist (given answer)) : Joins taken body given' :=
  fun kept state hforest => (h kept state hforest).sublist ((hsub _).append_left kept)

theorem more {taken' : List NodeId} {body : Lower α} (h : Joins taken body given)
    (hsub : taken.Sublist taken') : Joins taken' body given :=
  fun kept state hforest => h kept state (hforest.sublist (hsub.append_left kept))

theorem perm {taken' : List NodeId} {body : Lower α} (h : Joins taken body given)
    (hperm : taken'.Perm taken) : Joins taken' body given :=
  fun kept state hforest => h kept state (hforest.perm (hperm.append_left kept))

theorem inScope {body : Lower α} (h : Joins taken body given) : Joins taken (inScope body) given :=
  fun kept state hforest => h kept (pushScope state).2 hforest

theorem addNode {node : Node} (hoperands : node.kind.operands.Sublist taken) :
    Joins taken (addNode node) (fun id => [id]) :=
  fun _ _ h => h.add hoperands

theorem leaf {kind : NodeKind} {type : TypeId} {span : Span}
    (hoperands : kind.operands.Sublist taken) :
    Joins taken (leaf kind type span) (fun id => [id]) :=
  addNode hoperands

-- The trees of the operands are let go of where the whole is wrong.
theorem errorNode (span : Span) : Joins taken (errorNode span) (fun id => [id]) :=
  addNode (List.nil_sublist taken)

theorem reported (diagnostic : Diagnostic) (span : Span) :
    Joins taken (do report diagnostic; Lower.errorNode span) (fun id => [id]) :=
  still (fun _ => rfl) fun _ => errorNode span

theorem unlessError {span : Span} {operands : List NodeId} {build : Lower NodeId}
    (h : Joins taken build (fun id => [id])) :
    Joins taken (unlessError span operands build) (fun id => [id]) := by
  intro kept state hforest
  rw [unlessError_apply]
  split
  · exact errorNode span kept state hforest
  · exact h kept state hforest

theorem rejectOperand (source : List Char) (kind : DiagnosticKind) (operand : NodeId) :
    Joins taken (rejectOperand source kind operand) (fun id => [id]) :=
  still (fun _ => rfl) fun _ => reported _ _

section Makers

variable (source : List Char)

theorem nameNode (name : String) (span : Span) :
    Joins taken (nameNode name span) (fun id => [id]) := by
  refine still (fun _ => rfl) fun binding => ?_
  cases binding with
  | none => exact reported _ span
  | some binding =>
      cases binding with
      | Variable id => exact still (fun _ => rfl) fun _ => leaf (List.nil_sublist taken)
      | Function id => exact still (fun _ => rfl) fun _ => leaf (List.nil_sublist taken)
      | Module id => exact addNode (List.nil_sublist taken)
      | _ => exact reported _ span

theorem newNode (name : Name) (span : Span) :
    Joins taken (newNode name span) (fun id => [id]) := by
  refine still (fun _ => rfl) fun table => still (fun _ => rfl) fun binding => ?_
  split
  · split
    · exact leaf (List.nil_sublist taken)
    · exact reported _ span
  · exact reported _ span

theorem newAnonymousNode (span : Span) :
    Joins taken (newAnonymousNode span) (fun id => [id]) :=
  still (fun _ => rfl) fun _ => still (fun _ => rfl) fun _ => leaf (List.nil_sublist taken)

theorem connectiveNode (op : Connective) (span : Span) (left right : NodeId) :
    Joins [left, right] (connectiveNode source op span left right) (fun id => [id]) := by
  refine unlessError ?_
  cases op with
  | Value op =>
      exact still (fun _ => rfl) fun _ => still (fun _ => rfl) fun _ => still (fun _ => rfl) fun _ =>
        leaf (List.Sublist.refl [left, right])
  | AndAnd => exact leaf (List.Sublist.refl [left, right])
  | OrOr => exact leaf (List.Sublist.refl [left, right])
  | In =>
      refine still (fun _ => rfl) fun type => still (fun _ => rfl) fun table => ?_
      split
      · exact still (fun _ => rfl) fun _ => leaf (List.Sublist.refl [left, right])
      · exact rejectOperand source _ right

theorem assignNode (op : Option AssignOp) (span : Span) (target value : NodeId) :
    Joins [target, value] (assignNode op span target value) (fun id => [id]) :=
  unlessError (still (fun _ => rfl) fun _ => addNode (List.Sublist.refl [target, value]))

theorem conditionalNode (span : Span) (condition yes no : NodeId) :
    Joins [condition, yes, no] (conditionalNode span condition yes no) (fun id => [id]) := by
  refine unlessError (still (fun _ => rfl) fun type => ?_)
  split
  · exact still (fun _ => rfl) fun _ => addNode (List.Sublist.refl [condition, yes, no])
  · exact addNode (List.Sublist.refl [condition, yes, no])

theorem commaNode (span : Span) (first second : NodeId) :
    Joins [first, second] (commaNode span first second) (fun id => [id]) :=
  unlessError (still (fun _ => rfl) fun _ => addNode (List.Sublist.refl [first, second]))

theorem leadingNode (op : LeadingOp) (span : Span) (operand : NodeId) :
    Joins [operand] (leadingNode source op span operand) (fun id => [id]) := by
  refine unlessError (still (fun _ => rfl) fun type => ?_)
  cases op with
  | Value op => cases op <;> exact addNode (List.Sublist.refl [operand])
  | Deref =>
      refine still (fun _ => rfl) fun table => ?_
      split
      · exact leaf (List.Sublist.refl [operand])
      · exact rejectOperand source _ operand
  | AddressOf =>
      cases type with
      | some target => exact still (fun _ => rfl) fun _ => leaf (List.Sublist.refl [operand])
      | none => exact rejectOperand source _ operand
  | Delete => exact leaf (List.Sublist.refl [operand])
  | Step op => exact addNode (List.Sublist.refl [operand])

theorem stepNode (op : StepOp) (span : Span) (operand : NodeId) :
    Joins [operand] (stepNode op span operand) (fun id => [id]) :=
  unlessError (still (fun _ => rfl) fun _ => addNode (List.Sublist.refl [operand]))

theorem castNode (type : TypeId) (span : Span) (operand : NodeId) :
    Joins [operand] (castNode type span operand) (fun id => [id]) := by
  unfold Lower.castNode
  split
  · exact errorNode span
  · exact unlessError (leaf (List.Sublist.refl [operand]))

theorem callNode (span : Span) (callee : NodeId) (arguments : List NodeId) :
    Joins (callee :: arguments) (callNode source span callee arguments) (fun id => [id]) := by
  refine unlessError (still (fun _ => rfl) fun type => still (fun _ => rfl) fun table => ?_)
  split
  · exact rejectOperand source _ callee
  · refine still (fun _ => rfl) fun node => ?_
    split
    · exact leaf (List.Sublist.refl (callee :: arguments))
    · exact reported _ span

theorem indexNode (span : Span) (base index : NodeId) :
    Joins [base, index] (indexNode source span base index) (fun id => [id]) := by
  refine unlessError (still (fun _ => rfl) fun type => still (fun _ => rfl) fun table => ?_)
  split
  · exact leaf (List.Sublist.refl [base, index])
  · exact rejectOperand source _ base

theorem removeNode (span : Span) (container key : NodeId) :
    Joins [container, key] (removeNode source span container key) (fun id => [id]) := by
  refine unlessError (still (fun _ => rfl) fun type => still (fun _ => rfl) fun table => ?_)
  split
  · exact leaf (List.Sublist.refl [container, key])
  · exact rejectOperand source _ container

theorem tupleNode (span : Span) (elements : List NodeId) :
    Joins elements (tupleNode span elements) (fun id => [id]) := by
  have htypes : Nodeless (typesOf elements) := fun state => by rw [typesOf_apply]
  exact unlessError (still htypes fun _ => still (fun _ => rfl) fun _ =>
    leaf (List.Sublist.refl elements))

theorem assertNode (isFalse : Bool) (span : Span) (condition : NodeId) (message : Option NodeId) :
    Joins (condition :: message.toList) (assertNode isFalse span condition message)
      (fun id => [id]) := by
  refine unlessError ?_
  cases isFalse with
  | true => exact leaf (List.nil_sublist _)
  | false => exact leaf (List.Sublist.refl (condition :: message.toList))

-- The value is under the assignment to the variable, and that is under the declaration.
theorem declareNode (id : VariableId) (name : Name) (span : Span) (value : Option NodeId) :
    Joins value.toList (declareNode id name span value) (fun id => [id]) := by
  refine still (fun _ => rfl) fun state => ?_
  cases value with
  | none => exact leaf (List.Sublist.refl [])
  | some value =>
      have htarget : Joins [value] (Lower.leaf (.Variable id) (state.program.variableType id) name.span)
          (fun target => [value] ++ [target]) :=
        beside [value] (leaf (List.Sublist.refl []))
      refine unlessError (htarget.bind fun target => still (fun _ => rfl) fun node => ?_)
      have hconstruct : Joins [target, value]
          (Lower.leaf (.Assign .Construct target value) (state.program.variableType id)
            (name.span.cover node.span)) (fun construct => [construct]) :=
        leaf (List.Sublist.refl [target, value])
      exact (hconstruct.perm (.swap _ _ _)).bind fun construct =>
        leaf (List.Sublist.refl [construct])

end Makers

-- Whatever is made of the parts of an expression stands above the trees of the parts. The cases are
-- those of the maker, in their order.
theorem make (source : List Char) (whole : Expr) (target : TypeId) (ids : List NodeId) :
    Joins ids (make source whole target ids) (fun id => [id]) := by
  unfold Lower.make
  split
  · exact nameNode _ _
  · exact leaf (List.nil_sublist ids)
  · exact leaf (List.nil_sublist ids)
  · exact leaf (List.nil_sublist ids)
  · exact leaf (List.nil_sublist ids)
  · exact pure rfl
  · exact connectiveNode source _ _ _ _
  · exact assignNode _ _ _ _
  · exact conditionalNode _ _ _ _
  · exact commaNode _ _ _
  · exact leadingNode source _ _ _
  · exact stepNode _ _ _
  · exact castNode _ _ _
  · exact newNode _ _
  · exact newAnonymousNode _
  · exact callNode source _ _ _
  · exact indexNode source _ _ _
  · exact removeNode source _ _ _
  · exact tupleNode _ _
  · next condition _ lowered message =>
    have hmessage : message.head?.toList.Sublist message := by
      cases message <;> simp
    exact more (assertNode _ _ _ _) (hmessage.cons_cons lowered)
  · next value =>
    exact still (fun _ => rfl) fun _ => still (Nodeless.declareVariable _ _ _) fun id =>
      declareNode id _ _ (some value)
  · exact errorNode _

theorem mapM {source : List Char} {parts : List Expr}
    (hparts : ∀ part ∈ parts, Joins [] (Lower.expr source part) (fun id => [id])) :
    Joins [] (parts.mapM (Lower.expr source)) id := by
  induction parts with
  | nil =>
      rw [List.mapM_nil]
      exact pure rfl
  | cons first rest ih =>
      rw [List.mapM_cons]
      have hrest := ih fun part hmem => hparts part (List.mem_cons_of_mem _ hmem)
      exact bind (hparts first List.mem_cons_self) fun one =>
        bind (beside [one] hrest) fun _ => pure rfl

-- Of the operand of a question nothing is kept.
theorem accepts {body : Lower NodeId} (h : Joins [] body (fun id => [id])) :
    Joins [] (accepts body) fun _ => [] := by
  have hbody : Joins [] (Lower.inScope body) fun _ => [] := h.inScope.fewer fun _ => List.nil_sublist _
  exact still (fun _ => rfl) fun _ => hbody.bind fun _ => still (fun _ => rfl) fun _ =>
    still (fun _ => rfl) fun _ => pure rfl

theorem expr (source : List Char) (written : Expr) :
    Joins [] (Lower.expr source written) (fun id => [id]) := by
  induction written using Expr.induction with
  | step whole ih =>
    cases hquestion : whole.isQuestion with
    | true =>
        cases whole with
        | Compiles span operand =>
            rw [expr_eq]
            exact bind (accepts (ih operand (by simp [Expr.parts]))) fun _ =>
              leaf (List.nil_sublist [])
        | _ => cases hquestion
    | false =>
        have hprepare : Nodeless (prepare whole) := by
          cases whole with
          | Cast span written operand => exact Nodeless.type written
          | _ => exact fun _ => rfl
        rw [expr_eq_parts source hquestion]
        exact still hprepare fun target => bind (mapM ih) fun ids => make source whole target ids

theorem expr? (source : List Char) (written : Option Expr) :
    Joins [] (Lower.expr? source written) Option.toList := by
  cases written with
  | none => exact pure rfl
  | some written =>
      rw [Lower.expr?, map_eq_pure_bind]
      exact bind (expr source written) fun id => pure rfl

end Joins

end Lower

end EffectLint
