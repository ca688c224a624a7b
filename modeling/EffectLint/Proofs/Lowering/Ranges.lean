import EffectLint.Proofs.Grammar.Traces
import EffectLint.Proofs.Lowering.Parts
import EffectLint.Proofs.Program.Rules
import EffectLint.Proofs.Tree.Phrase

/-!
The ranges in a lowered program and in what is said while it is lowered. They are those of the tree,
or reach from one of them to another one, and nothing of the source is looked at but what stands at
the ranges of nodes.
-/

namespace EffectLint

-- A property that all ranges of a phrase have, whatever stands in it at any depth.
def Phrase.Ranged (good : Span → Prop) (phrase : Phrase) : Prop :=
  ∀ part : Phrase, part.Within phrase → ∀ span ∈ part.span?, good span

theorem Phrase.Ranged.here {good : Span → Prop} {phrase : Phrase} (h : phrase.Ranged good)
    {span : Span} (hspan : phrase.span? = some span) : good span :=
  h phrase phrase.within_self span hspan

theorem Phrase.Ranged.inner {good : Span → Prop} {part phrase : Phrase} (h : phrase.Ranged good)
    (hpart : part ∈ phrase.inner) : part.Ranged good :=
  fun _ hwithin => h _ (hwithin.of_inner hpart)

-- The same text stands at the ranges of all nodes.
def Program.Quotes (program : Program) (source source' : List Char) : Prop :=
  ∀ node ∈ program.arena.nodes, Lower.quote source' node.span = Lower.quote source node.span

structure LoweringState.Ranged (good : Span → Prop) (state : LoweringState) : Prop where
  nodes : ∀ node ∈ state.program.arena.nodes, good node.span
  said : ∀ diagnostic ∈ state.reporter.diagnostics, ∀ span ∈ diagnostic.spans, good span

-- A node that is no error is one of those that were added.
theorem Arena.exists_node {arena : Arena} {id : NodeId} (h : arena.kind id ≠ .Error) :
    ∃ node ∈ arena.nodes, arena.node id = node := by
  cases hnode : arena.node? id with
  | none =>
      rw [kind, node, hnode] at h
      exact absurd rfl h
  | some node =>
      exact ⟨node, Array.mem_of_getElem? hnode, node_of_node? hnode⟩

namespace Lower

-- From a state with the given ranges to another one, in the same way for two sources in which the
-- same text stands at the ranges of all nodes.
structure RangedAt {α : Type} (good : Span → Prop) (source source' : List Char) (body body' : Lower α)
    (state : LoweringState) : Prop where
  grows : ∀ node ∈ state.program.arena.nodes, node ∈ (body state).2.program.arena.nodes
  ranged : (body state).2.Ranged good
  alike : (body state).2.program.Quotes source source' → body' state = body state

def Ranges {α : Type} (good : Span → Prop) (source source' : List Char) (body body' : Lower α) : Prop :=
  ∀ state : LoweringState, state.Ranged good → RangedAt good source source' body body' state

variable {good : Span → Prop} {source source' : List Char} {state : LoweringState}

namespace RangedAt

variable {α β : Type}

theorem pure (hstate : state.Ranged good) (answer : α) :
    RangedAt good source source' (Pure.pure answer) (Pure.pure answer) state :=
  ⟨fun _ h => h, hstate, fun _ => rfl⟩

-- What is the same from here on is ranged alike.
theorem congr {body body' other other' : Lower α} (h : RangedAt good source source' other other' state)
    (hbody : body state = other state) (hbody' : body' state = other' state) :
    RangedAt good source source' body body' state := by
  refine ⟨?_, ?_, ?_⟩
  · rw [hbody]
    exact h.grows
  · rw [hbody]
    exact h.ranged
  · rw [hbody, hbody']
    exact h.alike

theorem andThen {first first' : Lower α} {next next' : α → Lower β}
    (hfirst : RangedAt good source source' first first' state)
    (hnext : (first state).2.Ranged good → RangedAt good source source' (next (first state).1)
      (next' (first state).1) (first state).2) :
    RangedAt good source source' (first >>= next) (first' >>= next') state := by
  have hrest := hnext hfirst.ranged
  refine ⟨fun node hnode => hrest.grows node (hfirst.grows node hnode), hrest.ranged, fun hquotes => ?_⟩
  have hsame : first' state = first state := hfirst.alike fun node hnode =>
    hquotes node (hrest.grows node hnode)
  rw [bind_apply, bind_apply, hsame]
  exact hrest.alike hquotes

theorem bind {first first' : Lower α} {next next' : α → Lower β}
    (hfirst : RangedAt good source source' first first' state)
    (hnext : ∀ answer, Ranges good source source' (next answer) (next' answer)) :
    RangedAt good source source' (first >>= next) (first' >>= next') state :=
  hfirst.andThen (hnext _ _)

-- A look at the state changes nothing.
theorem read {look : LoweringState → α} {next next' : α → Lower β}
    (hnext : RangedAt good source source' (next (look state)) (next' (look state)) state) :
    RangedAt good source source' ((fun state => (look state, state) : Lower α) >>= next)
      ((fun state => (look state, state) : Lower α) >>= next') state :=
  ⟨hnext.grows, hnext.ranged, hnext.alike⟩

theorem typeOf (id : NodeId) {next next' : Option TypeId → Lower α}
    (hnext : RangedAt good source source' (next (state.program.arena.type? id))
      (next' (state.program.arena.type? id)) state) :
    RangedAt good source source' (typeOf id >>= next) (typeOf id >>= next') state :=
  ⟨hnext.grows, hnext.ranged, hnext.alike⟩

theorem addNode (hstate : state.Ranged good) {node : Node} (hspan : good node.span) :
    RangedAt good source source' (addNode node) (addNode node) state := by
  refine ⟨fun other hother => Array.mem_push_of_mem _ hother, ⟨fun other hother => ?_, hstate.said⟩,
    fun _ => rfl⟩
  rcases Array.mem_push.mp hother with hbefore | rfl
  · exact hstate.nodes other hbefore
  · exact hspan

theorem report (hstate : state.Ranged good) (kind : DiagnosticKind) {place : Span} (hplace : good place)
    (detail : String) :
    RangedAt good source source' (report (.about kind place detail))
      (report (.about kind place detail)) state := by
  refine ⟨fun _ h => h, ⟨hstate.nodes, ?_⟩, fun _ => rfl⟩
  show ∀ other ∈ (state.reporter.report (.about kind place detail)).diagnostics, _
  unfold Reporter.report
  split
  · split <;> exact hstate.said
  · intro other hother
    rcases Array.mem_push.mp hother with hbefore | rfl
    · exact hstate.said other hbefore
    · exact List.forall_mem_singleton.mpr hplace

theorem leaf (hstate : state.Ranged good) {kind : NodeKind} {type : TypeId} {span : Span}
    (hspan : good span) : RangedAt good source source' (leaf kind type span) (leaf kind type span) state :=
  addNode hstate hspan

theorem errorNode (hstate : state.Ranged good) {span : Span} (hspan : good span) :
    RangedAt good source source' (errorNode span) (errorNode span) state :=
  addNode hstate hspan

theorem reported (hstate : state.Ranged good) (kind : DiagnosticKind) {place span : Span}
    (hplace : good place) (hspan : good span) (detail : String) :
    RangedAt good source source' (do Lower.report (.about kind place detail); Lower.errorNode span)
      (do Lower.report (.about kind place detail); Lower.errorNode span) state :=
  (report hstate kind hplace detail).bind fun _ _ hlater => errorNode hlater hspan

-- A message may quote the source where a node stands.
theorem quoted (hstate : state.Ranged good) (kind : DiagnosticKind) {span : Span} (hspan : good span)
    {node : Node} (hnode : node ∈ state.program.arena.nodes) (detail : String → String) :
    RangedAt good source source'
      (do Lower.report (.about kind span (detail (quote source node.span))); Lower.errorNode span)
      (do Lower.report (.about kind span (detail (quote source' node.span))); Lower.errorNode span)
      state := by
  have hreported : RangedAt good source source' _ _ state :=
    reported hstate kind hspan hspan (detail (quote source node.span))
  refine ⟨hreported.grows, hreported.ranged, fun hquotes => ?_⟩
  rw [hquotes node (hreported.grows node hnode)]

theorem unlessError (hstate : state.Ranged good) {span : Span} (hspan : good span)
    {operands : List NodeId} {build build' : Lower NodeId}
    (hbuild : Right state.program operands → RangedAt good source source' build build' state) :
    RangedAt good source source' (unlessError span operands build) (unlessError span operands build')
      state := by
  by_cases hwrong : operands.any (state.program.arena.kind · == .Error) = true
  · have hsame : ∀ build, Lower.unlessError span operands build state = Lower.errorNode span state :=
      fun build => by rw [unlessError_apply, if_pos hwrong]
    exact (errorNode hstate hspan).congr (hsame build) (hsame build')
  · have hsame : ∀ build, Lower.unlessError span operands build state = build state :=
      fun build => by rw [unlessError_apply, if_neg hwrong]
    exact (hbuild fun id hid hkind => hwrong
      (List.any_eq_true.mpr ⟨id, hid, beq_of_eq hkind⟩)).congr (hsame build) (hsame build')

theorem rejectOperand (hstate : state.Ranged good) (kind : DiagnosticKind) {operand : NodeId}
    (hright : state.program.arena.kind operand ≠ .Error) :
    RangedAt good source source' (rejectOperand source kind operand)
      (rejectOperand source' kind operand) state := by
  obtain ⟨node, hnode, hoperand⟩ := Arena.exists_node hright
  refine read ?_
  rw [hoperand]
  exact quoted hstate kind (hstate.nodes node hnode) hnode id

-- A step that neither adds a node nor says anything.
theorem still (hstate : state.Ranged good) {body : Lower α}
    (harena : (body state).2.program.arena = state.program.arena)
    (hsaid : (body state).2.reporter.diagnostics = state.reporter.diagnostics) :
    RangedAt good source source' body body state :=
  ⟨fun _ h => harena ▸ h, ⟨harena ▸ hstate.nodes, hsaid ▸ hstate.said⟩, fun _ => rfl⟩

section Makers

variable (hstate : state.Ranged good) {span : Span} (hspan : good span)

include hstate hspan

theorem internType_leaf (shape : Shape) (kind : NodeKind) :
    RangedAt good source source' (internType shape >>= fun type => Lower.leaf kind type span)
      (internType shape >>= fun type => Lower.leaf kind type span) state :=
  (still hstate rfl rfl).bind fun _ _ hlater => leaf hlater hspan

theorem nameNode (name : String) :
    RangedAt good source source' (nameNode name span) (nameNode name span) state := by
  refine read ?_
  split
  · exact read (leaf hstate hspan)
  · exact read (leaf hstate hspan)
  · exact addNode hstate hspan
  · exact reported hstate .NotAValue hspan hspan name
  · exact reported hstate .UndefinedIdentifier hspan hspan name

theorem newNode {name : Name} (hname : good name.span) :
    RangedAt good source source' (newNode name span) (newNode name span) state := by
  refine read (read ?_)
  split
  · split
    · exact leaf hstate hspan
    · exact reported hstate .NotAClass hname hspan name.text
  · exact reported hstate .NotAClass hname hspan name.text

theorem newAnonymousNode :
    RangedAt good source source' (newAnonymousNode span) (newAnonymousNode span) state :=
  (still hstate rfl rfl).bind fun _ _ hlater => internType_leaf hlater hspan _ _

theorem connectiveNode (op : Connective) (left right : NodeId) :
    RangedAt good source source' (connectiveNode source op span left right)
      (connectiveNode source' op span left right) state := by
  refine unlessError hstate hspan fun hright => ?_
  cases op with
  | Value op => exact read (read (read (leaf hstate hspan)))
  | AndAnd => exact leaf hstate hspan
  | OrOr => exact leaf hstate hspan
  | In =>
      refine read (read ?_)
      split
      · exact internType_leaf hstate hspan _ _
      · exact rejectOperand hstate .NotAssociative (hright right (by simp))

theorem assignNode (op : Option AssignOp) (target value : NodeId) :
    RangedAt good source source' (assignNode op span target value) (assignNode op span target value)
      state :=
  unlessError hstate hspan fun _ => read (addNode hstate hspan)

theorem conditionalNode (condition yes no : NodeId) :
    RangedAt good source source' (conditionalNode span condition yes no)
      (conditionalNode span condition yes no) state := by
  refine unlessError hstate hspan fun _ => read ?_
  split
  · exact read (addNode hstate hspan)
  · exact addNode hstate hspan

theorem commaNode (first second : NodeId) :
    RangedAt good source source' (commaNode span first second) (commaNode span first second) state :=
  unlessError hstate hspan fun _ => read (addNode hstate hspan)

theorem leadingNode (op : LeadingOp) (operand : NodeId) :
    RangedAt good source source' (leadingNode source op span operand)
      (leadingNode source' op span operand) state := by
  refine unlessError hstate hspan fun hright => typeOf operand ?_
  cases op with
  | Value op => cases op <;> exact addNode hstate hspan
  | Deref =>
      refine read ?_
      split
      · exact leaf hstate hspan
      · exact rejectOperand hstate .CannotDereference (hright operand (by simp))
  | AddressOf =>
      cases state.program.arena.type? operand with
      | some target => exact internType_leaf hstate hspan _ _
      | none => exact rejectOperand hstate .NotAValue (hright operand (by simp))
  | Delete => exact leaf hstate hspan
  | Step op => exact addNode hstate hspan

theorem stepNode (op : StepOp) (operand : NodeId) :
    RangedAt good source source' (stepNode op span operand) (stepNode op span operand) state :=
  unlessError hstate hspan fun _ => read (addNode hstate hspan)

theorem castNode (type : TypeId) (operand : NodeId) :
    RangedAt good source source' (castNode type span operand) (castNode type span operand) state := by
  unfold Lower.castNode
  split
  · exact errorNode hstate hspan
  · exact unlessError hstate hspan fun _ => leaf hstate hspan

theorem callNode (callee : NodeId) (arguments : List NodeId) :
    RangedAt good source source' (callNode source span callee arguments)
      (callNode source' span callee arguments) state := by
  refine unlessError hstate hspan fun hright => read (read ?_)
  have hcallee := hright callee (by simp)
  split
  · exact rejectOperand hstate .NotCallable hcallee
  · next function _ =>
      obtain ⟨node, hnode, hfound⟩ := Arena.exists_node hcallee
      refine read ?_
      dsimp only
      rw [hfound]
      split
      · exact leaf hstate hspan
      · exact quoted hstate .WrongArgumentCount hspan hnode
          (countMismatch · function.signature.parameters.length arguments.length)

theorem indexNode (base index : NodeId) :
    RangedAt good source source' (indexNode source span base index)
      (indexNode source' span base index) state := by
  refine unlessError hstate hspan fun hright => read (read ?_)
  split
  · exact leaf hstate hspan
  · exact rejectOperand hstate .NotIndexable (hright base (by simp))

theorem removeNode (container key : NodeId) :
    RangedAt good source source' (removeNode source span container key)
      (removeNode source' span container key) state := by
  refine unlessError hstate hspan fun hright => read (read ?_)
  split
  · exact leaf hstate hspan
  · exact rejectOperand hstate .NotAssociative (hright container (by simp))

theorem tupleNode (elements : List NodeId) :
    RangedAt good source source' (tupleNode span elements) (tupleNode span elements) state := by
  refine unlessError hstate hspan fun _ => ?_
  exact (internType_leaf hstate hspan (.Tuple (elements.map fun id =>
    (state.program.arena.type? id).getD .error)) (.Tuple elements)).congr
    (by rw [bind_apply, typesOf_apply]) (by rw [bind_apply, typesOf_apply])

theorem assertNode (isFalse : Bool) (condition : NodeId) (message : Option NodeId) :
    RangedAt good source source' (assertNode isFalse span condition message)
      (assertNode isFalse span condition message) state := by
  refine unlessError hstate hspan fun _ => ?_
  cases isFalse <;> exact leaf hstate hspan

-- The first value of a variable stands behind its name, with a range that holds both.
theorem declareNode (hcover : ∀ left right, good left → good right → good (left.cover right))
    (id : VariableId) {name : Name} (hname : good name.span) (value : Option NodeId) :
    RangedAt good source source' (declareNode id name span value) (declareNode id name span value)
      state := by
  refine read ?_
  cases value with
  | none => exact leaf hstate hspan
  | some value =>
      refine unlessError hstate hspan fun hright => (leaf hstate hname).andThen fun hlater => read ?_
      have hvalue := hright value List.mem_cons_self
      obtain ⟨node, hnode, hfound⟩ := Arena.exists_node hvalue
      have hsame : (Lower.leaf (.Variable id) (state.program.variableType id) name.span
          state).2.program.arena.node value = node :=
        ((Program.Extends.addNode _).node_eq_of_kind hvalue).trans hfound
      rw [hsame]
      have hwhole : good (name.span.cover node.span) := hcover _ _ hname (hstate.nodes node hnode)
      exact (leaf hlater hwhole).bind fun _ _ hconstruct => leaf hconstruct hspan

end Makers

end RangedAt

namespace Ranges

variable {α β : Type}

theorem pure (answer : α) :
    Ranges good source source' (Pure.pure answer) (Pure.pure answer) :=
  fun _ hstate => .pure hstate answer

theorem bind {first first' : Lower α} {next next' : α → Lower β}
    (hfirst : Ranges good source source' first first')
    (hnext : ∀ answer, Ranges good source source' (next answer) (next' answer)) :
    Ranges good source source' (first >>= next) (first' >>= next') :=
  fun state hstate => (hfirst state hstate).bind hnext

theorem inScope {body body' : Lower α} (hbody : Ranges good source source' body body') :
    Ranges good source source' (inScope body) (inScope body') :=
  bind (fun _ hstate => .still hstate rfl rfl) fun _ => hbody.bind fun _ =>
    bind (fun _ hstate => .still hstate rfl rfl) fun _ => pure _

theorem internType (shape : Shape) :
    Ranges good source source' (internType shape) (internType shape) :=
  fun _ hstate => .still hstate rfl rfl

theorem symbol (name : String) : Ranges good source source' (symbol name) (symbol name) :=
  fun _ hstate => .still hstate rfl rfl

theorem wrapType (inner : TypeId) (wrap : TypeId → Shape) :
    Ranges good source source' (wrapType inner wrap) (wrapType inner wrap) := by
  unfold Lower.wrapType
  split
  · exact pure _
  · exact internType _

theorem parameterTypes {parameters : List (Parameter TypeTree)}
    (htypes : ∀ parameter ∈ parameters,
      Ranges good source source' (type parameter.type) (type parameter.type)) :
    Ranges good source source' (parameterTypes parameters) (parameterTypes parameters) := by
  induction parameters with
  | nil =>
      rw [Lower.parameterTypes]
      exact pure _
  | cons first rest ih =>
      rw [Lower.parameterTypes]
      have hrest := ih fun parameter hmem => htypes parameter (List.mem_cons_of_mem _ hmem)
      exact (htypes first List.mem_cons_self).bind fun _ => hrest.bind fun _ => pure _

theorem type {written : TypeTree} (h : (Phrase.Type written).Ranged good) :
    Ranges good source source' (type written) (type written) := by
  induction written with
  | Basic | Error =>
      rw [Lower.type]
      exact pure _
  | Named span name =>
      have hname : good name.span := (h.inner List.mem_cons_self).here rfl
      rw [Lower.type]
      refine fun state hstate => .read ?_
      split
      · exact .pure hstate _
      · exact (RangedAt.report hstate .UnknownType hname name.text).bind fun _ => pure _
  | Pointer span part ih | Array span part ih =>
      rw [Lower.type]
      exact (ih (h.inner List.mem_cons_self)).bind fun _ => wrapType _ _
  | AssocArray span value key ihValue ihKey =>
      rw [Lower.type]
      refine (ihValue (h.inner List.mem_cons_self)).bind fun value =>
        (ihKey (h.inner (List.mem_cons_of_mem _ List.mem_cons_self))).bind fun key => ?_
      split
      · exact pure _
      · exact internType _
  | Callable span isDelegate promises result parameters ihResult ihParameters =>
      rw [Lower.type]
      refine (ihResult (h.inner List.mem_cons_self)).bind fun _ => (parameterTypes
        fun parameter hmem => ihParameters parameter hmem ?_).bind fun _ =>
        (internType _).bind fun _ => internType _
      exact (h.inner (List.mem_cons_of_mem _ (List.mem_map_of_mem hmem))).inner List.mem_cons_self

theorem define {name : Name} (hname : good name.span) (binding : Binding) :
    Ranges good source source' (define name binding) (define name binding) := by
  refine (symbol name.text).bind fun _ state hstate => .read ?_
  split
  · exact .report hstate .DuplicateDefinition hname name.text
  · exact .still hstate rfl rfl

theorem declareVariable {name : Name} (hname : good name.span) (type : TypeId) (isGlobal : Bool) :
    Ranges good source source' (declareVariable name type isGlobal)
      (declareVariable name type isGlobal) :=
  (symbol _).bind fun _ => bind (fun _ hstate => .still hstate rfl rfl) fun _ =>
    (define hname _).bind fun _ => pure _

-- What is said under a gag is not kept.
theorem accepts {body body' : Lower NodeId} (hbody : Ranges good source source' body body') :
    Ranges good source source' (accepts body) (accepts body') :=
  bind (fun _ hstate => .still hstate rfl rfl) fun _ => (inScope hbody).bind fun _ =>
    bind (fun _ hstate => .still hstate rfl rfl) fun _ _ hstate => .read (.pure hstate _)

theorem prepare {whole : Expr} (h : (Phrase.Expr whole).Ranged good) :
    Ranges good source source' (prepare whole) (prepare whole) := by
  cases whole with
  | Cast span written operand => exact type (h.inner List.mem_cons_self)
  | _ => exact pure _

theorem make (hcover : ∀ left right, good left → good right → good (left.cover right)) {whole : Expr}
    (h : (Phrase.Expr whole).Ranged good) (target : TypeId) (ids : List NodeId) :
    Ranges good source source' (make source whole target ids) (make source' whole target ids) := by
  intro state hstate
  have hspan : good whole.span := h.here rfl
  unfold Lower.make
  split
  · exact .nameNode hstate hspan _
  · exact .leaf hstate hspan
  · exact .leaf hstate hspan
  · exact .leaf hstate hspan
  · exact .leaf hstate hspan
  · exact .pure hstate _
  · exact .connectiveNode hstate hspan _ _ _
  · exact .assignNode hstate hspan _ _ _
  · exact .conditionalNode hstate hspan _ _ _
  · exact .commaNode hstate hspan _ _
  · exact .leadingNode hstate hspan _ _
  · exact .stepNode hstate hspan _ _
  · exact .castNode hstate hspan _ _
  · exact .newNode hstate hspan ((h.inner List.mem_cons_self).here rfl)
  · exact .newAnonymousNode hstate hspan
  · exact .callNode hstate hspan _ _
  · exact .indexNode hstate hspan _ _
  · exact .removeNode hstate hspan _ _
  · exact .tupleNode hstate hspan _
  · exact .assertNode hstate hspan _ _ _
  · next name _ value =>
      have hname : good name.span := (h.inner List.mem_cons_self).here rfl
      refine .typeOf value ((declareVariable hname _ false).bind (fun id _ hdeclared => ?_) state hstate)
      exact .declareNode hdeclared hspan hcover id hname (some value)
  · exact .errorNode hstate hspan

theorem mapM {parts : List Expr}
    (hparts : ∀ part ∈ parts, Ranges good source source' (expr source part) (expr source' part)) :
    Ranges good source source' (parts.mapM (expr source)) (parts.mapM (expr source')) := by
  induction parts with
  | nil => exact pure _
  | cons first rest ih =>
      rw [List.mapM_cons, List.mapM_cons]
      have hrest := ih fun part hmem => hparts part (List.mem_cons_of_mem _ hmem)
      exact (hparts first List.mem_cons_self).bind fun _ => hrest.bind fun _ => pure _

end Ranges

end Lower

theorem Expr.part_inner {part whole : Expr} (h : part ∈ whole.parts) :
    .Expr part ∈ (Phrase.Expr whole).inner := by
  cases whole with
  | Cast | Declare =>
      obtain rfl := List.mem_singleton.mp h
      exact List.mem_cons_of_mem _ List.mem_cons_self
  | New => cases h
  | _ => exact List.mem_map_of_mem h

namespace Lower.Ranges

variable {good : Span → Prop} {source source' : List Char}
  (hcover : ∀ left right, good left → good right → good (left.cover right))

include hcover

theorem expr {whole : Expr} (h : (Phrase.Expr whole).Ranged good) :
    Ranges good source source' (expr source whole) (expr source' whole) := by
  induction whole using Expr.induction with
  | step whole ih =>
      have hpart : ∀ part ∈ whole.parts,
          Ranges good source source' (Lower.expr source part) (Lower.expr source' part) :=
        fun part hmem => ih part hmem (h.inner (Expr.part_inner hmem))
      cases hquestion : whole.isQuestion with
      | false =>
          rw [expr_eq_parts source hquestion, expr_eq_parts source' hquestion]
          exact (prepare h).bind fun _ => (mapM hpart).bind fun _ => make hcover h _ _
      | true =>
          cases whole with
          | Compiles span operand =>
              rw [expr_eq, expr_eq]
              exact (accepts (hpart operand (by simp [Expr.parts]))).bind fun _ _ hstate =>
                .leaf hstate (h.here rfl)
          | _ => cases hquestion

end Lower.Ranges

end EffectLint
