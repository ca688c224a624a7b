import EffectLint.Proofs.Lowering.Parts
import EffectLint.Proofs.Lowering.Told

/-!
What the makers of nodes say. A node with a wrong operand is wrong without a word, so the mistake that
made the operand wrong is the only one that is reported. Else there is at most one complaint.
-/

namespace EffectLint

namespace Diagnostic

-- What is said of a type or of a name that is defined. It does not make an expression wrong.
def Mild (diagnostic : Diagnostic) : Prop :=
  diagnostic.kind = .DuplicateDefinition ∨ diagnostic.kind = .UnknownType

end Diagnostic

theorem Lower.Redefines.mild {name : Name} {told : List Diagnostic} (h : Redefines name told) :
    ∀ diagnostic ∈ told, diagnostic.Mild :=
  fun diagnostic hmem => .inl (h.kind diagnostic hmem)

namespace Lower

-- A node that is made of operands, and what is said of it. Where the operands are right, it stands for
-- the whole, or it is wrong and that is said, at one of the places.
inductive Verdict (fine : Prop) (span : Span) (places : List Span) :
    Node → List Diagnostic → Prop where
  | Wrong {node} : node.kind = .Error → Verdict fine span places node []
  | Whole {node} : fine → node.span = span → Verdict fine span places node []
  | Rejected {node diagnostic} : fine → node.kind = .Error → ¬diagnostic.Mild →
      diagnostic.span ∈ places → Verdict fine span places node [diagnostic]

def Judged (fine : Prop) (span : Span) (places : List Span) (made : Program) (id : NodeId)
    (told : List Diagnostic) : Prop :=
  ∃ node, made.arena.node? id = some node ∧ Verdict fine span places node told

def JudgesAt (fine : Prop) (span : Span) (places : List Span) (body : Lower NodeId)
    (program : Program) (scopes : Scopes) : Prop :=
  SaysAt body (Judged fine span places) program scopes

namespace JudgesAt

variable {fine : Prop} {span : Span} {places : List Span} {program : Program} {scopes : Scopes}

theorem adds {node : Node} (hverdict : Verdict fine span places node []) :
    JudgesAt fine span places (addNode node) program scopes := by
  refine ⟨⟨program.arena.size⟩, program.addNode node, scopes, [], 0, program.addNode_extends node,
    ⟨node, Array.getElem?_push_size, hverdict⟩, fun reporter => ?_⟩
  rw [Reporter.after_nil]
  rfl

theorem node (hfine : fine) {kind : NodeKind} {type : Option TypeId} :
    JudgesAt fine span places (addNode ⟨kind, type, span⟩) program scopes :=
  adds (.Whole hfine rfl)

theorem leaf (hfine : fine) {kind : NodeKind} {type : TypeId} :
    JudgesAt fine span places (leaf kind type span) program scopes :=
  node hfine

theorem reported (hfine : fine) {kind : DiagnosticKind}
    (hloud : kind ≠ .DuplicateDefinition ∧ kind ≠ .UnknownType) {place wrong : Span} {detail : String}
    (hplace : place ∈ places) :
    JudgesAt fine span places (do report (.about kind place detail); errorNode wrong) program
      scopes := by
  refine ⟨⟨program.arena.size⟩, program.addNode ⟨.Error, some .error, wrong⟩, scopes,
    [.about kind place detail], 0, program.addNode_extends _,
    ⟨_, Array.getElem?_push_size, .Rejected hfine rfl (not_or.mpr hloud) hplace⟩, fun reporter => ?_⟩
  rw [← Reporter.report_eq_after]
  rfl

-- A look at what is known changes nothing.
theorem typeOf (id : NodeId) {next : Option TypeId → Lower NodeId}
    (h : JudgesAt fine span places (next (program.arena.type? id)) program scopes) :
    JudgesAt fine span places (typeOf id >>= next) program scopes :=
  h

theorem nodeOf (id : NodeId) {next : Node → Lower NodeId}
    (h : JudgesAt fine span places (next (program.arena.node id)) program scopes) :
    JudgesAt fine span places (Lower.node id >>= next) program scopes :=
  h

theorem types {next : TypeTable → Lower NodeId}
    (h : JudgesAt fine span places (next program.types) program scopes) :
    JudgesAt fine span places (types >>= next) program scopes :=
  h

theorem lookup (name : String) {next : Option Binding → Lower NodeId}
    (h : JudgesAt fine span places (next (program.binding? scopes name)) program scopes) :
    JudgesAt fine span places (lookup name >>= next) program scopes :=
  h

theorem mute {α : Type} {first : Lower α} {next : α → Lower NodeId} (hfirst : Mute first)
    (h : ∀ answer made around, JudgesAt fine span places (next answer) made around) :
    JudgesAt fine span places (first >>= next) program scopes :=
  hfirst.bind fun answer made around _ => h answer made around

theorem rejectOperand (hfine : fine) (source : List Char) {kind : DiagnosticKind}
    (hloud : kind ≠ .DuplicateDefinition ∧ kind ≠ .UnknownType) {operand : NodeId}
    (hplace : (program.arena.node operand).span ∈ places) :
    JudgesAt fine span places (rejectOperand source kind operand) program scopes :=
  nodeOf operand (reported hfine hloud hplace)

end JudgesAt

section

variable {program : Program} {scopes : Scopes}

theorem unlessError_judges {span : Span} {places : List Span} {operands : List NodeId}
    {build : Lower NodeId}
    (h : Right program operands →
      JudgesAt (Right program operands) span places build program scopes) :
    JudgesAt (Right program operands) span places (unlessError span operands build) program
      scopes := by
  cases hwrong : operands.any (program.arena.kind · == .Error) with
  | true =>
      have herror : JudgesAt (Right program operands) span places (errorNode span) program scopes :=
        .adds (.Wrong rfl)
      obtain ⟨id, made, around, told, hidden, hgrows, hjudged, hrun⟩ := herror
      refine ⟨id, made, around, told, hidden, hgrows, hjudged, fun reporter => ?_⟩
      rw [unlessError_apply, hwrong]
      exact hrun reporter
  | false =>
      have hright : Right program operands := fun id hmem => by
        simpa using List.any_eq_false.mp hwrong id hmem
      obtain ⟨id, made, around, told, hidden, hgrows, hjudged, hrun⟩ := h hright
      refine ⟨id, made, around, told, hidden, hgrows, hjudged, fun reporter => ?_⟩
      rw [unlessError_apply, hwrong]
      exact hrun reporter

theorem typesOf_mute (elements : List NodeId) : Mute (typesOf elements) :=
  .of_step (fun program => (elements.map fun id => (program.arena.type? id).getD .error, program))
    (fun _ => .refl _) fun program scopes reporter => typesOf_apply elements ⟨program, scopes, reporter⟩

-- Where a complaint about an expression may stand: where it stands itself, or one of its operands.
def complaints (program : Program) (span : Span) (operands : List NodeId) : List Span :=
  span :: operands.map fun id => (program.arena.node id).span

theorem operand_mem_complaints {program : Program} {span : Span} {operands : List NodeId} {id : NodeId}
    (hmem : id ∈ operands) : (program.arena.node id).span ∈ complaints program span operands :=
  List.mem_cons_of_mem _ (List.mem_map_of_mem hmem)

variable (source : List Char) (span : Span)

-- The verdict on a node with such operands.
abbrev JudgesOperands (operands : List NodeId) (body : Lower NodeId) (program : Program)
    (scopes : Scopes) : Prop :=
  JudgesAt (Right program operands) span (complaints program span operands) body program scopes

theorem nameNode_judges (name : String) :
    JudgesOperands span [] (nameNode name span) program scopes := by
  have hfine : Right program [] := nofun
  have hplace : span ∈ complaints program span [] := List.mem_cons_self
  refine .lookup name ?_
  cases program.binding? scopes name with
  | none => exact .reported hfine (by decide) hplace
  | some binding =>
      cases binding with
      | Variable id =>
          have hleaf : JudgesOperands span []
              (leaf (.Variable id) (program.variableType id) span) program scopes := .leaf hfine
          exact hleaf
      | Function id =>
          have hleaf : JudgesOperands span []
              (leaf (.Function id) (program.functionType id) span) program scopes := .leaf hfine
          exact hleaf
      | Module id => exact .node hfine
      | «Type» id =>
          exact .reported hfine (by decide) hplace

theorem newNode_judges (name : Name) :
    JudgesAt (Right program []) span [name.span] (newNode name span) program scopes := by
  have hfine : Right program [] := nofun
  refine .types (.lookup name.text ?_)
  split
  · split
    · exact .leaf hfine
    · exact .reported hfine (by decide) List.mem_cons_self
  · exact .reported hfine (by decide) List.mem_cons_self

theorem newAnonymousNode_judges :
    JudgesOperands span [] (newAnonymousNode span) program scopes := by
  exact .mute (symbol_mute _) fun name _ _ => .mute (internType_mute _) fun type _ _ => .leaf nofun

theorem connectiveNode_judges (op : Connective) (left right : NodeId) :
    JudgesOperands span [left, right] (connectiveNode source op span left right) program scopes := by
  refine unlessError_judges fun hfine => ?_
  cases op with
  | Value op => exact .types (.typeOf left (.typeOf right (.leaf hfine)))
  | AndAnd => exact .leaf hfine
  | OrOr => exact .leaf hfine
  | In =>
      refine .typeOf right (.types ?_)
      split
      · exact .mute (internType_mute _) fun _ _ _ => .leaf hfine
      · exact .rejectOperand hfine source (by decide) (operand_mem_complaints (by simp))

theorem assignNode_judges (op : Option AssignOp) (target value : NodeId) :
    JudgesOperands span [target, value] (assignNode op span target value) program scopes :=
  unlessError_judges fun hfine => .typeOf target (.node hfine)

theorem conditionalNode_judges (condition yes no : NodeId) :
    JudgesOperands span [condition, yes, no] (conditionalNode span condition yes no) program
      scopes := by
  refine unlessError_judges fun hfine => .typeOf yes ?_
  split
  · exact .typeOf no (.node hfine)
  · exact .node hfine

theorem commaNode_judges (first second : NodeId) :
    JudgesOperands span [first, second] (commaNode span first second) program scopes :=
  unlessError_judges fun hfine => .typeOf second (.node hfine)

theorem leadingNode_judges (op : LeadingOp) (operand : NodeId) :
    JudgesOperands span [operand] (leadingNode source op span operand) program scopes := by
  refine unlessError_judges fun hfine => .typeOf operand ?_
  cases op with
  | Value op => cases op <;> exact .node hfine
  | Deref =>
      refine .types ?_
      split
      · exact .leaf hfine
      · exact .rejectOperand hfine source (by decide) (operand_mem_complaints (by simp))
  | AddressOf =>
      cases program.arena.type? operand with
      | none => exact .rejectOperand hfine source (by decide) (operand_mem_complaints (by simp))
      | some target => exact .mute (internType_mute _) fun _ _ _ => .leaf hfine
  | Delete => exact .leaf hfine
  | Step op => exact .node hfine

theorem stepNode_judges (op : StepOp) (operand : NodeId) :
    JudgesOperands span [operand] (stepNode op span operand) program scopes :=
  unlessError_judges fun hfine => .typeOf operand (.node hfine)

theorem castNode_judges (type : TypeId) (operand : NodeId) :
    JudgesOperands span [operand] (castNode type span operand) program scopes := by
  unfold castNode
  split
  · exact .adds (.Wrong rfl)
  · exact unlessError_judges fun hfine => .leaf hfine

theorem callNode_judges (callee : NodeId) (arguments : List NodeId) :
    JudgesOperands span (callee :: arguments) (callNode source span callee arguments) program
      scopes := by
  refine unlessError_judges fun hfine => .typeOf callee (.types ?_)
  split
  · exact .rejectOperand hfine source (by decide) (operand_mem_complaints List.mem_cons_self)
  · refine .nodeOf callee ?_
    simp only []
    split
    · exact .leaf hfine
    · exact .reported hfine (by decide)
        List.mem_cons_self

theorem indexNode_judges (base index : NodeId) :
    JudgesOperands span [base, index] (indexNode source span base index) program scopes := by
  refine unlessError_judges fun hfine => .typeOf base (.types ?_)
  split
  · exact .leaf hfine
  · exact .rejectOperand hfine source (by decide) (operand_mem_complaints List.mem_cons_self)

theorem removeNode_judges (container key : NodeId) :
    JudgesOperands span [container, key] (removeNode source span container key) program scopes := by
  refine unlessError_judges fun hfine => .typeOf container (.types ?_)
  split
  · exact .leaf hfine
  · exact .rejectOperand hfine source (by decide) (operand_mem_complaints List.mem_cons_self)

theorem tupleNode_judges (elements : List NodeId) :
    JudgesOperands span elements (tupleNode span elements) program scopes :=
  unlessError_judges fun hfine => .mute (typesOf_mute elements) fun _ _ _ =>
    .mute (internType_mute _) fun _ _ _ => .leaf hfine

theorem assertNode_judges (isFalse : Bool) (condition : NodeId) (message : Option NodeId) :
    JudgesOperands span (condition :: message.toList) (assertNode isFalse span condition message)
      program scopes := by
  refine unlessError_judges fun hfine => ?_
  cases isFalse <;> exact .leaf hfine

-- The variable, its construction and the declaration are three nodes. Nothing is said of them.
theorem declareNode_judges (id : VariableId) (name : Name) (value : Option NodeId) :
    JudgesAt (Right program value.toList) span [] (declareNode id name span value) program
      scopes := by
  cases value with
  | none =>
      have hleaf : JudgesAt (Right program []) span []
          (leaf (.Declare id none) (program.variableType id) span) program scopes := .leaf nofun
      exact hleaf
  | some value =>
      have hnodes : JudgesAt (Right program [value]) span [] (unlessError span [value] do
          let target ← leaf (.Variable id) (program.variableType id) name.span
          let whole := name.span.cover (← node value).span
          let construct ← leaf (.Assign .Construct target value) (program.variableType id) whole
          leaf (.Declare id (some construct)) (program.variableType id) span) program scopes :=
        unlessError_judges fun hfine => .mute (addNode_mute _) fun target _ _ =>
          .nodeOf value (.mute (addNode_mute _) fun construct _ _ => .leaf hfine)
      exact hnodes

-- Whether an expression is made into one node, with complaints where it or an operand stands.
def isCommon : Expr → Bool
  | .Paren _ _ | .New _ _ | .Declare _ _ _ => false
  | _ => true

theorem make_judges {whole : Expr} (hwhole : isCommon whole = true) (target : TypeId)
    {ids : List NodeId} (hids : ids.length = whole.parts.length) :
    JudgesOperands whole.span ids (make source whole target ids) program scopes := by
  cases whole with
  | Paren | New | Declare => cases hwhole
  | Compiles | Error => exact .adds (.Wrong rfl)
  | Identifier span name =>
      obtain rfl := List.eq_nil_of_length_eq_zero hids
      exact nameNode_judges span name
  | Integer | Text | Boolean | Null =>
      obtain rfl := List.eq_nil_of_length_eq_zero hids
      exact .leaf nofun
  | NewAnonymous span =>
      obtain rfl := List.eq_nil_of_length_eq_zero hids
      exact newAnonymousNode_judges span
  | Binary span op left right =>
      obtain ⟨left, right, rfl⟩ := List.length_eq_two.mp hids
      exact connectiveNode_judges source span op left right
  | Assign span op written value =>
      obtain ⟨written, value, rfl⟩ := List.length_eq_two.mp hids
      exact assignNode_judges span op written value
  | Conditional span condition yes no =>
      obtain ⟨condition, yes, no, rfl⟩ := List.length_eq_three.mp hids
      exact conditionalNode_judges span condition yes no
  | Comma span first second =>
      obtain ⟨first, second, rfl⟩ := List.length_eq_two.mp hids
      exact commaNode_judges span first second
  | Leading span op operand =>
      obtain ⟨operand, rfl⟩ := List.length_eq_one_iff.mp hids
      exact leadingNode_judges source span op operand
  | Step span op operand =>
      obtain ⟨operand, rfl⟩ := List.length_eq_one_iff.mp hids
      exact stepNode_judges span op operand
  | Cast span written operand =>
      obtain ⟨operand, rfl⟩ := List.length_eq_one_iff.mp hids
      exact castNode_judges span target operand
  | Call span callee arguments =>
      obtain ⟨callee, arguments, rfl⟩ := List.exists_cons_of_length_eq_add_one hids
      exact callNode_judges source span callee arguments
  | Index span base index =>
      obtain ⟨base, index, rfl⟩ := List.length_eq_two.mp hids
      exact indexNode_judges source span base index
  | Remove span container key =>
      obtain ⟨container, key, rfl⟩ := List.length_eq_two.mp hids
      exact removeNode_judges source span container key
  | Tuple span elements => exact tupleNode_judges span ids
  | Assert span condition message =>
      obtain ⟨lowered, rest, rfl⟩ := List.exists_cons_of_length_eq_add_one hids
      have hrest : rest.head?.toList = rest := toList_head? (by simpa [Expr.parts] using hids)
      have hjudges : JudgesOperands span (lowered :: rest.head?.toList)
          (assertNode condition.isFalseLiteral span lowered rest.head?) program scopes :=
        assertNode_judges span _ lowered rest.head?
      rwa [hrest] at hjudges

end

end Lower

end EffectLint
