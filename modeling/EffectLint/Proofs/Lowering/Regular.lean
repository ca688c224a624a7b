import EffectLint.Proofs.Lowering.Joined
import EffectLint.Proofs.Lowering.Points
import EffectLint.Proofs.Lowering.Told
import EffectLint.Proofs.Program.Rules

/-!
Every node that lowering an expression adds follows its typing rule, and a complaint about what an
operand is not is true of an operand that is no error. Both are settled when the node is made, and
whatever is added later leaves them as they are. Each maker looks at the types of its operands and
makes the node, or says of one of them what it is not.
-/

namespace EffectLint

-- What a complaint about an operand says that the operand is not, as a look at its type.
def DiagnosticKind.demand? : DiagnosticKind → Option (TypeTable → TypeId → Bool)
  | .NotCallable => some fun table type => (table.called? type).isSome
  | .CannotDereference => some fun table type => (Lower.pointerTarget? table type).isSome
  | .NotIndexable => some fun table type => (Lower.element? table type).isSome
  | .NotAssociative => some fun table type => (Lower.mapValue? table type).isSome
  | _ => none

theorem DiagnosticKind.demand?_eq {kind : DiagnosticKind} {demand : TypeTable → TypeId → Bool}
    (hdemand : kind.demand? = some demand) {small large : TypeTable} (hclosed : small.Closed)
    (hgrows : small.shapes.Keeps large.shapes) {type : TypeId} (hknown : small.Known type) :
    demand large type = demand small type := by
  have hshape := hclosed.resolvedShape_eq hgrows hknown
  unfold demand? at hdemand
  split at hdemand
  · obtain rfl := Option.some.inj hdemand
    simp only [hclosed.called?_eq hgrows hknown]
  · obtain rfl := Option.some.inj hdemand
    simp only [Lower.pointerTarget?, hshape]
  · obtain rfl := Option.some.inj hdemand
    simp only [Lower.element?, hshape]
  · obtain rfl := Option.some.inj hdemand
    simp only [Lower.mapValue?, hshape]
  · cases hdemand

namespace Program

-- The diagnostic complains about a node of the program, and rightly so.
def Blames (program : Program) (source : List Char) (subject : NodeId) (diagnostic : Diagnostic) :
    Prop :=
  program.arena.kind subject ≠ .Error ∧
    diagnostic = .about diagnostic.kind (program.arena.node subject).span
      (Lower.quote source (program.arena.node subject).span) ∧
    ∀ demand, diagnostic.kind.demand? = some demand →
      ∀ type ∈ program.arena.type? subject, demand program.types type = false

-- A complaint about an operand has one that it is true of.
def Founded (program : Program) (source : List Char) (diagnostic : Diagnostic) : Prop :=
  diagnostic.kind.demand? ≠ none → ∃ subject, program.Blames source subject diagnostic

theorem founded_of_demand? {program : Program} {source : List Char} {diagnostic : Diagnostic}
    (h : diagnostic.kind.demand? = none) : program.Founded source diagnostic :=
  fun hne => absurd h hne

theorem Blames.extends {large small : Program} {scopes : Scopes} (hextends : large.Extends small)
    (hsound : small.Sound scopes) {source : List Char} {subject : NodeId} {diagnostic : Diagnostic}
    (h : small.Blames source subject diagnostic) : large.Blames source subject diagnostic := by
  obtain ⟨hkind, habout, hlacks⟩ := h
  have hnode := hextends.node_eq_of_kind hkind
  refine ⟨by rwa [Arena.kind, hnode], by rwa [hnode], fun demand hdemand type htype => ?_⟩
  rw [Arena.type?, hnode] at htype
  rw [DiagnosticKind.demand?_eq hdemand hsound.closed hextends.types (hsound.type?_known htype)]
  exact hlacks demand hdemand type htype

end Program

-- Between the two states only nodes that fit are added and only founded complaints are made. This
-- is said of every later program, so steps of lowering can be put one behind the other.
structure LoweringState.Regular (source : List Char) (earlier later : LoweringState) : Prop where
  grows : later.program.Extends earlier.program
  nodes : ∀ program : Program, program.Extends later.program →
    ∀ node ∈ later.program.arena.nodes, node ∈ earlier.program.arena.nodes ∨ program.Fits node
  told : ∃ told, later.reporter.diagnostics = earlier.reporter.diagnostics ++ told ∧
    ∀ program : Program, program.Extends later.program → ∀ diagnostic ∈ told,
      program.Founded source diagnostic

theorem LoweringState.Regular.trans {source : List Char} {first second third : LoweringState}
    (h : first.Regular source second) (h' : second.Regular source third) :
    first.Regular source third where
  grows := h.grows.trans h'.grows
  nodes := by
    intro program hextends node hnode
    rcases h'.nodes program hextends node hnode with hsecond | hfits
    · exact h.nodes program (h'.grows.trans hextends) node hsecond
    · exact .inr hfits
  told := by
    obtain ⟨told, hreports, hfounded⟩ := h.told
    obtain ⟨told', hreports', hfounded'⟩ := h'.told
    refine ⟨told ++ told', by rw [hreports', hreports, Array.append_assoc], ?_⟩
    intro program hextends diagnostic hmem
    rcases Array.mem_append.mp hmem with hmem | hmem
    · exact hfounded program (h'.grows.trans hextends) diagnostic hmem
    · exact hfounded' program hextends diagnostic hmem

namespace Lower

variable {source : List Char} {state : LoweringState}

def RegularAt {α : Type} (source : List Char) (body : Lower α) (state : LoweringState) : Prop :=
  state.Regular source (body state).2

namespace RegularAt

section

variable {α β : Type}

-- What is neither a node nor a report does not matter.
theorem of_same {body : Lower α} (hgrows : (body state).2.program.Extends state.program)
    (harena : (body state).2.program.arena = state.program.arena)
    (hreports : (body state).2.reporter.diagnostics = state.reporter.diagnostics) :
    RegularAt source body state where
  grows := hgrows
  nodes _ _ _ hnode := .inl (harena ▸ hnode)
  told := ⟨#[], by rw [hreports, Array.append_empty], nofun⟩

theorem pure {answer : α} : RegularAt source (Pure.pure answer) state :=
  of_same (.refl _) rfl rfl

theorem bind {first : Lower α} {next : α → Lower β} (hfirst : RegularAt source first state)
    (hnext : RegularAt source (next (first state).1) (first state).2) :
    RegularAt source (first >>= next) state :=
  LoweringState.Regular.trans hfirst hnext

-- Behind a computation that keeps the program sound.
theorem andThen {first : Lower α} {next : α → Lower β} {good : Program → α → Prop}
    (hfirst : RegularAt source first state) (hruns : RunsAt first good state)
    (hnext : ∀ answer state', state'.Sound → good state'.program answer →
      RegularAt source (next answer) state') : RegularAt source (first >>= next) state :=
  hfirst.bind (hnext _ _ hruns.sound hruns.answer)

-- A look at the state changes nothing.
theorem read {look : LoweringState → α} {next : α → Lower β}
    (hnext : RegularAt source (next (look state)) state) :
    RegularAt source ((fun state => (look state, state) : Lower α) >>= next) state :=
  hnext

theorem inScope {body : Lower α} (hbody : RegularAt source body (pushScope state).2) :
    RegularAt source (inScope body) state :=
  ⟨hbody.grows, hbody.nodes, hbody.told⟩

-- What is said that is no complaint about an operand.
theorem of_told {body : Lower α} (hnodeless : Nodeless body)
    (htells : Says body fun _ _ told => ∀ diagnostic ∈ told, diagnostic.kind.demand? = none) :
    RegularAt source body state := by
  obtain ⟨program, scopes, reporter⟩ := state
  obtain ⟨answer, made, around, told, hidden, hgrows, htold, hrun⟩ := htells program scopes
  have harena := hnodeless ⟨program, scopes, reporter⟩
  have hstate : (body ⟨program, scopes, reporter⟩).2 = ⟨made, around, reporter.after told hidden⟩ := by
    rw [hrun]
  rw [hstate] at harena
  rw [RegularAt, hstate]
  refine ⟨hgrows, fun _ _ node hnode => .inl (harena ▸ hnode), ?_⟩
  unfold Reporter.after
  split
  · exact ⟨#[], Array.append_empty.symm, nofun⟩
  · refine ⟨told.toArray, rfl, fun later _ diagnostic hmem => ?_⟩
    exact Program.founded_of_demand? (htold diagnostic (List.mem_toArray.mp hmem))

end

theorem symbol (name : String) : RegularAt source (symbol name) state :=
  of_same (.insertName name) rfl rfl

theorem internType (shape : Shape) : RegularAt source (internType shape) state :=
  of_same (.insertType shape) rfl rfl

theorem type (written : TypeTree) : RegularAt source (type written) state :=
  of_told (Nodeless.type written) ((type_tells written).imp fun _ _ _ hunknown diagnostic hmem => by
    rw [hunknown.kind diagnostic hmem]
    rfl)

theorem declareVariable (name : Name) (type : TypeId) (isGlobal : Bool) :
    RegularAt source (declareVariable name type isGlobal) state :=
  of_told (Nodeless.declareVariable name type isGlobal)
    ((declareVariable_tells name type isGlobal).imp fun _ _ _ htold diagnostic hmem => by
      rw [htold.kind diagnostic hmem]
      rfl)

section Nodes

theorem addNode (hsound : state.Sound) {node : Node} (hfits : state.program.Fits node) :
    RegularAt source (addNode node) state where
  grows := .addNode node
  nodes := by
    intro program hextends other hother
    rcases Array.mem_push.mp hother with hbefore | rfl
    · exact .inl hbefore
    · exact .inr (hfits.extends (.trans (.addNode _) hextends) hsound)
  told := ⟨#[], Array.append_empty.symm, nofun⟩

theorem leaf (hsound : state.Sound) {kind : NodeKind} {type : TypeId} {span : Span}
    (hoperands : ∀ operand ∈ kind.operands, state.program.arena.kind operand ≠ .Error)
    (hrule : state.program.TypeRule kind (some type)) :
    RegularAt source (leaf kind type span) state :=
  addNode hsound ⟨hoperands, hrule⟩

theorem errorNode (hsound : state.Sound) (span : Span) :
    RegularAt source (errorNode span) state :=
  addNode hsound (Program.fits_error _ span)

theorem unlessError (hsound : state.Sound) {span : Span} {operands : List NodeId}
    {build : Lower NodeId}
    (hbuild : Right state.program operands → RegularAt source build state) :
    RegularAt source (unlessError span operands build) state := by
  rw [RegularAt, unlessError_apply]
  split
  · exact errorNode hsound span
  · next hnone =>
      refine hbuild fun id hid hkind => hnone ?_
      exact List.any_eq_true.mpr ⟨id, hid, beq_of_eq hkind⟩

theorem report {diagnostic : Diagnostic}
    (hfounded : ∀ program : Program, program.Extends state.program →
      program.Founded source diagnostic) : RegularAt source (report diagnostic) state where
  grows := .refl _
  nodes _ _ _ hnode := .inl hnode
  told := by
    have hreporter : (Lower.report diagnostic state).2.reporter =
        state.reporter.after [diagnostic] 0 := Reporter.report_eq_after _ _
    rw [hreporter]
    unfold Reporter.after
    split
    · exact ⟨#[], Array.append_empty.symm, nofun⟩
    · refine ⟨#[diagnostic], rfl, fun program hextends other hmem => ?_⟩
      obtain rfl := Array.mem_singleton.mp hmem
      exact hfounded program hextends

-- What is wrong, but not with an operand.
theorem reported (hsound : state.Sound) {diagnostic : Diagnostic}
    (hkind : diagnostic.kind.demand? = none) (span : Span) :
    RegularAt source (do Lower.report diagnostic; Lower.errorNode span) state :=
  (report fun _ _ => Program.founded_of_demand? hkind).andThen (RunsAt.report hsound diagnostic)
    fun _ _ hsound _ => errorNode hsound span

theorem rejectOperand (hsound : state.Sound) {kind : DiagnosticKind} {operand : NodeId}
    (hright : state.program.arena.kind operand ≠ .Error)
    (hlacks : ∀ demand, kind.demand? = some demand →
      ∀ type ∈ state.program.arena.type? operand, demand state.program.types type = false) :
    RegularAt source (rejectOperand source kind operand) state := by
  have hblames : state.program.Blames source operand
      (.about kind (state.program.arena.node operand).span
        (quote source (state.program.arena.node operand).span)) := ⟨hright, rfl, hlacks⟩
  refine read ?_
  exact (report fun program hextends _ => ⟨operand, hblames.extends hextends hsound⟩).andThen
    (RunsAt.report hsound _) fun _ _ hsound _ => errorNode hsound _

end Nodes

end RegularAt

end Lower

namespace Lower

variable {source : List Char} {state : LoweringState}

-- The node that was just added, in any later program.
theorem node_leaf {kind : NodeKind} {type : TypeId} {span : Span} {later : Program}
    (hlater : later.Extends (leaf kind type span state).2.program) :
    later.arena.node (leaf kind type span state).1 = ⟨kind, some type, span⟩ := by
  have hnode : (leaf kind type span state).2.program.arena.node? (leaf kind type span state).1 =
      some ⟨kind, some type, span⟩ := Array.getElem?_push_size
  exact Arena.node_of_node? (hlater.nodes _ _ hnode)

-- The look at an operand that fails has no type to look at, or one that does not meet the demand.
theorem lacks_of_bind {γ : Type} {look : TypeTable → TypeId → Option γ} {kind : DiagnosticKind}
    {program : Program} {id : NodeId}
    (hdemand : kind.demand? = some fun table type => (look table type).isSome)
    (hnone : (program.arena.type? id).bind (look program.types) = none) :
    ∀ demand, kind.demand? = some demand →
      ∀ type ∈ program.arena.type? id, demand program.types type = false := by
  intro demand hsome type htype
  obtain rfl := Option.some.inj (hdemand.symm.trans hsome)
  rw [Option.mem_def.mp htype, Option.bind_some] at hnone
  simp only [hnone, Option.isSome_none]

namespace RegularAt

theorem typeOf (id : NodeId) {next : Option TypeId → Lower NodeId}
    (h : RegularAt source (next (state.program.arena.type? id)) state) :
    RegularAt source (typeOf id >>= next) state :=
  h

-- A type is built of what an operand has, and the node is added.
theorem internType_leaf (hsound : state.Sound) {shape : Shape} {kind : NodeKind} {span : Span}
    (hparts : ∀ part ∈ shape.parts, state.program.types.Known part)
    (hright : Right state.program kind.operands)
    (hrule : ∀ (made : Program) type, made.Extends state.program →
      made.arena = state.program.arena → made.types.shape? type = some shape →
      made.TypeRule kind (some type)) :
    RegularAt source (Lower.internType shape >>= fun type => Lower.leaf kind type span) state := by
  have hruns := RunsAt.internType hsound hparts
  refine (internType shape).bind (leaf hruns.sound hright ?_)
  exact hrule _ _ hruns.after.grows rfl hruns.answer

section Makers

variable (hsound : state.Sound)

include hsound

theorem nameNode (name : String) (span : Span) :
    RegularAt source (nameNode name span) state := by
  refine read ?_
  cases hbinding : state.program.binding? state.scopes name with
  | none =>
      rw [Program.binding?] at hbinding
      rw [hbinding]
      exact reported hsound rfl span
  | some binding =>
      obtain ⟨symbol, -, hnamed⟩ := Program.Sound.named_of_binding? hsound hbinding
      rw [Program.binding?] at hbinding
      rw [hbinding]
      cases binding with
      | Variable id =>
          obtain ⟨entry, hentry, -⟩ := hnamed
          have htype : state.program.variableType id = entry.type := by
            rw [Program.variableType, hentry]
          change RegularAt source (Lower.leaf _ (state.program.variableType id) span) state
          rw [htype]
          exact leaf hsound (by simp [NodeKind.operands]) (.Variable hentry)
      | Function id =>
          obtain ⟨entry, hentry, -⟩ := hnamed
          have htype : state.program.functionType id = entry.type := by
            rw [Program.functionType, hentry]
          change RegularAt source (Lower.leaf _ (state.program.functionType id) span) state
          rw [htype]
          exact leaf hsound (by simp [NodeKind.operands]) (.Function hentry)
      | Module id =>
          obtain ⟨entry, hentry, -⟩ := hnamed
          exact addNode hsound ⟨by simp [NodeKind.operands], .Module hentry⟩
      | _ => exact reported hsound rfl span

theorem integerNode (value : Nat) (span : Span) :
    RegularAt source (integerNode value span) state :=
  leaf hsound (by simp [NodeKind.operands]) .Integer

theorem newNode (name : Name) (span : Span) : RegularAt source (newNode name span) state := by
  refine read (read ?_)
  split
  · next target hbinding =>
      obtain ⟨symbol, -, hnamed⟩ := Program.Sound.named_of_binding? hsound hbinding
      split
      · next hclass =>
          exact leaf hsound (by simp [NodeKind.operands]) (.New (Program.Named.known hnamed) hclass)
      · exact reported hsound rfl span
  · exact reported hsound rfl span

theorem newAnonymousNode (span : Span) : RegularAt source (newAnonymousNode span) state := by
  refine (symbol _).andThen (RunsAt.symbol hsound _) fun name named hnamed _ => ?_
  refine internType_leaf hnamed (by simp [Shape.parts]) (by simp [Right, NodeKind.operands]) ?_
  exact fun made type _ _ hshape => .NewAnonymous hshape

theorem connectiveNode (op : Connective) (span : Span) (left right : NodeId) :
    RegularAt source (connectiveNode source op span left right) state := by
  refine unlessError hsound fun hright => ?_
  cases op with
  | Value op => exact read (read (read (leaf hsound hright .Binary)))
  | AndAnd => exact leaf hsound hright .Logical
  | OrOr => exact leaf hsound hright .Logical
  | In =>
      refine read (read ?_)
      split
      · next value hvalue =>
          obtain ⟨known, hfound, hlook⟩ := Option.bind_eq_some_iff.mp hvalue
          obtain ⟨key, hshape⟩ := TypeTable.assocArray_of_mapValue? hlook
          have hpart : state.program.types.Known value := mapValue?_known hsound hvalue
          refine internType_leaf hsound (by simpa [Shape.parts] using hpart) hright
            fun made pointer hextends harena hpointer => ?_
          have hlarge := TypeTable.resolvedShape_keeps hsound.closed hextends.types
            (Program.Sound.type?_known hsound hfound) hshape
          exact .In (by rw [harena]; exact hfound) hlarge.1 hpointer
      · next hnone =>
          exact rejectOperand hsound (hright right (by simp)) (lacks_of_bind rfl hnone)

theorem assignNode (op : Option AssignOp) (span : Span) (target value : NodeId) :
    RegularAt source (assignNode op span target value) state := by
  refine unlessError hsound fun hright => read (addNode hsound ⟨hright, .Assign ?_⟩)
  cases op <;> simp

theorem conditionalNode (span : Span) (condition yes no : NodeId) :
    RegularAt source (conditionalNode span condition yes no) state := by
  refine unlessError hsound fun hright => typeOf yes ?_
  have hrule := @Program.TypeRule.Conditional state.program condition yes no
  split
  · next hnull =>
      rw [if_pos hnull] at hrule
      exact read (addNode hsound ⟨hright, hrule⟩)
  · next hother =>
      rw [if_neg hother] at hrule
      exact addNode hsound ⟨hright, hrule⟩

theorem commaNode (span : Span) (first second : NodeId) :
    RegularAt source (commaNode span first second) state :=
  unlessError hsound fun hright => read (addNode hsound ⟨hright, .Comma⟩)

theorem leadingNode (op : LeadingOp) (span : Span) (operand : NodeId) :
    RegularAt source (leadingNode source op span operand) state := by
  refine unlessError hsound fun hright => typeOf operand ?_
  have hone := hright operand (by simp)
  cases op with
  | Value op =>
      cases op with
      | Not => exact leaf hsound hright .Not
      | _ => exact addNode hsound ⟨hright, .Unary (by simp)⟩
  | Deref =>
      refine read ?_
      split
      · next target htarget =>
          obtain ⟨known, hfound, hlook⟩ := Option.bind_eq_some_iff.mp htarget
          exact leaf hsound hright (.Deref hfound (TypeTable.pointer_of_pointerTarget? hlook))
      · next hnone => exact rejectOperand hsound hone (lacks_of_bind rfl hnone)
  | AddressOf =>
      cases htype : state.program.arena.type? operand with
      | none => exact rejectOperand hsound hone fun _ hdemand => by cases hdemand
      | some target =>
          have hpart : state.program.types.Known target := Program.Sound.type?_known hsound htype
          refine internType_leaf hsound (by simpa [Shape.parts] using hpart) hright
            fun made pointer _ harena hpointer => ?_
          exact .AddressOf (by rw [harena]; exact htype) hpointer
  | Delete => exact leaf hsound hright .Delete
  | Step op => exact addNode hsound ⟨hright, .Step⟩

theorem stepNode (op : StepOp) (span : Span) (operand : NodeId) :
    RegularAt source (stepNode op span operand) state :=
  unlessError hsound fun hright => read (addNode hsound ⟨hright, .Step⟩)

theorem castNode (type : TypeId) (span : Span) (operand : NodeId) :
    RegularAt source (castNode type span operand) state := by
  unfold Lower.castNode
  split
  · exact errorNode hsound span
  · next herror => exact unlessError hsound fun hright => leaf hsound hright (.Cast herror)

theorem callNode (span : Span) (callee : NodeId) (arguments : List NodeId) :
    RegularAt source (callNode source span callee arguments) state := by
  refine unlessError hsound fun hright => read (read ?_)
  split
  · next hnone => exact rejectOperand hsound (hright callee (by simp)) (lacks_of_bind rfl hnone)
  · next function hfunction =>
      obtain ⟨known, hfound, hlook⟩ := Option.bind_eq_some_iff.mp hfunction
      refine read ?_
      dsimp only
      split
      · next hlength =>
          refine leaf hsound hright (.Call hfound (TypeTable.calls_of_called? hlook) hlength ?_)
          intro id
          rw [Arena.kind]
          split <;> simp_all
      · exact reported hsound rfl span

theorem indexNode (span : Span) (base index : NodeId) :
    RegularAt source (indexNode source span base index) state := by
  refine unlessError hsound fun hright => read (read ?_)
  split
  · next element helement =>
      obtain ⟨known, hfound, hlook⟩ := Option.bind_eq_some_iff.mp helement
      exact leaf hsound hright (.Index hfound (TypeTable.holds_of_element? hlook))
  · next hnone => exact rejectOperand hsound (hright base (by simp)) (lacks_of_bind rfl hnone)

theorem removeNode (span : Span) (container key : NodeId) :
    RegularAt source (removeNode source span container key) state := by
  refine unlessError hsound fun hright => read (read ?_)
  split
  · next value hvalue =>
      obtain ⟨known, hfound, hlook⟩ := Option.bind_eq_some_iff.mp hvalue
      obtain ⟨index, hshape⟩ := TypeTable.assocArray_of_mapValue? hlook
      exact leaf hsound hright (.Remove hfound hshape)
  · next hnone => exact rejectOperand hsound (hright container (by simp)) (lacks_of_bind rfl hnone)

theorem tupleNode (span : Span) (elements : List NodeId) :
    RegularAt source (tupleNode span elements) state := by
  refine unlessError hsound fun hright => ?_
  rw [RegularAt, bind_apply, typesOf_apply]
  refine internType_leaf hsound ?_ hright fun made type _ harena hshape => ?_
  · intro type hmem
    obtain ⟨id, _, rfl⟩ := List.mem_map.mp hmem
    exact Program.Sound.typeD_known hsound id
  · refine .Tuple ?_
    rw [harena]
    exact hshape

theorem assertNode (isFalse : Bool) (span : Span) (condition : NodeId) (message : Option NodeId) :
    RegularAt source (assertNode isFalse span condition message) state := by
  refine unlessError hsound fun hright => ?_
  cases isFalse with
  | true => exact leaf hsound (by simp [NodeKind.operands]) .Halt
  | false => exact leaf hsound hright .Assert

-- The first value of a variable is stored in a node that names the variable.
theorem constructNode {id : VariableId} {entry : VariableEntry}
    (hentry : state.program.declared[id.index]? = some entry) (name : Name) (span : Span)
    {value target : NodeId} {here : Span} (hvalue : state.program.arena.kind value ≠ .Error)
    (htarget : state.program.arena.node target = ⟨.Variable id, some entry.type, here⟩) :
    RegularAt source (constructNode id name span entry.type value target) state := by
  have hkind : state.program.arena.kind target = .Variable id := by rw [Arena.kind, htarget]
  have htype : state.program.arena.type? target = some entry.type := by rw [Arena.type?, htarget]
  have hknown : state.program.types.Known entry.type :=
    hsound.declared entry (Array.mem_of_getElem? hentry)
  have hright : Right state.program [target, value] := by simp [Right, hkind, hvalue]
  have hrule : state.program.TypeRule (.Assign .Construct target value) (some entry.type) :=
    htype ▸ .Construct hkind
  obtain ⟨whole, hwhole⟩ : ∃ whole, whole = name.span.cover (state.program.arena.node value).span :=
    ⟨_, rfl⟩
  have hleaf : RegularAt source (Lower.leaf (.Assign .Construct target value) entry.type whole)
      state := leaf hsound hright hrule
  have hruns : RunsAt (Lower.leaf (.Assign .Construct target value) entry.type whole) HasNode state :=
    .leaf hsound hknown
  have hconstruct := @node_leaf state (.Assign .Construct target value) entry.type whole _ (.refl _)
  refine read ?_
  rw [hwhole] at hleaf hruns hconstruct
  refine hleaf.bind (leaf hruns.sound ?_ ?_)
  · simp [NodeKind.operands, Arena.kind, hconstruct]
  · refine .Declare (hruns.after.grows.declared _ _ hentry) fun construct hmem => ?_
    obtain rfl := Option.some.inj hmem
    refine ⟨by rw [Arena.type?, hconstruct], target, value, by rw [Arena.kind, hconstruct], ?_⟩
    rw [Arena.kind, hruns.after.grows.node_eq_of_kind (by simp [hkind])]
    exact hkind

-- A declaration stands above its construct.
theorem declareNode {id : VariableId} {entry : VariableEntry}
    (hentry : state.program.declared[id.index]? = some entry) (name : Name) (span : Span)
    (value : Option NodeId) : RegularAt source (declareNode id name span value) state := by
  have htype : state.program.variableType id = entry.type := by rw [Program.variableType, hentry]
  have hknown : state.program.types.Known entry.type :=
    hsound.declared entry (Array.mem_of_getElem? hentry)
  refine read ?_
  rw [htype]
  cases value with
  | none => exact leaf hsound (by simp [NodeKind.operands]) (.Declare hentry (by simp))
  | some value =>
      refine unlessError hsound fun hright => ?_
      have hvalue := hright value List.mem_cons_self
      refine (leaf hsound (by simp [NodeKind.operands]) (.Variable hentry)).bind ?_
      have htarget : RunsAt (Lower.leaf (.Variable id) entry.type name.span) HasNode state :=
        .leaf hsound hknown
      have hgrows := htarget.after.grows
      refine constructNode htarget.sound (hgrows.declared _ _ hentry) name span ?_
        (node_leaf (.refl _))
      rw [Arena.kind, hgrows.node_eq_of_kind hvalue]
      exact hvalue

end Makers

theorem accepts {body : Lower NodeId}
    (hbody : RegularAt source body (pushScope (startGag state).2).2) :
    RegularAt source (accepts body) state :=
  ⟨hbody.grows, hbody.nodes, hbody.told⟩

theorem prepare (whole : Expr) : RegularAt source (prepare whole) state := by
  cases whole with
  | Cast span written operand => exact type written
  | _ => exact pure

-- Whatever is made of the parts of an expression.
theorem make (hsound : state.Sound) (whole : Expr) (target : TypeId) (ids : List NodeId) :
    RegularAt source (make source whole target ids) state := by
  unfold Lower.make
  split
  · exact nameNode hsound _ _
  · exact integerNode hsound _ _
  · exact leaf hsound (by simp [NodeKind.operands]) .Text
  · exact leaf hsound (by simp [NodeKind.operands]) .Boolean
  · exact leaf hsound (by simp [NodeKind.operands]) .Null
  · exact pure
  · exact connectiveNode hsound _ _ _ _
  · exact assignNode hsound _ _ _ _
  · exact conditionalNode hsound _ _ _ _
  · exact commaNode hsound _ _ _
  · exact leadingNode hsound _ _ _
  · exact stepNode hsound _ _ _
  · exact castNode hsound _ _ _
  · exact newNode hsound _ _
  · exact newAnonymousNode hsound _
  · exact callNode hsound _ _ _
  · exact indexNode hsound _ _ _
  · exact removeNode hsound _ _ _
  · exact tupleNode hsound _ _
  · exact assertNode hsound _ _ _ _
  · next span name _ value =>
      have hknown := Program.Sound.typeD_known hsound value
      refine typeOf value ((declareVariable name _ false).andThen
        (RunsAt.declareVariable hsound name false hknown) fun id named hnamed hvariable => ?_)
      obtain ⟨entry, hentry, -, -⟩ := hvariable
      exact declareNode hnamed hentry name span (some value)
  · exact errorNode hsound _

theorem mapM {parts : List Expr}
    (hparts : ∀ part ∈ parts, ∀ state : LoweringState, state.Sound →
      RegularAt source (expr source part) state) (hsound : state.Sound) :
    RegularAt source (parts.mapM (expr source)) state := by
  induction parts generalizing state with
  | nil => exact pure
  | cons first rest ih =>
      rw [List.mapM_cons]
      refine (hparts first List.mem_cons_self state hsound).andThen (expr_runs source first hsound)
        fun id one hone _ => ?_
      exact (ih (fun part hmem => hparts part (List.mem_cons_of_mem _ hmem)) hone).bind pure

end RegularAt

-- Lowering any expression adds nodes that fit and says nothing that is unfounded.
theorem expr_regular (source : List Char) (whole : Expr) {state : LoweringState}
    (hsound : state.Sound) : RegularAt source (expr source whole) state := by
  induction whole using Expr.induction generalizing state with
  | step whole ih =>
      cases hquestion : whole.isQuestion with
      | true =>
          cases whole with
          | Compiles span operand =>
              have hoperand : ∀ state : LoweringState, state.Sound →
                  RegularAt source (expr source operand) state :=
                fun state hsound => ih operand (by simp [Expr.parts]) hsound
              have hruns : ∀ state : LoweringState, state.Sound →
                  RunsAt (expr source operand) HasNode state :=
                fun state hsound => expr_runs source operand hsound
              rw [expr_eq]
              refine (RegularAt.accepts (hoperand _ (Program.Sound.push hsound))).andThen
                (RunsAt.accepts hsound hruns) fun compiles asked hasked _ => ?_
              exact .leaf hasked (by simp [NodeKind.operands]) .Boolean
          | _ => cases hquestion
      | false =>
          have hprepare : RunsAt (prepare whole) KnownType state :=
            .of_stays (prepare_stays hsound whole)
          have hparts := (@upTo_runs source state whole whole.parts hsound).sound
          rw [expr_eq_parts source hquestion]
          refine (RegularAt.prepare whole).bind ?_
          refine (RegularAt.mapM (fun part hpart state => ih part hpart) hprepare.sound).bind ?_
          exact .make hparts whole _ _

end Lower

end EffectLint
