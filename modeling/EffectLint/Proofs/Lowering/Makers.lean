import EffectLint.Proofs.Lowering.Question
import EffectLint.Proofs.Program.Made

/-!
What the makers of nodes do. Each adds one node, after entering at most a type for it. Either it
says nothing and the node is right, or one of its operands was wrong, or it says what is wrong.
-/

namespace EffectLint

namespace Program

def addNode (program : Program) (node : Node) : Program :=
  { program with arena := (program.arena.add node).2 }

theorem addNode_extends (program : Program) (node : Node) :
    (program.addNode node).Extends program :=
  .addNode node

end Program

namespace Lower

-- Looking for a wrong operand, or for the types of operands, changes nothing.
theorem anyError_apply (operands : List NodeId) (state : LoweringState) :
    anyError operands state = (operands.any (state.program.arena.kind · == .Error), state) := by
  induction operands with
  | nil => rfl
  | cons first rest ih =>
      have hstep : anyError (first :: rest) state =
          (if state.program.arena.kind first == .Error then (pure true : Lower Bool)
            else anyError rest) state := rfl
      rw [hstep, List.any_cons]
      cases hkind : state.program.arena.kind first == .Error with
      | true => rfl
      | false => simpa using ih

theorem unlessError_apply (span : Span) (operands : List NodeId) (build : Lower NodeId)
    (state : LoweringState) :
    unlessError span operands build state =
      if operands.any (state.program.arena.kind · == .Error) then errorNode span state
      else build state := by
  rw [unlessError, bind_apply, anyError_apply]
  split <;> rfl

theorem typesOf_apply (elements : List NodeId) (state : LoweringState) :
    typesOf elements state =
      (elements.map fun id => (state.program.arena.type? id).getD .error, state) := by
  induction elements with
  | nil => rfl
  | cons first rest ih =>
      have hstep : typesOf (first :: rest) state =
          (typesOf rest >>= fun others =>
            pure ((state.program.arena.type? first).getD .error :: others) : Lower (List TypeId))
            state := rfl
      rw [hstep, bind_apply, ih]
      rfl

-- `made` is the program with the types for the new node, and `node` is that node. Where nothing is
-- said, the node is right as long as `fine` holds.
structure MakesOne (fine : Prop) (isFalse : Bool) (ids : List NodeId) (program : Program)
    (scopes : Scopes) (made : Program) (node : Node) (told : List Diagnostic) : Prop where
  grows : made.Extends program
  arena : made.arena = program.arena
  sound : made.Sound scopes
  type : ∀ type ∈ node.type, made.types.Known type
  operands : ∀ operand ∈ node.kind.operands, operand ∈ ids
  right : told = [] → fine →
    made.Makes scopes node.type node.kind ∧ node.kind.isFalse = isFalse

def MakesAt (fine : Prop) (isFalse : Bool) (ids : List NodeId) (body : Lower NodeId)
    (program : Program) (scopes : Scopes) : Prop :=
  ∃ made node told, MakesOne fine isFalse ids program scopes made node told ∧
    ∀ reporter, body ⟨program, scopes, reporter⟩ =
      (⟨program.arena.size⟩, ⟨made.addNode node, scopes, reporter.after told 0⟩)

namespace MakesAt

variable {fine : Prop} {isFalse : Bool} {ids : List NodeId} {program : Program} {scopes : Scopes}

theorem node (hsound : program.Sound scopes) {kind : NodeKind} {type : Option TypeId} {span : Span}
    (htype : ∀ known ∈ type, program.types.Known known)
    (hoperands : ∀ operand ∈ kind.operands, operand ∈ ids)
    (hright : fine → program.Makes scopes type kind ∧ kind.isFalse = isFalse) :
    MakesAt fine isFalse ids (addNode ⟨kind, type, span⟩) program scopes := by
  refine ⟨program, ⟨kind, type, span⟩, [], ⟨.refl _, rfl, hsound, htype, hoperands,
    fun _ => hright⟩, fun reporter => ?_⟩
  rw [Reporter.after_nil]
  rfl

theorem leaf (hsound : program.Sound scopes) {kind : NodeKind} {type : TypeId} {span : Span}
    (htype : program.types.Known type) (hoperands : ∀ operand ∈ kind.operands, operand ∈ ids)
    (hright : fine → program.Makes scopes (some type) kind ∧ kind.isFalse = isFalse) :
    MakesAt fine isFalse ids (leaf kind type span) program scopes :=
  node hsound (by simpa using htype) hoperands hright

-- A wrong expression, which is either reported or has a wrong operand.
theorem silentError (hsound : program.Sound scopes) (span : Span) (hfine : ¬fine) :
    MakesAt fine isFalse ids (errorNode span) program scopes :=
  node hsound (by simpa using hsound.closed.known_error) (by simp [NodeKind.operands])
    fun h => absurd h hfine

theorem reported (hsound : program.Sound scopes) (diagnostic : Diagnostic) (span : Span) :
    MakesAt fine isFalse ids (do report diagnostic; errorNode span) program scopes := by
  have htype : ∀ type ∈ some TypeId.error, program.types.Known type := by
    simpa using hsound.closed.known_error
  refine ⟨program, ⟨.Error, some .error, span⟩, [diagnostic], ⟨.refl _, rfl, hsound, htype,
    by simp [NodeKind.operands], fun h => absurd h (List.cons_ne_nil _ _)⟩, fun reporter => ?_⟩
  rw [← Reporter.report_eq_after]
  rfl

theorem imp {fine' : Prop} {body : Lower NodeId} (himp : fine' → fine)
    (h : MakesAt fine isFalse ids body program scopes) :
    MakesAt fine' isFalse ids body program scopes := by
  obtain ⟨made, node, told, hone, hrun⟩ := h
  exact ⟨made, node, told, { hone with right := fun htold h => hone.right htold (himp h) }, hrun⟩

-- A look at what is known changes nothing.
theorem typeOf (id : NodeId) {next : Option TypeId → Lower NodeId}
    (h : MakesAt fine isFalse ids (next (program.arena.type? id)) program scopes) :
    MakesAt fine isFalse ids (typeOf id >>= next) program scopes :=
  h

theorem nodeOf (id : NodeId) {next : Node → Lower NodeId}
    (h : MakesAt fine isFalse ids (next (program.arena.node id)) program scopes) :
    MakesAt fine isFalse ids (Lower.node id >>= next) program scopes :=
  h

theorem types {next : TypeTable → Lower NodeId}
    (h : MakesAt fine isFalse ids (next program.types) program scopes) :
    MakesAt fine isFalse ids (types >>= next) program scopes :=
  h

theorem lookup (name : String) {next : Option Binding → Lower NodeId}
    (h : MakesAt fine isFalse ids (next (program.binding? scopes name)) program scopes) :
    MakesAt fine isFalse ids (lookup name >>= next) program scopes :=
  h

theorem typesOf (elements : List NodeId) {next : List TypeId → Lower NodeId}
    (h : MakesAt fine isFalse ids
      (next (elements.map fun id => (program.arena.type? id).getD .error)) program scopes) :
    MakesAt fine isFalse ids (typesOf elements >>= next) program scopes := by
  obtain ⟨made, node, told, hone, h⟩ := h
  refine ⟨made, node, told, hone, fun reporter => ?_⟩
  rw [bind_apply, typesOf_apply]
  exact h reporter

theorem internType (hsound : program.Sound scopes) {shape : Shape} {next : TypeId → Lower NodeId}
    (hparts : ∀ part ∈ shape.parts, program.types.Known part)
    (h : ∀ made : Program, ∀ type, made.Extends program → made.arena = program.arena →
      made.Sound scopes → made.types.shape? type = some shape →
      MakesAt fine isFalse ids (next type) made scopes) :
    MakesAt fine isFalse ids (internType shape >>= next) program scopes := by
  obtain ⟨made, node, told, hone, hrun⟩ := h
    { program with types := (program.types.insert shape).2 } (program.types.insert shape).1
    (.insertType shape) rfl (hsound.insertType hparts) TypeTable.shape?_insert
  exact ⟨made, node, told, { hone with grows := .trans (.insertType shape) hone.grows }, hrun⟩

theorem symbol (hsound : program.Sound scopes) {name : String} {next : Symbol → Lower NodeId}
    (h : ∀ made : Program, ∀ symbol, made.Extends program → made.arena = program.arena →
      made.Sound scopes → made.names.get? symbol = some name →
      MakesAt fine isFalse ids (next symbol) made scopes) :
    MakesAt fine isFalse ids (symbol name >>= next) program scopes := by
  obtain ⟨made, node, told, hone, hrun⟩ := h
    { program with names := (program.names.insert name).2 } (program.names.insert name).1
    (.insertName name) rfl (hsound.insertName name) Numbering.get?_insert
  exact ⟨made, node, told, { hone with grows := .trans (.insertName name) hone.grows }, hrun⟩

theorem unlessError (hsound : program.Sound scopes) {span : Span} {operands : List NodeId}
    {build : Lower NodeId} (hfine : fine → ∀ id ∈ operands, program.arena.kind id ≠ .Error)
    (h : MakesAt fine isFalse ids build program scopes) :
    MakesAt fine isFalse ids (unlessError span operands build) program scopes := by
  cases hwrong : operands.any (program.arena.kind · == .Error) with
  | true =>
      obtain ⟨id, hmem, hkind⟩ := List.any_eq_true.mp hwrong
      have hnot : ¬fine := fun h => hfine h id hmem (by simpa using hkind)
      have herror : MakesAt fine isFalse ids (errorNode span) program scopes :=
        silentError hsound span hnot
      obtain ⟨made, node, told, hone, hrun⟩ := herror
      refine ⟨made, node, told, hone, fun reporter => ?_⟩
      rw [unlessError_apply, hwrong]
      exact hrun reporter
  | false =>
      obtain ⟨made, node, told, hone, hrun⟩ := h
      refine ⟨made, node, told, hone, fun reporter => ?_⟩
      rw [unlessError_apply, hwrong]
      exact hrun reporter

theorem rejectOperand (hsound : program.Sound scopes) (source : List Char) (kind : DiagnosticKind)
    (operand : NodeId) :
    MakesAt fine isFalse ids (rejectOperand source kind operand) program scopes :=
  nodeOf operand (reported hsound _ _)

end MakesAt

section

variable {program : Program} {scopes : Scopes} (hsound : program.Sound scopes)
  (source : List Char)

include hsound

theorem nameNode_makes (text : String) (span : Span) :
    MakesAt (Lexeme.name text).Valid false [] (nameNode text span) program scopes := by
  refine .lookup text ?_
  cases hbinding : program.binding? scopes text with
  | none => exact .reported hsound _ _
  | some binding =>
      obtain ⟨symbol, hname, hnamed⟩ := hsound.named_of_binding? hbinding
      cases binding with
      | Variable id =>
          obtain ⟨entry, hentry, rfl⟩ := hnamed
          have htype : program.variableType id = entry.type := by rw [Program.variableType, hentry]
          have hleaf : MakesAt (Lexeme.name text).Valid false []
              (leaf (.Variable id) (program.variableType id) span) program scopes := by
            rw [htype]
            refine .leaf hsound (hsound.declared entry (Array.mem_of_getElem? hentry))
              (by simp [NodeKind.operands]) fun hvalid => ⟨?_, rfl⟩
            exact ⟨entry, text, hentry, hname, hvalid, hbinding, rfl⟩
          exact hleaf
      | Function id =>
          obtain ⟨entry, hentry, rfl⟩ := hnamed
          have htype : program.functionType id = entry.type := by rw [Program.functionType, hentry]
          have hleaf : MakesAt (Lexeme.name text).Valid false []
              (leaf (.Function id) (program.functionType id) span) program scopes := by
            rw [htype]
            refine .leaf hsound (hsound.functions entry (Array.mem_of_getElem? hentry))
              (by simp [NodeKind.operands]) fun hvalid => ⟨?_, rfl⟩
            exact ⟨entry, text, hentry, hname, hvalid, hbinding, rfl⟩
          exact hleaf
      | Module id =>
          obtain ⟨entry, hentry, rfl⟩ := hnamed
          refine .node hsound (by simp) (by simp [NodeKind.operands]) fun hvalid => ⟨?_, rfl⟩
          exact ⟨entry, text, hentry, hname, hvalid, hbinding, rfl⟩
      | _ => exact .reported hsound _ _

theorem integerNode_makes (value : Nat) (span : Span) :
    MakesAt (value < Grammar.integerBound) (value == 0) [] (integerNode value span) program
      scopes := by
  have htype : program.types.Known (if value < intBound then TypeId.int else .long) := by
    split
    · exact hsound.closed.known_ofBasic .Integer
    · exact hsound.closed.known_ofBasic .Long
  refine .leaf hsound htype (by simp [NodeKind.operands]) fun hvalue =>
    ⟨⟨value, rfl, hvalue, rfl⟩, ?_⟩
  simp [NodeKind.isFalse]

theorem newNode_makes (name : Name) (span : Span) :
    MakesAt (Lexeme.name name.text).Valid false [] (newNode name span) program scopes := by
  refine .types (.lookup name.text ?_)
  split
  · next target hbinding =>
      obtain ⟨symbol, hname, hnamed⟩ := hsound.named_of_binding? hbinding
      split
      · next hclass =>
          refine .leaf hsound (Program.Named.known hnamed) (by simp [NodeKind.operands])
            fun hvalid => ⟨?_, rfl⟩
          exact ⟨symbol, name.text, hname, hvalid, hnamed, hbinding, hclass, rfl⟩
      · exact .reported hsound _ _
  · exact .reported hsound _ _

theorem newAnonymousNode_makes (span : Span) :
    MakesAt True false [] (newAnonymousNode span) program scopes := by
  refine .symbol hsound fun named symbol _ _ hnamed hname => ?_
  refine .internType hnamed (by simp [Shape.parts]) fun made anonymous hextends _ hmade hshape => ?_
  refine .leaf hmade ⟨_, hshape⟩ (by simp [NodeKind.operands]) fun _ => ⟨?_, rfl⟩
  exact ⟨symbol, anonymous, hextends.names _ _ hname, hshape, rfl⟩

theorem mapValue?_known {id : NodeId} {value : TypeId}
    (h : (program.arena.type? id).bind (mapValue? program.types) = some value) :
    program.types.Known value := by
  obtain ⟨type, htype, hvalue⟩ := Option.bind_eq_some_iff.mp h
  unfold mapValue? at hvalue
  split at hvalue
  · next key found hshape =>
      cases hvalue
      refine hsound.closed.resolved_part (hsound.type?_known htype) ?_
      rw [hshape]
      simp [Shape.parts]
  · cases hvalue

theorem binaryType_known (op : BinaryOp) {left right : Option TypeId}
    (hleft : ∀ type ∈ left, program.types.Known type) :
    program.types.Known (binaryType program.types op left right) := by
  have hknown : program.types.Known (left.getD .error) := by
    cases left with
    | none => exact hsound.closed.known_error
    | some type => exact hleft type rfl
  simp only [binaryType]
  split
  · exact hsound.closed.known_ofBasic .Boolean
  · split
    · exact hknown
    · split
      · split
        · exact hsound.closed.known_ofBasic _
        · exact hknown
      · exact hknown

theorem type?_known_of_mem {id : NodeId} :
    ∀ type ∈ program.arena.type? id, program.types.Known type :=
  fun _ htype => hsound.type?_known htype

theorem element?_known {id : NodeId} {element : TypeId}
    (h : (program.arena.type? id).bind (element? program.types) = some element) :
    program.types.Known element := by
  obtain ⟨type, htype, helement⟩ := Option.bind_eq_some_iff.mp h
  have hpart : ∀ part ∈ (program.types.resolvedShape type).parts, program.types.Known part :=
    fun part hpart => hsound.closed.resolved_part (hsound.type?_known htype) hpart
  unfold element? at helement
  split at helement
  · next found hshape =>
      cases helement
      exact hpart _ (by simp [hshape, Shape.parts])
  · next found hshape =>
      cases helement
      exact hpart _ (by simp [hshape, Shape.parts])
  · next key found hshape =>
      cases helement
      exact hpart _ (by simp [hshape, Shape.parts])
  · cases helement
    exact hsound.closed.known_ofBasic .Character
  · cases helement

theorem pointerTarget?_known {id : NodeId} {target : TypeId}
    (h : (program.arena.type? id).bind (pointerTarget? program.types) = some target) :
    program.types.Known target := by
  obtain ⟨type, htype, htarget⟩ := Option.bind_eq_some_iff.mp h
  unfold pointerTarget? at htarget
  split at htarget
  · next found hshape =>
      cases htarget
      refine hsound.closed.resolved_part (hsound.type?_known htype) ?_
      rw [hshape]
      simp [Shape.parts]
  · cases htarget

theorem result_known {id : NodeId} {function : TypeTable.FunctionType}
    (h : (program.arena.type? id).bind program.types.called? = some function) :
    program.types.Known function.signature.result := by
  obtain ⟨type, htype, hcalled⟩ := Option.bind_eq_some_iff.mp h
  have hfunction : ∀ {type function}, program.types.Known type →
      program.types.function? type = some function →
      program.types.Known function.signature.result := by
    intro type function hknown hfunction
    unfold TypeTable.function? at hfunction
    split at hfunction
    · next signature hshape =>
        cases hfunction
        refine hsound.closed.resolved_part hknown ?_
        rw [hshape]
        simp [Shape.parts]
    · cases hfunction
  have hknown := hsound.type?_known htype
  have hpart : ∀ part ∈ (program.types.resolvedShape type).parts, program.types.Known part :=
    fun part hpart => hsound.closed.resolved_part hknown hpart
  have hcallee : ∀ {function}, program.types.calleeFunction? type = some function →
      program.types.Known function.signature.result := by
    intro function hcallee
    unfold TypeTable.calleeFunction? at hcallee
    split at hcallee
    · next inner hshape => exact hfunction (hpart inner (by simp [hshape, Shape.parts])) hcallee
    · exact hfunction hknown hcallee
  unfold TypeTable.called? at hcalled
  split at hcalled
  · next found hfound =>
      cases hcalled
      exact hcallee hfound
  · split at hcalled
    · next target hshape => exact hfunction (hpart target (by simp [hshape, Shape.parts])) hcalled
    · cases hcalled

end

-- None of the operands is wrong.
def Right (program : Program) (ids : List NodeId) : Prop :=
  ∀ id ∈ ids, program.arena.kind id ≠ .Error

section

variable {program : Program} {scopes : Scopes} (hsound : program.Sound scopes)
  (source : List Char) (span : Span)

include hsound

theorem connectiveNode_makes (op : Connective) (left right : NodeId) :
    MakesAt (Right program [left, right]) false [left, right]
      (connectiveNode source op span left right) program scopes := by
  refine .unlessError hsound id ?_
  cases op with
  | Value op =>
      refine .types (.typeOf left (.typeOf right (.leaf hsound ?_ ?_ fun _ => ⟨rfl, rfl⟩)))
      · exact binaryType_known hsound op (type?_known_of_mem hsound)
      · simp [NodeKind.operands]
  | AndAnd =>
      exact .leaf hsound (hsound.closed.known_ofBasic .Boolean) (by simp [NodeKind.operands])
        fun _ => ⟨rfl, rfl⟩
  | OrOr =>
      exact .leaf hsound (hsound.closed.known_ofBasic .Boolean) (by simp [NodeKind.operands])
        fun _ => ⟨rfl, rfl⟩
  | In =>
      refine .typeOf right (.types ?_)
      split
      · next value hvalue =>
          have hpart : program.types.Known value := mapValue?_known hsound hvalue
          refine .internType hsound (by simpa [Shape.parts] using hpart)
            fun made pointer hextends harena hmade hshape => ?_
          refine .leaf hmade ⟨_, hshape⟩ (by simp [NodeKind.operands]) fun _ => ⟨?_, rfl⟩
          refine ⟨value, pointer, ?_, hshape, rfl⟩
          obtain ⟨type, htype, hfound⟩ := Option.bind_eq_some_iff.mp hvalue
          have heq := hsound.closed.resolvedShape_eq hextends.types (hsound.type?_known htype)
          rw [harena, htype, Option.bind_some, mapValue?, heq]
          exact hfound
      · exact .rejectOperand hsound source _ right

theorem assignNode_makes (op : Option AssignOp) (target value : NodeId) :
    MakesAt (Right program [target, value]) false [target, value]
      (assignNode op span target value) program scopes := by
  refine .unlessError hsound id (.typeOf target (.node hsound (type?_known_of_mem hsound) ?_ ?_))
  · simp [NodeKind.operands]
  · intro _
    refine ⟨⟨?_, rfl⟩, rfl⟩
    cases op with
    | none => exact .inl rfl
    | some op => exact .inr ⟨op, rfl⟩

theorem conditionalNode_makes (condition yes no : NodeId) :
    MakesAt (Right program [condition, yes, no]) false [condition, yes, no]
      (conditionalNode span condition yes no) program scopes := by
  refine .unlessError hsound id (.typeOf yes ?_)
  split
  · next hnull =>
      refine .typeOf no (.node hsound (type?_known_of_mem hsound) ?_ fun _ => ⟨?_, rfl⟩)
      · simp [NodeKind.operands]
      · rw [Program.Makes, if_pos hnull]
  · next hother =>
      refine .node hsound (type?_known_of_mem hsound) ?_ fun _ => ⟨?_, rfl⟩
      · simp [NodeKind.operands]
      · rw [Program.Makes, if_neg hother]

theorem commaNode_makes (first second : NodeId) :
    MakesAt (Right program [first, second]) false [first, second]
      (commaNode span first second) program scopes := by
  refine .unlessError hsound id (.typeOf second (.node hsound (type?_known_of_mem hsound) ?_ ?_))
  · simp [NodeKind.operands]
  · exact fun _ => ⟨rfl, rfl⟩

theorem leadingNode_makes (op : LeadingOp) (operand : NodeId) :
    MakesAt (Right program [operand]) false [operand]
      (leadingNode source op span operand) program scopes := by
  refine .unlessError hsound id (.typeOf operand ?_)
  cases op with
  | Value op =>
      have hbool : program.types.Known .bool := hsound.closed.known_ofBasic .Boolean
      cases op with
      | Not => exact .leaf hsound hbool (by simp [NodeKind.operands]) fun _ => ⟨rfl, rfl⟩
      | _ =>
          exact .node hsound (type?_known_of_mem hsound) (by simp [NodeKind.operands])
            fun _ => ⟨rfl, rfl⟩
  | Deref =>
      refine .types ?_
      split
      · next target htarget =>
          have hknown : program.types.Known target := pointerTarget?_known hsound htarget
          exact .leaf hsound hknown (by simp [NodeKind.operands])
            fun _ => ⟨⟨target, htarget, rfl⟩, rfl⟩
      · exact .rejectOperand hsound source _ operand
  | AddressOf =>
      cases htype : program.arena.type? operand with
      | none => exact .rejectOperand hsound source _ operand
      | some target =>
          have hknown : program.types.Known target := hsound.type?_known htype
          refine .internType hsound (by simpa [Shape.parts] using hknown)
            fun made pointer hextends harena hmade hshape => ?_
          refine .leaf hmade ⟨_, hshape⟩ (by simp [NodeKind.operands]) fun _ => ⟨?_, rfl⟩
          exact ⟨target, pointer, by rw [harena, htype], hshape, rfl⟩
  | Delete =>
      exact .leaf hsound (hsound.closed.known_ofBasic .Void) (by simp [NodeKind.operands])
        fun _ => ⟨rfl, rfl⟩
  | Step op =>
      exact .node hsound (type?_known_of_mem hsound) (by simp [NodeKind.operands])
        fun _ => ⟨rfl, rfl⟩

theorem stepNode_makes (op : StepOp) (operand : NodeId) :
    MakesAt (Right program [operand]) false [operand] (stepNode op span operand) program scopes := by
  refine .unlessError hsound id (.typeOf operand (.node hsound (type?_known_of_mem hsound) ?_ ?_))
  · simp [NodeKind.operands]
  · exact fun _ => ⟨rfl, rfl⟩

theorem castNode_makes {target : TypeId} (htarget : program.types.Known target) (operand : NodeId) :
    MakesAt (program.Writable scopes target ∧ target ≠ .error ∧ Right program [operand]) false
      [operand] (castNode target span operand) program scopes := by
  unfold castNode
  split
  · next herror => exact .silentError hsound span fun hfine => hfine.2.1 herror
  · refine .unlessError hsound (fun hfine => hfine.2.2) (.leaf hsound htarget ?_ ?_)
    · simp [NodeKind.operands]
    · exact fun hfine => ⟨⟨hfine.1, rfl⟩, rfl⟩

theorem callNode_makes (callee : NodeId) (arguments : List NodeId) :
    MakesAt (Right program (callee :: arguments)) false (callee :: arguments)
      (callNode source span callee arguments) program scopes := by
  refine .unlessError hsound id (.typeOf callee (.types ?_))
  split
  · exact .rejectOperand hsound source _ callee
  · next function hfunction =>
      have hknown : program.types.Known function.signature.result := result_known hsound hfunction
      refine .nodeOf callee ?_
      simp only []
      split
      · next hlength =>
          refine .leaf hsound hknown (by simp [NodeKind.operands]) fun _ => ⟨?_, rfl⟩
          exact ⟨function, hfunction, hlength, rfl, rfl⟩
      · exact .reported hsound _ _

theorem indexNode_makes (base index : NodeId) :
    MakesAt (Right program [base, index]) false [base, index]
      (indexNode source span base index) program scopes := by
  refine .unlessError hsound id (.typeOf base (.types ?_))
  split
  · next element helement =>
      have hknown : program.types.Known element := element?_known hsound helement
      exact .leaf hsound hknown (by simp [NodeKind.operands])
        fun _ => ⟨⟨element, helement, rfl⟩, rfl⟩
  · exact .rejectOperand hsound source _ base

theorem removeNode_makes (container key : NodeId) :
    MakesAt (Right program [container, key]) false [container, key]
      (removeNode source span container key) program scopes := by
  refine .unlessError hsound id (.typeOf container (.types ?_))
  split
  · next value hvalue =>
      exact .leaf hsound (hsound.closed.known_ofBasic .Boolean) (by simp [NodeKind.operands])
        fun _ => ⟨⟨⟨value, hvalue⟩, rfl⟩, rfl⟩
  · exact .rejectOperand hsound source _ container

theorem tupleNode_makes (elements : List NodeId) :
    MakesAt (Right program elements) false elements (tupleNode span elements) program scopes := by
  refine .unlessError hsound id (.typesOf elements ?_)
  have hparts : ∀ type ∈ elements.map fun id => (program.arena.type? id).getD .error,
      program.types.Known type := by
    intro type hmem
    obtain ⟨id, _, rfl⟩ := List.mem_map.mp hmem
    cases htype : program.arena.type? id with
    | none => exact hsound.closed.known_error
    | some type => exact hsound.type?_known htype
  refine .internType hsound hparts fun made tuple hextends harena hmade hshape => ?_
  refine .leaf hmade ⟨_, hshape⟩ (by simp [NodeKind.operands]) fun _ => ⟨?_, rfl⟩
  exact ⟨tuple, by rw [harena]; exact hshape, rfl⟩

-- The condition of an assertion that stays one is not written as false.
theorem assertNode_makes (isFalse : Bool) (condition : NodeId) (message : Option NodeId) :
    MakesAt (Right program (condition :: message.toList) ∧
        (program.arena.kind condition).isFalse = isFalse) false (condition :: message.toList)
      (assertNode isFalse span condition message) program scopes := by
  have hvoid : program.types.Known .void := hsound.closed.known_ofBasic .Void
  refine .unlessError hsound (fun hfine => hfine.1) ?_
  cases isFalse with
  | true => exact .leaf hsound hvoid (by simp [NodeKind.operands]) fun _ => ⟨rfl, rfl⟩
  | false =>
      exact .leaf hsound hvoid (by simp [NodeKind.operands]) fun hfine => ⟨⟨hfine.2, rfl⟩, rfl⟩

end

end Lower

end EffectLint
