import EffectLint.Proofs.Lowering.Alongside
import EffectLint.Proofs.Lowering.Parts

/-!
Making nodes alongside each other. From the same operands the same kind of node is made, with akin
types, or it is reported at the same place that none can be made.
-/

namespace EffectLint

theorem NodeKind.Akin.functionNamed_eq {akin : TypeId → TypeId → Prop} {kind kind' : NodeKind}
    (h : kind.Akin akin kind') : kind.functionNamed = kind'.functionNamed := by
  cases h <;> rfl

namespace Lower.Alongside

variable {edit : Edit} {base state state' : LoweringState} {source source' : List Char}

theorem untypedNode (h : state.Beside edit state' base) {kind : NodeKind} (hkind : kind.type? = none)
    {type type' : Option TypeId} (htype : Option.Rel (state.AkinTypes edit state') type type')
    (span : Span) : Alongside edit base (Lower.addNode ⟨kind, type, span⟩)
      (Lower.addNode ⟨kind, type', span⟩) Same state state' :=
  addNode h ⟨.Same hkind, htype, rfl⟩

theorem leaf (h : state.Beside edit state' base) {kind : NodeKind} (hkind : kind.type? = none)
    {type type' : TypeId} (htype : state.AkinTypes edit state' type type') (span : Span) :
    Alongside edit base (Lower.leaf kind type span) (Lower.leaf kind type' span) Same state state' :=
  untypedNode h hkind (.some htype) span

theorem basicLeaf (h : state.Beside edit state' base) {kind : NodeKind} (hkind : kind.type? = none)
    (basic : BasicType) (span : Span) :
    Alongside edit base (Lower.leaf kind (.ofBasic basic) span) (Lower.leaf kind (.ofBasic basic) span)
      Same state state' :=
  leaf h hkind (.ofBasic h.program.closed h.program.closed' basic) span

theorem errorNode (h : state.Beside edit state' base) (span : Span) :
    Alongside edit base (Lower.errorNode span) (Lower.errorNode span) Same state state' :=
  leaf h rfl h.program.error span

theorem reported (h : state.Beside edit state' base) {diagnostic diagnostic' : Diagnostic}
    (hplace : diagnostic.place = diagnostic'.place) (span : Span) :
    Alongside edit base (do Lower.report diagnostic; Lower.errorNode span)
      (do Lower.report diagnostic'; Lower.errorNode span) Same state state' :=
  (report h hplace).bind fun _ _ _ _ hlater _ _ _ => errorNode hlater span

-- A node is wrong on both sides or on neither.
theorem kind_eq_error (h : state.Beside edit state' base) (id : NodeId) :
    (state.program.arena.kind id == .Error) = (state'.program.arena.kind id == .Error) := by
  rw [Bool.eq_iff_iff, beq_iff_eq, beq_iff_eq]
  exact (h.program.node id).kind.eq_error_iff

theorem unlessError (h : state.Beside edit state' base) {span : Span} {operands : List NodeId}
    {build build' : Lower NodeId} (hbuild : Alongside edit base build build' Same state state') :
    Alongside edit base (Lower.unlessError span operands build)
      (Lower.unlessError span operands build') Same state state' := by
  have hwrong : operands.any (state.program.arena.kind · == .Error) =
      operands.any (state'.program.arena.kind · == .Error) :=
    List.any_congr rfl fun id => kind_eq_error h id
  cases hany : operands.any (state.program.arena.kind · == .Error) with
  | true =>
      refine (errorNode h span).congr ?_ ?_
      · rw [unlessError_apply, if_pos hany]
      · rw [unlessError_apply, ← hwrong, if_pos hany]
  | false =>
      refine hbuild.congr ?_ ?_
      · rw [unlessError_apply, if_neg (by simp [hany])]
      · rw [unlessError_apply, ← hwrong, if_neg (by simp [hany])]

theorem rejectOperand (h : state.Beside edit state' base) (kind : DiagnosticKind) (operand : NodeId) :
    Alongside edit base (Lower.rejectOperand source kind operand)
      (Lower.rejectOperand source' kind operand) Same state state' := by
  refine node h operand fun node node' hnode => ?_
  rw [hnode.span]
  exact reported h (Diagnostic.place_about kind _ _ _) node'.span

theorem nameNode (h : state.Beside edit state' base) (name : String) (span : Span) :
    Alongside edit base (Lower.nameNode name span) (Lower.nameNode name span) Same state state' := by
  refine lookup h name fun found found' _ hfound => ?_
  cases hfound with
  | none => exact reported h rfl span
  | some hbinding =>
      cases hbinding with
      | @Variable id =>
          exact read (leaf h rfl (h.program.variableType id) span)
      | @Function id =>
          exact read (leaf h rfl (h.program.functionType id) span)
      | Module => exact untypedNode h rfl .none span
      | «Type» => exact reported h rfl span

theorem newNode (h : state.Beside edit state' base) (name : Name) (span : Span) :
    Alongside edit base (Lower.newNode name span) (Lower.newNode name span) Same state state' := by
  refine read (lookup h name.text fun found found' _ hfound => ?_)
  cases hfound with
  | none => exact reported h rfl span
  | some hbinding =>
      cases hbinding with
      | «Type» hid =>
          dsimp only
          rw [hid.isClass_eq]
          split
          · exact addNode h ⟨.New hid, .some hid, rfl⟩
          · exact reported h rfl span
      | _ => exact reported h rfl span

theorem newAnonymousNode (h : state.Beside edit state' base) (span : Span) :
    Alongside edit base (Lower.newAnonymousNode span) (Lower.newAnonymousNode span) Same state state' := by
  refine (symbol h _).bind fun name _ one one' hone _ _ hname => ?_
  cases hname
  refine (internType hone (.Class name)).bind fun type type' two two' htwo _ _ htype => ?_
  exact leaf htwo rfl htype span

theorem connectiveNode (h : state.Beside edit state' base) (op : Connective) (span : Span)
    (left right : NodeId) :
    Alongside edit base (Lower.connectiveNode source op span left right)
      (Lower.connectiveNode source' op span left right) Same state state' := by
  refine unlessError h ?_
  cases op with
  | Value op =>
      refine read (typeOf h left fun leftType leftType' hleft =>
        typeOf h right fun rightType rightType' hright => ?_)
      exact leaf h rfl (.binaryType h.program.closed h.program.closed' op hleft hright) span
  | AndAnd => exact basicLeaf h rfl .Boolean span
  | OrOr => exact basicLeaf h rfl .Boolean span
  | In =>
      refine typeOf h right fun type type' htype => read ?_
      have hvalue := rel_bind htype fun _ _ htype => htype.mapValue?
      generalize type.bind (mapValue? state.program.types) = found at hvalue ⊢
      generalize type'.bind (mapValue? state'.program.types) = found' at hvalue ⊢
      cases hvalue with
      | none => exact rejectOperand h .NotAssociative right
      | some hvalue =>
          exact (internType h (.Pointer hvalue)).bind fun _ _ _ _ hlater _ _ htype =>
            leaf hlater rfl htype span

theorem assignNode (h : state.Beside edit state' base) (op : Option AssignOp) (span : Span)
    (target value : NodeId) :
    Alongside edit base (Lower.assignNode op span target value) (Lower.assignNode op span target value)
      Same state state' :=
  unlessError h (typeOf h target fun _ _ htype => untypedNode h rfl htype span)

theorem conditionalNode (h : state.Beside edit state' base) (span : Span)
    (condition yes no : NodeId) :
    Alongside edit base (Lower.conditionalNode span condition yes no)
      (Lower.conditionalNode span condition yes no) Same state state' := by
  refine unlessError h (typeOf h yes fun type type' htype => ?_)
  -- both types are that of `null`, or neither is
  have hnull : (type = some .null ∨ type = none) ↔ (type' = some .null ∨ type' = none) := by
    cases htype with
    | none => simp
    | some htype => simp [htype.eq_null_iff]
  by_cases hfirst : type = some .null ∨ type = none
  · rw [if_pos hfirst, if_pos (hnull.mp hfirst)]
    exact typeOf h no fun _ _ hno => untypedNode h rfl hno span
  · rw [if_neg hfirst, if_neg (mt hnull.mpr hfirst)]
    exact untypedNode h rfl htype span

theorem commaNode (h : state.Beside edit state' base) (span : Span) (first second : NodeId) :
    Alongside edit base (Lower.commaNode span first second) (Lower.commaNode span first second) Same
      state state' :=
  unlessError h (typeOf h second fun _ _ htype => untypedNode h rfl htype span)

theorem leadingNode (h : state.Beside edit state' base) (op : LeadingOp) (span : Span)
    (operand : NodeId) :
    Alongside edit base (Lower.leadingNode source op span operand)
      (Lower.leadingNode source' op span operand) Same state state' := by
  refine unlessError h (typeOf h operand fun type type' htype => ?_)
  cases op with
  | Value op =>
      cases op with
      | Not => exact basicLeaf h rfl .Boolean span
      | _ => exact untypedNode h rfl htype span
  | Deref =>
      refine read ?_
      have htarget := rel_bind htype fun _ _ htype => htype.pointerTarget?
      generalize type.bind (pointerTarget? state.program.types) = found at htarget ⊢
      generalize type'.bind (pointerTarget? state'.program.types) = found' at htarget ⊢
      cases htarget with
      | none => exact rejectOperand h .CannotDereference operand
      | some htarget => exact leaf h rfl htarget span
  | AddressOf =>
      cases htype with
      | none => exact rejectOperand h .NotAValue operand
      | some htype =>
          exact (internType h (.Pointer htype)).bind fun _ _ _ _ hlater _ _ htype =>
            leaf hlater rfl htype span
  | Delete => exact basicLeaf h rfl .Void span
  | Step op => exact untypedNode h rfl htype span

theorem stepNode (h : state.Beside edit state' base) (op : StepOp) (span : Span) (operand : NodeId) :
    Alongside edit base (Lower.stepNode op span operand) (Lower.stepNode op span operand) Same state
      state' :=
  unlessError h (typeOf h operand fun _ _ htype => untypedNode h rfl htype span)

theorem castNode (h : state.Beside edit state' base) {type type' : TypeId}
    (htype : state.AkinTypes edit state' type type') (span : Span) (operand : NodeId) :
    Alongside edit base (Lower.castNode type span operand) (Lower.castNode type' span operand) Same
      state state' := by
  unfold Lower.castNode
  by_cases herror : type = .error
  · rw [if_pos herror, if_pos (htype.eq_error_iff.mp herror)]
    exact errorNode h span
  · rw [if_neg herror, if_neg (mt htype.eq_error_iff.mpr herror)]
    exact unlessError h (addNode h ⟨.Cast htype, .some htype, rfl⟩)

theorem callNode (h : state.Beside edit state' base) (span : Span) (callee : NodeId)
    (arguments : List NodeId) :
    Alongside edit base (Lower.callNode source span callee arguments)
      (Lower.callNode source' span callee arguments) Same state state' := by
  refine unlessError h (typeOf h callee fun type type' htype => read ?_)
  have hcalled := rel_bind htype fun _ _ htype => htype.called?
  generalize type.bind state.program.types.called? = found at hcalled ⊢
  generalize type'.bind state'.program.types.called? = found' at hcalled ⊢
  cases hcalled with
  | none => exact rejectOperand h .NotCallable callee
  | @some function function' hsignature =>
      refine node h callee fun node node' hnode => ?_
      dsimp only
      rw [hsignature.parameters.length_eq]
      split
      · change Alongside edit base
          (Lower.leaf (.Call callee arguments node.kind.functionNamed) function.signature.result span)
          (Lower.leaf (.Call callee arguments node'.kind.functionNamed) function'.signature.result span)
          Same state state'
        rw [hnode.kind.functionNamed_eq]
        exact leaf h rfl hsignature.result span
      · exact reported h (Diagnostic.place_about .WrongArgumentCount span _ _) span

theorem indexNode (h : state.Beside edit state' base) (span : Span) (container index : NodeId) :
    Alongside edit base (Lower.indexNode source span container index)
      (Lower.indexNode source' span container index) Same state state' := by
  refine unlessError h (typeOf h container fun type type' htype => read ?_)
  have helement := rel_bind htype fun _ _ htype =>
    htype.element? h.program.closed h.program.closed'
  generalize type.bind (element? state.program.types) = found at helement ⊢
  generalize type'.bind (element? state'.program.types) = found' at helement ⊢
  cases helement with
  | none => exact rejectOperand h .NotIndexable container
  | some helement => exact leaf h rfl helement span

theorem removeNode (h : state.Beside edit state' base) (span : Span) (container key : NodeId) :
    Alongside edit base (Lower.removeNode source span container key)
      (Lower.removeNode source' span container key) Same state state' := by
  refine unlessError h (typeOf h container fun type type' htype => read ?_)
  have hvalue := rel_bind htype fun _ _ htype => htype.mapValue?
  generalize type.bind (mapValue? state.program.types) = found at hvalue ⊢
  generalize type'.bind (mapValue? state'.program.types) = found' at hvalue ⊢
  cases hvalue with
  | none => exact rejectOperand h .NotAssociative container
  | some hvalue => exact basicLeaf h rfl .Boolean span

theorem typesOf (h : state.Beside edit state' base) (elements : List NodeId)
    {next : List TypeId → Lower NodeId} {next' : List TypeId → Lower NodeId}
    (hnext : ∀ types types', List.Forall₂ (state.AkinTypes edit state') types types' →
      Alongside edit base (next types) (next' types') Same state state') :
    Alongside edit base (Lower.typesOf elements >>= next) (Lower.typesOf elements >>= next') Same state
      state' := by
  have htypes : List.Forall₂ (state.AkinTypes edit state')
      (elements.map fun id => (state.program.arena.type? id).getD .error)
      (elements.map fun id => (state'.program.arena.type? id).getD .error) := by
    rw [List.forall₂_map_left_iff, List.forall₂_map_right_iff]
    exact List.forall₂_same.mpr fun id _ =>
      .getD_error h.program.closed h.program.closed' (h.program.node id).type
  refine (hnext _ _ htypes).congr ?_ ?_
  · rw [bind_apply, typesOf_apply]
  · rw [bind_apply, typesOf_apply]

theorem tupleNode (h : state.Beside edit state' base) (span : Span) (elements : List NodeId) :
    Alongside edit base (Lower.tupleNode span elements) (Lower.tupleNode span elements) Same state
      state' := by
  refine unlessError h (typesOf h elements fun types types' htypes => ?_)
  exact (internType h (.Tuple htypes)).bind fun _ _ _ _ hlater _ _ htype => leaf hlater rfl htype span

theorem assertNode (h : state.Beside edit state' base) (isFalse : Bool) (span : Span)
    (condition : NodeId) (message : Option NodeId) :
    Alongside edit base (Lower.assertNode isFalse span condition message)
      (Lower.assertNode isFalse span condition message) Same state state' := by
  refine unlessError h ?_
  cases isFalse with
  | true => exact basicLeaf h rfl .Void span
  | false => exact basicLeaf h rfl .Void span

theorem declareNode (h : state.Beside edit state' base) (id : VariableId) (name : Name) (span : Span)
    (value : Option NodeId) :
    Alongside edit base (Lower.declareNode id name span value) (Lower.declareNode id name span value)
      Same state state' := by
  have htype := h.program.variableType id
  cases value with
  | none =>
      exact read (leaf h rfl htype span)
  | some value =>
      refine read (unlessError h ((leaf h rfl htype name.span).bind
        fun target _ one one' hone hgrows hgrows' htarget => ?_))
      cases htarget
      have htype := h.program.keeps hgrows hgrows' _ _ htype
      refine node hone value fun node node' hnode => ?_
      rw [hnode.span]
      refine (leaf hone rfl htype _).bind fun construct _ two two' htwo hgrows hgrows' hconstruct => ?_
      cases hconstruct
      exact leaf htwo rfl (hone.program.keeps hgrows hgrows' _ _ htype) span

end Lower.Alongside

end EffectLint
