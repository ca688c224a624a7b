import EffectLint.Proofs.Lowering.RegularModule

/-!
An expression with an operand that is wrong is wrong itself, and no node stands above a wrong one.
-/

namespace EffectLint

namespace Program

-- What is wrong in a larger program was wrong already, or was not there.
theorem Extends.kind_error {large small : Program} (hextends : large.Extends small) {id : NodeId}
    (h : large.arena.kind id = .Error) : small.arena.kind id = .Error := by
  by_contra hright
  rw [Arena.kind, hextends.node_eq_of_kind hright] at h
  exact hright h

end Program

namespace Lower

-- What holds of the steps of lowering holds of whatever is made of the parts of an expression.
theorem Stepwise.make {P : ∀ {α : Type}, Lower α → Prop} (steps : Stepwise @P)
    (source : List Char) (whole : Expr) (target : TypeId) (ids : List NodeId) :
    P (make source whole target ids) := by
  unfold Lower.make
  split
  · exact steps.nameNode _ _
  · exact steps.leaf _ _ _
  · exact steps.leaf _ _ _
  · exact steps.leaf _ _ _
  · exact steps.leaf _ _ _
  · exact steps.pure _
  · exact steps.connectiveNode source _ _ _ _
  · exact steps.assignNode _ _ _ _
  · exact steps.conditionalNode _ _ _ _
  · exact steps.commaNode _ _ _
  · exact steps.leadingNode source _ _ _
  · exact steps.stepNode _ _ _
  · exact steps.castNode _ _ _
  · exact steps.newNode _ _
  · exact steps.newAnonymousNode _
  · exact steps.callNode source _ _ _
  · exact steps.indexNode source _ _ _
  · exact steps.removeNode source _ _ _
  · exact steps.tupleNode _ _
  · exact steps.assertNode _ _ _ _
  · exact steps.bind (steps.typeOf _) fun _ => steps.bind (steps.declareVariable _ _ _) fun _ =>
      steps.declareNode _ _ _ _
  · exact steps.errorNode _

variable {source : List Char} {state : LoweringState}

def AnyWrong (program : Program) (ids : List NodeId) : Prop :=
  ∃ id ∈ ids, program.arena.kind id = .Error

theorem unlessError_wrong (span : Span) {operands : List NodeId} (build : Lower NodeId)
    (hwrong : AnyWrong state.program operands) :
    unlessError span operands build state = errorNode span state := by
  have hany : operands.any (state.program.arena.kind · == .Error) = true := by
    obtain ⟨id, hid, hkind⟩ := hwrong
    exact List.any_eq_true.mpr ⟨id, hid, beq_of_eq hkind⟩
  rw [unlessError_apply, if_pos hany]

theorem castNode_wrong (target : TypeId) (span : Span) {operand : NodeId}
    (hwrong : AnyWrong state.program [operand]) :
    castNode target span operand state = errorNode span state := by
  unfold castNode
  split
  · rfl
  · exact unlessError_wrong span _ hwrong

-- With a wrong part, all that is made is a node that says so.
theorem make_wrong (source : List Char) {whole : Expr} (hquestion : whole.isQuestion = false)
    (hparen : ∀ span inner, whole ≠ .Paren span inner)
    (hdeclare : ∀ span name value, whole ≠ .Declare span name value) (target : TypeId)
    {ids : List NodeId} (hids : ids.length = whole.parts.length)
    (hwrong : AnyWrong state.program ids) :
    make source whole target ids state = errorNode whole.span state := by
  -- an expression without parts has none that is wrong
  have hnone : whole.parts.length ≠ 0 := by
    intro hnone
    obtain ⟨id, hid, -⟩ := hwrong
    rw [List.eq_nil_of_length_eq_zero (hids.trans hnone)] at hid
    cases hid
  cases whole with
  | Compiles => cases hquestion
  | Paren span inner => exact absurd rfl (hparen span inner)
  | Declare span name value => exact absurd rfl (hdeclare span name value)
  | Identifier | Integer | Text | Boolean | Null | New | NewAnonymous | Error => exact absurd rfl hnone
  | Binary | Assign | Comma | Index | Remove =>
      obtain ⟨first, second, rfl⟩ := List.length_eq_two.mp hids
      exact unlessError_wrong _ _ hwrong
  | Conditional =>
      obtain ⟨condition, yes, no, rfl⟩ := List.length_eq_three.mp hids
      exact unlessError_wrong _ _ hwrong
  | Leading | Step =>
      obtain ⟨operand, rfl⟩ := List.length_eq_one_iff.mp hids
      exact unlessError_wrong _ _ hwrong
  | Cast span written operand =>
      obtain ⟨operand, rfl⟩ := List.length_eq_one_iff.mp hids
      exact castNode_wrong target span hwrong
  | Call =>
      obtain ⟨callee, arguments, rfl⟩ := List.exists_cons_of_length_eq_add_one hids
      exact unlessError_wrong _ _ hwrong
  | Tuple => exact unlessError_wrong _ _ hwrong
  | Assert span condition message =>
      obtain ⟨lowered, rest, rfl⟩ := List.exists_cons_of_length_eq_add_one hids
      have hrest : rest.head?.toList = rest := toList_head? (by simpa [Expr.parts] using hids)
      refine unlessError_wrong _ _ ?_
      rw [hrest]
      exact hwrong

theorem declareNode_poisoned (id : VariableId) (name : Name) (span : Span) {value : NodeId}
    {later : Program} (hlater : later.Extends (declareNode id name span (some value) state).2.program)
    (hwrong : later.arena.kind value = .Error) :
    later.arena.kind (declareNode id name span (some value) state).1 = .Error := by
  have hbehind := (stepwise_grows.declareNode id name span (some value) state).trans hlater
  rw [declareNode_wrong id name span (hbehind.kind_error hwrong)] at hlater ⊢
  exact kind_leaf hlater

-- What is lowered of a part is among what the whole is made of.
theorem part_mem {whole part : Expr} {front back : List Expr}
    (hparts : whole.parts = front ++ part :: back) :
    (expr source part (upTo source whole front state).2).1 ∈
      (upTo source whole whole.parts state).1.2 := by
  rw [hparts]
  change _ ∈ ((front ++ part :: back).mapM (expr source) (prepare whole state).2).1
  rw [List.mapM_append, bind_apply, List.mapM_cons]
  exact List.mem_append_right _ List.mem_cons_self

theorem mapM_length {parts : List Expr} :
    (parts.mapM (expr source) state).1.length = parts.length := by
  induction parts generalizing state with
  | nil => rfl
  | cons first rest ih =>
      rw [List.mapM_cons]
      exact congrArg (· + 1) ih

theorem AnyWrong.of_extends {large small : Program} (hextends : large.Extends small)
    {ids : List NodeId} {id : NodeId} (hid : id ∈ ids) (hwrong : large.arena.kind id = .Error) :
    AnyWrong small ids :=
  ⟨id, hid, hextends.kind_error hwrong⟩

theorem make_poisoned {whole : Expr} (hquestion : whole.isQuestion = false) (target : TypeId)
    {ids : List NodeId} (hids : ids.length = whole.parts.length) {later : Program}
    (hlater : later.Extends (make source whole target ids state).2.program) {id : NodeId}
    (hid : id ∈ ids) (hwrong : later.arena.kind id = .Error) :
    later.arena.kind (make source whole target ids state).1 = .Error := by
  have hbehind := (stepwise_grows.make source whole target ids state).trans hlater
  cases whole with
  | Paren span inner =>
      obtain ⟨only, rfl⟩ := List.length_eq_one_iff.mp hids
      obtain rfl := List.mem_singleton.mp hid
      exact hwrong
  | Declare span name value =>
      obtain ⟨only, rfl⟩ := List.length_eq_one_iff.mp hids
      obtain rfl := List.mem_singleton.mp hid
      have hrun : make source (.Declare span name value) target [id] state =
          (declareVariable name ((state.program.arena.type? id).getD .error) false >>= fun variableId =>
            declareNode variableId name span (some id)) state := rfl
      rw [hrun, bind_apply] at hlater ⊢
      exact declareNode_poisoned _ name span hlater hwrong
  | _ =>
      have hmake := make_wrong source hquestion (by simp) (by simp) target hids
        (.of_extends hbehind hid hwrong)
      rw [hmake] at hlater ⊢
      exact kind_leaf hlater

-- An expression is wrong where the node of one of its parts is.
theorem expr_poisoned {whole part : Expr} {front back : List Expr}
    (hquestion : whole.isQuestion = false) (hparts : whole.parts = front ++ part :: back)
    {later : Program} (hlater : later.Extends (expr source whole state).2.program)
    (hwrong : later.arena.kind (expr source part (upTo source whole front state).2).1 = .Error) :
    later.arena.kind (expr source whole state).1 = .Error := by
  rw [expr_apply hquestion] at hlater ⊢
  exact make_poisoned hquestion _ mapM_length hlater (part_mem hparts) hwrong

theorem localVariable_poisoned {declared : VariableTree} {value : Expr}
    (hvalue : declared.value = some value) {later : Program}
    (hlater : later.Extends (localVariable source declared state).2.program)
    (hwrong : later.arena.kind (expr source value (type declared.type state).2).1 = .Error) :
    later.arena.kind (localVariable source declared state).1 = .Error := by
  have hrun : localVariable source declared state =
      (expr source value >>= fun id =>
        declareVariable declared.name (type declared.type state).1 false >>= fun variableId =>
          declareNode variableId declared.name declared.span (some id)) (type declared.type state).2 := by
    rw [localVariable, hvalue]
    rfl
  rw [hrun, bind_apply, bind_apply] at hlater ⊢
  exact declareNode_poisoned _ declared.name declared.span hlater hwrong

end Lower

open Lower

-- No node but an error stands above an error. And wherever an expression is lowered, it is an error
-- if one of its parts is, and so is a declaration if its value is. The part of a question is not
-- meant, for it is only looked at for the answer.
theorem errors_poison (source : List Char) :
    (∀ items reporter id, ∀ child ∈ (lower source items reporter).program.arena.operands id,
      (lower source items reporter).program.arena.kind child ≠ .Error) ∧
    (∀ (state : LoweringState) (whole part : Expr) (front back : List Expr) (later : Program),
      whole.isQuestion = false → whole.parts = front ++ part :: back →
      later.Extends (expr source whole state).2.program →
      later.arena.kind (expr source part (upTo source whole front state).2).1 = .Error →
      later.arena.kind (expr source whole state).1 = .Error) ∧
    ∀ (state : LoweringState) (declared : VariableTree) (value : Expr) (later : Program),
      declared.value = some value →
      later.Extends (localVariable source declared state).2.program →
      later.arena.kind (expr source value (type declared.type state).2).1 = .Error →
      later.arena.kind (localVariable source declared state).1 = .Error := by
  refine ⟨?_, fun _ _ _ _ _ _ h h' => expr_poisoned h h', fun _ _ _ _ h => localVariable_poisoned h⟩
  intro items reporter id child hchild
  cases hnode : (lower source items reporter).program.arena.node? id with
  | none =>
      rw [Arena.operands, Arena.kind, Arena.node, hnode] at hchild
      cases hchild
  | some node =>
      rw [Arena.operands, Arena.kind_of_node? hnode] at hchild
      exact (lower_fits source items reporter node (Array.mem_of_getElem? hnode)).operands child hchild

-- Nothing is known of `u`, so the whole sum is wrong, and so is a declaration with that value. The
-- sum in parentheses is not.
theorem errors_poison_sum :
    let source := "int x = u + (2 + 1);".toList
    let unknown : Expr := .Identifier ⟨8, 9⟩ "u"
    let known : Expr := .Binary ⟨13, 18⟩ (.Value .Add) (.Integer ⟨13, 14⟩ 2) (.Integer ⟨17, 18⟩ 1)
    let sum : Expr := .Binary ⟨8, 19⟩ (.Value .Add) unknown (.Paren ⟨12, 19⟩ known)
    let declared : VariableTree := ⟨⟨0, 20⟩, .Basic ⟨0, 3⟩ .Integer, ⟨"x", ⟨4, 5⟩⟩, some sum⟩
    let reporter := Reporter.start .Off #[]
    let program := (lower source [.Global declared] reporter).program
    let state := LoweringState.start reporter
    (program.arena.operands ⟨3⟩ = [⟨1⟩, ⟨2⟩] ∧ program.arena.kind ⟨1⟩ ≠ .Error) ∧
      (expr source sum state).2.program.arena.kind (expr source sum state).1 = .Error ∧
      (localVariable source declared state).2.program.arena.kind
        (localVariable source declared state).1 = .Error := by
  intro source unknown known sum declared reporter program state
  obtain ⟨hnodes, hexpr, hlocal⟩ := errors_poison source
  have hoperands : program.arena.operands ⟨3⟩ = [⟨1⟩, ⟨2⟩] := by decide +kernel
  have hmem : (⟨1⟩ : NodeId) ∈ program.arena.operands ⟨3⟩ := by
    rw [hoperands]
    exact List.mem_cons_self
  have hsum := hexpr state sum unknown [] [.Paren ⟨12, 19⟩ known] _ rfl rfl (.refl _)
    (by decide +kernel)
  have hdeclared := hlocal state declared sum _ rfl (.refl _) (by decide +kernel)
  exact ⟨⟨hoperands, hnodes [.Global declared] reporter ⟨3⟩ ⟨1⟩ hmem⟩, hsum, hdeclared⟩

end EffectLint
