import EffectLint.Proofs.Lowering.MadeAlongside

/-!
Lowering the types and expressions of an edited tree alongside those of the tree itself. A type that
takes the place of a name has to come to the same as that name; given this, so does everything that is
built on types.
-/

namespace EffectLint

-- What an edit relies on at the state from which two modules are lowered alongside each other: the
-- reserved names stand for types there, and what takes the place of a name comes to the same.
structure Edit.Fits (edit : Edit) (base : LoweringState) : Prop where
  bound : ∀ name, edit.reserved name → ∃ symbol id,
    base.program.names.get? symbol = some name ∧ base.scopes.module.lookup symbol = some (.Type id)
  replaced : ∀ span name written, edit.replaces name.text written →
    ∀ state state', state.Beside edit state' base →
      Lower.Alongside edit base (Lower.type (.Named span name)) (Lower.type written)
        (TypeTable.Akin edit.promises) state state'

namespace Lower.Alongside

variable {edit : Edit} {base state state' : LoweringState} {source source' : List Char}

theorem wrapType (h : state.Beside edit state' base) {inner inner' : TypeId}
    (hinner : state.AkinTypes edit state' inner inner') {wrap : TypeId → Shape}
    (hwrap : (wrap inner).Akin edit.promises (state.AkinTypes edit state') (wrap inner')) :
    Alongside edit base (Lower.wrapType inner wrap) (Lower.wrapType inner' wrap)
      (TypeTable.Akin edit.promises) state state' := by
  unfold Lower.wrapType
  by_cases herror : inner = .error
  · rw [if_pos herror, if_pos (hinner.eq_error_iff.mp herror)]
    exact pure h h.program.error
  · rw [if_neg herror, if_neg (mt hinner.eq_error_iff.mpr herror)]
    exact internType h hwrap

theorem parameterTypes {parameters parameters' : List (Parameter TypeTree)}
    (htypes : ∀ parameter ∈ parameters, ∀ written' state state', state.Beside edit state' base →
      parameter.type.Edited edit written' →
      Alongside edit base (Lower.type parameter.type) (Lower.type written')
        (TypeTable.Akin edit.promises) state state')
    (hedited : List.Forall₂ (Parameter.Related (TypeTree.Edited edit)) parameters parameters')
    (h : state.Beside edit state' base) :
    Alongside edit base (Lower.parameterTypes parameters) (Lower.parameterTypes parameters')
      (fun types types' => List.Forall₂ (ParameterType.Akin (TypeTable.Akin edit.promises types types')))
      state state' := by
  induction hedited generalizing state state' with
  | nil =>
      rw [Lower.parameterTypes]
      exact pure h .nil
  | cons hfirst _ ih =>
      obtain ⟨htype⟩ := hfirst
      rw [Lower.parameterTypes, Lower.parameterTypes]
      refine (htypes _ List.mem_cons_self _ _ _ h htype).bind
        fun first first' one one' hone _ _ hfirst => ?_
      refine (ih (fun parameter hmem => htypes parameter (List.mem_cons_of_mem _ hmem)) hone).bind
        fun others others' all all' hall hgrows hgrows' hothers => ?_
      exact pure hall (.cons ⟨rfl, hone.program.keeps hgrows hgrows' _ _ hfirst⟩ hothers)

theorem type (hfits : edit.Fits base) {written written' : TypeTree}
    (hedited : written.Edited edit written') (h : state.Beside edit state' base) :
    Alongside edit base (Lower.type written) (Lower.type written') (TypeTable.Akin edit.promises) state
      state' := by
  induction written generalizing written' state state' with
  | Basic span basic =>
      cases hedited
      rw [Lower.type, Lower.type]
      exact pure h (.ofBasic h.program.closed h.program.closed' basic)
  | Named span name =>
      cases hedited with
      | Named =>
          rw [Lower.type, Lower.type]
          refine lookup h name.text fun found found' _ hfound => ?_
          have hunknown : Alongside edit base
              (do Lower.report (.about .UnknownType name.span name.text); return TypeId.error)
              (do Lower.report (.about .UnknownType name.span name.text); return TypeId.error)
              (TypeTable.Akin edit.promises) state state' :=
            (report h rfl).bind fun _ _ _ _ hlater _ _ _ => pure hlater hlater.program.error
          cases hfound with
          | none => exact hunknown
          | some hbinding =>
              cases hbinding with
              | «Type» hid => exact pure h hid
              | _ => exact hunknown
      | Reserved hname =>
          rw [Lower.type, Lower.type]
          obtain ⟨symbol, id, hsymbol, hmodule⟩ := hfits.bound _ hname
          have hid := h.holds.binding?_eq hname hsymbol hmodule
          refine lookup h _ fun found found' hknown hfound => ?_
          rw [hknown, hid] at hfound
          rw [hknown, hid]
          cases hfound with
          | some hbinding =>
              cases hbinding with
              | «Type» hid => exact pure h hid
      | Replaced hreplaces => exact hfits.replaced span name _ hreplaces _ _ h
  | Pointer span target ih =>
      cases hedited with
      | Pointer htarget =>
          rw [Lower.type, Lower.type]
          exact (ih htarget h).bind fun _ _ _ _ hlater _ _ hinner => wrapType hlater hinner (.Pointer hinner)
  | Array span element ih =>
      cases hedited with
      | Array helement =>
          rw [Lower.type, Lower.type]
          exact (ih helement h).bind fun _ _ _ _ hlater _ _ hinner => wrapType hlater hinner (.Array hinner)
  | AssocArray span value key ihvalue ihkey =>
      cases hedited with
      | AssocArray hvalue hkey =>
          rw [Lower.type, Lower.type]
          refine (ihvalue hvalue h).bind fun value value' one one' hone _ _ hvalue => ?_
          refine (ihkey hkey hone).bind fun key key' two two' htwo hgrows hgrows' hkey => ?_
          have hvalue := hone.program.keeps hgrows hgrows' _ _ hvalue
          have herror : (value = .error ∨ key = .error) ↔ (value' = .error ∨ key' = .error) := by
            rw [hvalue.eq_error_iff, hkey.eq_error_iff]
          by_cases hwrong : value = .error ∨ key = .error
          · rw [if_pos hwrong, if_pos (herror.mp hwrong)]
            exact pure htwo htwo.program.error
          · rw [if_neg hwrong, if_neg (mt herror.mpr hwrong)]
            exact internType htwo (.AssocArray hkey hvalue)
  | Callable span isDelegate promises result parameters ihresult ihparameters =>
      cases hedited with
      | Callable hpromises hresult hparameters =>
          rw [Lower.type, Lower.type]
          refine (ihresult hresult h).bind fun result result' one one' hone _ _ hresult => ?_
          refine (parameterTypes (fun parameter hmem _ _ _ hlater hedited =>
            ihparameters parameter hmem hedited hlater) hparameters hone).bind
            fun types types' two two' htwo hgrows hgrows' htypes => ?_
          have hresult := hone.program.keeps hgrows hgrows' _ _ hresult
          refine (internType htwo (.Function ⟨htypes, hresult, hpromises⟩)).bind
            fun function function' three three' hthree _ _ hfunction => ?_
          cases isDelegate with
          | true => exact internType hthree (.Delegate hfunction)
          | false => exact internType hthree (.Pointer hfunction)
  | Error span =>
      cases hedited
      rw [Lower.type, Lower.type]
      exact pure h h.program.error

theorem prepare (hfits : edit.Fits base) {whole whole' : Expr} (hedited : whole.Edited edit whole')
    (h : state.Beside edit state' base) :
    Alongside edit base (Lower.prepare whole) (Lower.prepare whole') (TypeTable.Akin edit.promises) state
      state' := by
  cases hedited with
  | Cast htype => exact type hfits htype h
  | Leaf hparts =>
      cases whole with
      | Cast => cases hparts
      | _ => exact pure h h.program.error
  | _ => exact pure h h.program.error

-- The cases are those of the edited expression.
theorem make (h : state.Beside edit state' base) {whole whole' : Expr}
    (hedited : whole.Edited edit whole') {target target' : TypeId}
    (htarget : state.AkinTypes edit state' target target') {ids : List NodeId}
    (hids : ids.length = whole.parts.length) :
    Alongside edit base (Lower.make source whole target ids) (Lower.make source' whole' target' ids) Same
      state state' := by
  cases hedited with
  | Leaf hparts =>
      rw [hparts] at hids
      obtain rfl := List.eq_nil_of_length_eq_zero hids
      cases whole with
      | Identifier span name => exact nameNode h name span
      | Integer span value =>
          rw [Lower.make, Lower.make, integerNode]
          split
          · exact basicLeaf h rfl .Integer span
          · exact basicLeaf h rfl .Long span
      | Text span text => exact basicLeaf h rfl .Text span
      | Boolean span value => exact basicLeaf h rfl .Boolean span
      | Null span => exact leaf h rfl (.null h.program.closed h.program.closed') span
      | New span name => exact newNode h name span
      | NewAnonymous span => exact newAnonymousNode h span
      | Tuple span elements => exact tupleNode h span []
      | Error span => exact errorNode h span
      | _ => simp [Expr.parts] at hparts
  | Paren =>
      obtain ⟨inner, rfl⟩ := List.length_eq_one_iff.mp hids
      exact pure h rfl
  | @Binary span op =>
      obtain ⟨left, right, rfl⟩ := List.length_eq_two.mp hids
      exact connectiveNode h op span left right
  | @Assign span op =>
      obtain ⟨written, value, rfl⟩ := List.length_eq_two.mp hids
      exact assignNode h op span written value
  | @Conditional span =>
      obtain ⟨condition, yes, no, rfl⟩ := List.length_eq_three.mp hids
      exact conditionalNode h span condition yes no
  | @Comma span =>
      obtain ⟨first, second, rfl⟩ := List.length_eq_two.mp hids
      exact commaNode h span first second
  | @Leading span op =>
      obtain ⟨operand, rfl⟩ := List.length_eq_one_iff.mp hids
      exact leadingNode h op span operand
  | @Step span op =>
      obtain ⟨operand, rfl⟩ := List.length_eq_one_iff.mp hids
      exact stepNode h op span operand
  | @Cast span =>
      obtain ⟨operand, rfl⟩ := List.length_eq_one_iff.mp hids
      exact castNode h htarget span operand
  | @Call span =>
      obtain ⟨callee, arguments, rfl⟩ := List.exists_cons_of_length_eq_add_one hids
      exact callNode h span callee arguments
  | @Index span =>
      obtain ⟨container, index, rfl⟩ := List.length_eq_two.mp hids
      exact indexNode h span container index
  | @Remove span =>
      obtain ⟨container, key, rfl⟩ := List.length_eq_two.mp hids
      exact removeNode h span container key
  | @Tuple span => exact tupleNode h span ids
  | @Assert span condition condition' _ _ hcondition =>
      obtain ⟨lowered, rest, rfl⟩ := List.exists_cons_of_length_eq_add_one hids
      rw [Lower.make, Lower.make, hcondition.isFalseLiteral]
      exact assertNode h condition'.isFalseLiteral span lowered rest.head?
  | @Declare span name _ _ hfree =>
      obtain ⟨value, rfl⟩ := List.length_eq_one_iff.mp hids
      refine typeOf h value fun type type' htype => ?_
      have htype := TypeTable.Akin.getD_error h.program.closed h.program.closed' htype
      refine (declareVariable h hfree false htype).bind fun id _ later later' hlater _ _ hid => ?_
      cases hid
      exact declareNode hlater id name span (some value)
  | @Compiles span => exact errorNode h span

theorem accepts (h : state.Beside edit state' base) {body body' : Lower NodeId}
    (hbody : ∀ inner inner', inner.Beside edit inner' base →
      Alongside edit base body body' Same inner inner') :
    Alongside edit base (Lower.accepts body) (Lower.accepts body') Same state state' := by
  refine (startGag h).bind fun gag _ one one' hone _ _ hgag => ?_
  cases hgag
  refine (inScope hone fun inner inner' hinner _ _ => hbody inner inner' hinner).bind
    fun id _ two two' htwo _ _ hid => ?_
  cases hid
  refine (endGag htwo gag).bind fun failed _ three three' hthree _ _ hfailed => ?_
  cases hfailed
  exact of_types hthree rfl rfl
    (congrArg (fun wrong => !failed && !wrong) (kind_eq_error hthree id))

theorem mapM {parts parts' : List Expr} (hparts : ∀ part ∈ parts, ∀ part' state state',
      part.Edited edit part' → state.Beside edit state' base →
      Alongside edit base (Lower.expr source part) (Lower.expr source' part') Same state state')
    (hedited : List.Forall₂ (Expr.Edited edit) parts parts') (h : state.Beside edit state' base) :
    Alongside edit base (parts.mapM (Lower.expr source)) (parts'.mapM (Lower.expr source'))
      (fun _ _ ids ids' => ids = ids' ∧ ids.length = parts.length) state state' := by
  induction hedited generalizing state state' with
  | nil => exact pure h ⟨rfl, rfl⟩
  | cons hfirst _ ih =>
      rw [List.mapM_cons, List.mapM_cons]
      refine (hparts _ List.mem_cons_self _ _ _ hfirst h).bind fun id _ one one' hone _ _ hid => ?_
      cases hid
      refine (ih (fun part hmem => hparts part (List.mem_cons_of_mem _ hmem)) hone).bind
        fun ids _ all all' hall _ _ hids => ?_
      obtain ⟨rfl, hlength⟩ := hids
      exact pure hall ⟨rfl, by rw [List.length_cons, List.length_cons, hlength]⟩

theorem expr (hfits : edit.Fits base) {whole whole' : Expr} (hedited : whole.Edited edit whole')
    (h : state.Beside edit state' base) :
    Alongside edit base (Lower.expr source whole) (Lower.expr source' whole') Same state state' := by
  induction whole using Expr.induction generalizing whole' state state' with
  | step whole ih =>
      cases hquestion : whole.isQuestion with
      | true =>
          cases whole with
          | Compiles span operand =>
              cases hedited with
              | Leaf hparts => cases hparts
              | Compiles hoperand =>
                  rw [expr_eq, expr_eq]
                  refine (accepts h fun inner inner' hinner =>
                    ih _ (List.mem_singleton_self _) hoperand hinner).bind
                    fun compiles _ later later' hlater _ _ hcompiles => ?_
                  cases hcompiles
                  exact basicLeaf hlater rfl .Boolean span
          | _ => cases hquestion
      | false =>
          have hquestion' : whole'.isQuestion = false := by
            cases hedited with
            | Compiles => cases hquestion
            | Leaf => exact hquestion
            | _ => rfl
          rw [expr_eq_parts source hquestion, expr_eq_parts source' hquestion']
          refine (prepare hfits hedited h).bind fun target target' one one' hone _ _ htarget => ?_
          refine (mapM (fun part hmem _ _ _ hpart hlater => ih part hmem hpart hlater)
            hedited.parts hone).bind fun ids _ two two' htwo hgrows hgrows' hids => ?_
          obtain ⟨rfl, hlength⟩ := hids
          exact make htwo hedited (hone.program.keeps hgrows hgrows' _ _ htarget) hlength

theorem expr? (hfits : edit.Fits base) {written written' : Option Expr}
    (hedited : Option.Rel (Expr.Edited edit) written written') (h : state.Beside edit state' base) :
    Alongside edit base (Lower.expr? source written) (Lower.expr? source' written') Same state state' := by
  cases hedited with
  | none => exact pure h rfl
  | some hedited =>
      rw [Lower.expr?, Lower.expr?, map_eq_pure_bind, map_eq_pure_bind]
      refine (expr hfits hedited h).bind fun id _ later later' hlater _ _ hid => ?_
      cases hid
      exact pure hlater rfl

end Lower.Alongside

end EffectLint
