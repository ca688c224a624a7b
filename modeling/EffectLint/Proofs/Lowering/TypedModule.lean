import EffectLint.Proofs.Lowering.Module
import EffectLint.Proofs.Lowering.Typing

/-!
The types of what is lowered of a silent module: of the values in the bodies of its functions, and
of those that its global variables start with.
-/

namespace EffectLint

def Program.FlowTyped (program : Program) (flow : Flow) : Prop :=
  ∀ value, flow.Has value → program.TypedBelow value

-- The first values of global variables, and all that they are made of.
def Program.GlobalsTyped (program : Program) (globals : Array GlobalValue) : Prop :=
  ∀ added ∈ globals, ∀ value ∈ added.value, program.TypedBelow value

namespace Lower

theorem expr?_addsNames (source : List Char) (written : Option Expr) :
    AddsNames (expr? source written) :=
  stepwise_addsNames.expr? source (fun _ hbody => .of_eq hbody.accepts) written

theorem statement_addsNames (source : List Char) (written : Statement) :
    AddsNames (statement source written) :=
  stepwise_addsNames.statement source (fun _ hbody => .of_eq hbody.accepts) written

theorem block_addsNames (source : List Char) (parameters : List (Parameter TypeTree))
    (written : List Statement) : AddsNames (block source parameters written) :=
  stepwise_addsNames.block source (fun _ hbody => .of_eq hbody.accepts) parameters written

theorem addsNames_For (source : List Char) (first : Option Statement) (condition step : Option Expr)
    (body : Statement) :
    AddsNames (do
      let first ← first? source first
      let condition ← expr? source condition
      let step ← expr? source step
      let body ← inScope (statement source body)
      return some (Flow.For first condition step (body.getD (.Block [])))) := by
  have hsteps := stepwise_addsNames
  have hfirst : AddsNames (first? source first) := by
    cases first with
    | none => exact hsteps.pure none
    | some one => exact statement_addsNames source one
  exact hfirst.bind fun _ => (expr?_addsNames source condition).bind fun _ =>
    (expr?_addsNames source step).bind fun _ =>
    (hsteps.inScope (statement_addsNames source body)).bind fun _ => hsteps.pure _

namespace TypesAt

variable {source : List Char} {later : Program} {fine : Prop} {state : LoweringState}

-- A statement in a scope of its own, nothing of which may be left.
theorem branch {written : Statement} (hsound : state.Sound)
    (hbody : ∀ inner : LoweringState, inner.Sound → TypesAt later fine (statement source written)
      (fun _ _ => True) (fun flow => ∀ one ∈ flow, later.FlowTyped one) inner) :
    TypesAt later fine (Lower.inScope (statement source written)) (fun _ _ => True)
      (fun flow => later.FlowTyped (flow.getD (.Block []))) state := by
  refine (TypesAt.inScope hsound (statement_addsNames source written) hbody).imp (fun hfine => hfine) (fun _ _ h => h)
    fun flow htyped => ?_
  cases flow with
  | some flow => exact htyped flow rfl
  | none =>
      intro value hvalue
      cases hvalue with
      | Block hmem _ => cases hmem

theorem statements {written : List Statement}
    (hwritten : fine → ∀ one ∈ written, one.AllWritten)
    (hstatement : ∀ one ∈ written, ∀ (fine : Prop) (state : LoweringState),
      (fine → one.AllWritten) → state.Sound → TypesAt later fine (statement source one)
        (fun _ _ => True) (fun flow => ∀ one ∈ flow, later.FlowTyped one) state)
    (hsound : state.Sound) :
    TypesAt later fine (Lower.statements source written) (fun _ _ => True)
      (fun flows => ∀ one ∈ flows, later.FlowTyped one) state := by
  induction written generalizing state fine with
  | nil =>
      rw [Lower.statements]
      exact .pure hsound trivial fun _ => List.forall_mem_nil _
  | cons first rest ih =>
      rw [Lower.statements]
      refine (hstatement first List.mem_cons_self fine state
        (fun hfine => hwritten hfine first List.mem_cons_self) hsound).bind fun flow _ _ hone _ => ?_
      refine (ih (fun hfine one hmem => hwritten hfine.1 one (List.mem_cons_of_mem _ hmem))
        (fun one hmem => hstatement one (List.mem_cons_of_mem _ hmem)) hone).bind
        fun flows _ _ htwo _ => ?_
      refine .pure htwo trivial fun hfine one hmem => ?_
      rcases List.mem_append.mp hmem with hmem | hmem
      · exact hfine.1.2 one (Option.mem_toList.mp hmem)
      · exact hfine.2 one hmem

end TypesAt

section

variable {source : List Char} {later : Program} (hclosed : later.types.Closed)
  (hapart : later.ApartFromModules) {fine : Prop} {state : LoweringState}

include hclosed hapart

theorem expr?_typed {written : Option Expr} (hwritten : fine → ∀ one ∈ written, one.AllWritten)
    (hsound : state.Sound) :
    TypesAt later fine (expr? source written) (fun made value => ∀ id ∈ value, HasNode made id)
      (fun value => ∀ id ∈ value, later.TypedBelow id) state := by
  cases written with
  | none =>
      exact .pure hsound (fun _ hmem => absurd hmem (Option.not_mem_none _))
        fun _ _ hmem => absurd hmem (Option.not_mem_none _)
  | some written =>
      rw [expr?, map_eq_pure_bind]
      refine (expr_typed hclosed hapart (fun hfine => hwritten hfine written rfl) hsound).bind
        fun id _ _ hmade hid => ?_
      exact .pure hmade (by simpa using hid) fun hfine => by simpa using hfine.2

theorem localVariable_typed {declared : VariableTree} (hwritten : fine → declared.AllWritten)
    (hsound : state.Sound) :
    TypesAt later fine (localVariable source declared) HasNode later.TypedBelow state := by
  refine (type_typed hclosed (fun hfine => (hwritten hfine).1) hsound).bind
    fun type one _ hone htype => ?_
  refine (expr?_typed hclosed hapart (fun hfine => (hwritten hfine.1).2.2) hone).bind
    fun value two hafter htwo hvalue => ?_
  have hknown : two.program.types.Known type := htype.keeps hafter.grows.types
  cases value with
  | some value =>
      exact declared_typed hapart htwo hknown (hvalue value rfl) (fun hfine => hfine.2 value rfl)
        fun hfine => .inl hfine.1.2
  | none =>
      refine (TypesAt.declareVariable htwo declared.name false hknown fun hfine => hfine.1.2).bind
        fun id three hafter hthree hid => ?_
      have hrun : declareNode id declared.name declared.span none three =
          leaf (.Declare id none) type declared.span three := by
        rw [← hid]
        rfl
      exact (TypesAt.leaf hthree (hknown.keeps hafter.grows.types) (by simp) (by simp)
        (fun hfine => hfine.1.1.2) fun _ => by simp [NodeKind.operands]).congr hrun

theorem statement_typed {written : Statement} (hwritten : fine → written.AllWritten)
    (hsound : state.Sound) :
    TypesAt later fine (statement source written) (fun _ _ => True)
      (fun flow => ∀ one ∈ flow, later.FlowTyped one) state := by
  induction written generalizing state fine with
  | Evaluate value =>
      rw [statement]
      have hvalue : fine → value.AllWritten := fun hfine => by cases hwritten hfine; assumption
      refine (expr_typed hclosed hapart hvalue hsound).bind fun _ _ _ hone _ =>
        .pure hone trivial fun hfine => ?_
      rintro one ⟨⟩ id ⟨⟩
      exact hfine.2
  | Local declared =>
      rw [statement]
      have hdeclared : fine → declared.AllWritten := fun hfine => by cases hwritten hfine; assumption
      refine (localVariable_typed hclosed hapart hdeclared hsound).bind fun _ _ _ hone _ =>
        .pure hone trivial fun hfine => ?_
      rintro one ⟨⟩ id ⟨⟩
      exact hfine.2
  | Return span value =>
      rw [statement]
      have hvalue : fine → ∀ one ∈ value, one.AllWritten :=
        fun hfine => by cases hwritten hfine; assumption
      refine (expr?_typed hclosed hapart hvalue hsound).bind fun _ _ _ hone _ =>
        .pure hone trivial fun hfine => ?_
      rintro one ⟨⟩ id ⟨⟩
      exact hfine.2 id rfl
  | If condition yes no ihyes ihno =>
      rw [statement]
      obtain ⟨hcondition, hyes, hno⟩ : (fine → condition.AllWritten) ∧ (fine → yes.AllWritten) ∧
          (fine → ∀ other ∈ no, other.AllWritten) := by
        refine ⟨fun hfine => ?_, fun hfine => ?_, fun hfine => ?_⟩ <;> cases hwritten hfine <;> assumption
      refine (expr_typed hclosed hapart hcondition hsound).bind fun _ _ _ hone _ => ?_
      refine (TypesAt.branch hone fun _ => ihyes fun hfine => hyes hfine.1).bind fun _ _ _ htwo _ => ?_
      cases no with
      | none =>
          refine .pure htwo trivial fun hfine => ?_
          rintro one ⟨⟩ id hid
          cases hid with
          | Condition => exact hfine.1.2
          | Yes hid => exact hfine.2 id hid
      | some other =>
          refine (TypesAt.branch htwo fun _ => ihno other rfl fun hfine =>
            hno hfine.1.1 other rfl).bind fun _ _ _ hthree _ => .pure hthree trivial fun hfine => ?_
          rintro one ⟨⟩ id hid
          cases hid with
          | Condition => exact hfine.1.1.2
          | Yes hid => exact hfine.1.2 id hid
          | No hid => exact hfine.2 id hid
  | While condition body ih =>
      rw [statement]
      obtain ⟨hcondition, hbody⟩ : (fine → condition.AllWritten) ∧ (fine → body.AllWritten) := by
        refine ⟨fun hfine => ?_, fun hfine => ?_⟩ <;> cases hwritten hfine <;> assumption
      refine (expr_typed hclosed hapart hcondition hsound).bind fun _ _ _ hone _ => ?_
      refine (TypesAt.branch hone fun _ => ih fun hfine => hbody hfine.1).bind fun _ _ _ htwo _ =>
        .pure htwo trivial fun hfine => ?_
      rintro one ⟨⟩ id hid
      cases hid with
      | WhileCondition => exact hfine.1.2
      | WhileBody hid => exact hfine.2 id hid
  | For first condition step body ihfirst ihbody =>
      rw [statement_For_eq]
      obtain ⟨hfirst, hcondition, hstep, hbody⟩ : (fine → ∀ one ∈ first, one.AllWritten) ∧
          (fine → ∀ one ∈ condition, one.AllWritten) ∧ (fine → ∀ one ∈ step, one.AllWritten) ∧
          (fine → body.AllWritten) := by
        refine ⟨fun hfine => ?_, fun hfine => ?_, fun hfine => ?_, fun hfine => ?_⟩ <;>
          cases hwritten hfine <;> assumption
      refine .inScope hsound (addsNames_For source first condition step body) fun inner hinner => ?_
      have hone : TypesAt later fine (first? source first) (fun _ _ => True)
          (fun flow => ∀ one ∈ flow, later.FlowTyped one) inner := by
        cases first with
        | none => exact .pure hinner trivial fun _ _ hmem => absurd hmem (Option.not_mem_none _)
        | some one => exact ihfirst one rfl (fun hfine => hfirst hfine one rfl) hinner
      refine hone.bind fun _ _ _ hone _ => ?_
      refine (expr?_typed hclosed hapart (fun hfine => hcondition hfine.1) hone).bind
        fun _ _ _ htwo _ => ?_
      refine (expr?_typed hclosed hapart (fun hfine => hstep hfine.1.1) htwo).bind
        fun _ _ _ hthree _ => ?_
      refine (TypesAt.branch hthree fun _ => ihbody fun hfine => hbody hfine.1.1.1).bind
        fun _ _ _ hfour _ => .pure hfour trivial fun hfine => ?_
      rintro one ⟨⟩ id hid
      rcases hid.of_For with ⟨one, hone, hid⟩ | hid | hid | hid
      · exact hfine.1.1.1.2 one hone id hid
      · exact hfine.1.1.2 id hid
      · exact hfine.1.2 id hid
      · exact hfine.2 id hid
  | Block span written ih =>
      rw [statement]
      have hwritten : fine → ∀ one ∈ written, one.AllWritten :=
        fun hfine => by cases hwritten hfine; assumption
      have hadds : AddsNames (statements source written) :=
        stepwise_addsNames.statements source fun one _ => statement_addsNames source one
      refine (TypesAt.inScope hsound hadds fun inner hinner => .statements hwritten
        (fun one hmem fine state => ih one hmem) hinner).bind fun _ _ _ hone _ =>
          .pure hone trivial fun hfine => ?_
      rintro one ⟨⟩ id hid
      cases hid with
      | Block hmem hid => exact hfine.2 _ hmem id hid
  | Empty span =>
      rw [statement]
      exact .pure hsound trivial fun _ _ hmem => absurd hmem (Option.not_mem_none _)

omit hapart in
theorem parameterVariables_typed {parameters : List (Parameter TypeTree)}
    (hwritten : fine → ∀ parameter ∈ parameters, parameter.type.WellWritten)
    (hsound : state.Sound) :
    TypesAt later fine (parameterVariables parameters) (fun _ _ => True) (fun _ => True) state := by
  induction parameters generalizing state fine with
  | nil => exact .pure hsound trivial fun _ => trivial
  | cons first rest ih =>
      have hrest : fine → ∀ parameter ∈ rest, parameter.type.WellWritten :=
        fun hfine parameter hmem => hwritten hfine parameter (List.mem_cons_of_mem _ hmem)
      rw [parameterVariables]
      cases hname : first.name with
      | none => exact ih hrest hsound
      | some name =>
          refine (type_typed hclosed (fun hfine => hwritten hfine first List.mem_cons_self) hsound).bind
            fun type one _ hone htype => ?_
          exact (TypesAt.declareVariable hone name false htype fun hfine => hfine.2).bind
            fun _ _ _ htwo _ => ih (fun hfine => hrest hfine.1.1) htwo

theorem block_typed {parameters : List (Parameter TypeTree)} {written : List Statement}
    (hparameters : fine → ∀ parameter ∈ parameters, parameter.type.WellWritten)
    (hwritten : fine → ∀ one ∈ written, one.AllWritten) (hsound : state.Sound) :
    TypesAt later fine (block source parameters written) (fun _ _ => True)
      (fun flows => ∀ one ∈ flows, later.FlowTyped one) state :=
  (parameterVariables_typed hclosed hparameters hsound).bind fun _ _ _ hone _ =>
    .statements (fun hfine => hwritten hfine.1)
      (fun _ _ _ _ hwritten hsound => statement_typed hclosed hapart hwritten hsound) hone

end

namespace TypesAt

variable {later : Program} {fine : Prop} {state : LoweringState}

-- What leaves the scopes alone and has a typed answer whatever they are.
theorem of_kept {α : Type} {body : Lower α} {good : Program → α → Prop} {typed : α → Prop}
    (hruns : RunsAt body good state) (hkept : (body state).2.scopes = state.scopes)
    (htyped : later.Extends (body state).2.program → typed (body state).1) :
    TypesAt later fine body good typed state := by
  refine ⟨hruns, fun _ _ hlater hscopes => ⟨htyped hlater, ?_⟩⟩
  rw [hkept]
  exact hscopes

theorem forM {α : Type} {step : α → Lower Unit} (items : List α)
    (hstep : ∀ item ∈ items, ∀ (fine : Prop) (state : LoweringState), state.Sound →
      TypesAt later fine (step item) (fun _ _ => True) (fun _ => True) state)
    (hsound : state.Sound) :
    TypesAt later fine (items.forM step) (fun _ _ => True) (fun _ => True) state := by
  induction items generalizing state fine with
  | nil => exact .pure hsound trivial fun _ => trivial
  | cons first rest ih =>
      rw [List.forM_eq_forM, List.forM_cons]
      refine (hstep first List.mem_cons_self fine state hsound).bind fun _ _ _ hone _ => ?_
      exact ih (fun item hmem => hstep item (List.mem_cons_of_mem _ hmem)) hone

end TypesAt

theorem define_from (name : Name) (binding : Binding) (state : LoweringState) :
    (define name binding state).2.From state := by
  refine ⟨define_extends name binding state, ?_⟩
  rw [define_apply]
  split
  · exact ⟨_, 0, Reporter.report_eq_after _ _⟩
  · exact ⟨[], 0, (Reporter.after_nil _).symm⟩

section

variable {later : Program} {fine : Prop} {state : LoweringState}

theorem importOrClass_typed (item : Item) (hsound : state.Sound) :
    TypesAt later fine (importOrClass item) (fun _ _ => True) (fun _ => True) state := by
  cases item with
  | Import name =>
      exact ⟨importOrClass_runs hsound _, fun _ _ _ hscopes => ⟨trivial, define_scopes trivial hscopes⟩⟩
  | Class name =>
      refine ⟨importOrClass_runs hsound _, fun _ _ hlater hscopes => ⟨trivial, ?_⟩⟩
      have hshape := ((define_from name _ _).grows.trans hlater).types _ _ TypeTable.shape?_insert
      exact define_scopes (.intro hshape (by simp) (by simp [Shape.seen])) hscopes
  | _ => exact .pure hsound trivial fun _ => trivial

variable (hclosed : later.types.Closed)

include hclosed

theorem typeAlias_typed {item : Item} (hwritten : fine → item.AllWritten) (hsound : state.Sound) :
    TypesAt later fine (typeAlias item) (fun _ _ => True) (fun _ => True) state := by
  cases item with
  | Alias name target =>
      refine ⟨typeAlias_runs hsound _, fun hfine hsilent hlater hscopes => ⟨trivial, ?_⟩⟩
      have hgrows := (define_from name _ _).grows.trans hlater
      have hquiet := (define_from name _ _).silent hsilent
      obtain ⟨htarget, hscopes⟩ := (type_typed hclosed (fun hfine => (hwritten hfine).2) hsound).types
        hfine ⟨hquiet.1, hquiet.2⟩ (.trans (.trans (.insertName _) (.insertType _)) hgrows) hscopes
      have hshape := hgrows.types _ _ TypeTable.shape?_insert
      exact define_scopes (.intro hshape (by simp) (by simpa [Shape.seen] using htarget)) hscopes
  | _ => exact .pure hsound trivial fun _ => trivial

theorem signature_typed {result : TypeTree} {parameters : List (Parameter TypeTree)}
    {promises : Promises} (hwritten : fine → result.WellWritten) (hsound : state.Sound) :
    TypesAt later fine (signature result parameters promises)
      (fun made signature => made.types.Known signature.result ∧
        KnownParameters made signature.parameters)
      (fun signature => later.types.Whole signature.result) state := by
  refine (type_typed hclosed hwritten hsound).bind fun type one _ hone htype => ?_
  have hkept : (parameterTypes parameters one).2.scopes = one.scopes :=
    (namewise_still.parameterTypes fun _ _ => namewise_still.type _).scopes one
  have hparameters : TypesAt later (fine ∧ later.types.Whole type) (parameterTypes parameters)
      KnownParameters (fun _ => True) one :=
    .of_kept (parameterTypes_runs parameters hone) hkept fun _ => trivial
  refine hparameters.bind fun types two hafter htwo htypes => ?_
  exact .pure htwo ⟨htype.keeps hafter.grows.types, htypes⟩ fun hfine => hfine.1.2

theorem functionEntry_typed {declared : FunctionTree} (hwritten : fine → declared.AllWritten)
    (hsound : state.Sound) :
    TypesAt later fine (functionEntry declared) (fun _ _ => True) (fun _ => True) state := by
  refine ⟨functionEntry_runs hsound declared, fun hfine hsilent hlater hscopes => ⟨trivial, ?_⟩⟩
  have hgrows := (define_from declared.name _ _).grows.trans hlater
  have hquiet := (define_from declared.name _ _).silent hsilent
  obtain ⟨hresult, hscopes⟩ := (signature_typed hclosed (fun hfine => (hwritten hfine).2.1)
    hsound).types hfine ⟨hquiet.1, hquiet.2⟩
      (.trans (.trans (.trans (.insertType _) (.insertName _)) (.addFunction _)) hgrows) hscopes
  have hentry := hgrows.functions _ _ Array.getElem?_push_size
  have hshape := hgrows.types _ _ TypeTable.shape?_insert
  refine define_scopes ?_ hscopes
  rw [Program.BindsTyped, Program.functionType, hentry]
  refine .intro hshape (by simp) fun part hpart => ?_
  obtain rfl := List.mem_singleton.mp hpart
  exact hresult

end

-- The variable of a global declaration with what was made of its first value.
def globalValue (source : List Char) (declared : VariableTree) : Lower GlobalValue := do
  let type ← type declared.type
  let id ← declareVariable declared.name type true
  let value ← expr? source declared.value
  return ⟨id, value⟩

theorem globalVariable_eq (source : List Char) (declared : VariableTree) :
    globalVariable source declared = globalValue source declared >>= addGlobal := by
  simp only [globalVariable, globalValue, bind_assoc, pure_bind]

section

variable {source : List Char} {later : Program} (hclosed : later.types.Closed)
  (hapart : later.ApartFromModules) {fine : Prop} {state : LoweringState}

include hclosed hapart

theorem globalValue_typed {declared : VariableTree} (hwritten : fine → declared.AllWritten)
    (hsound : state.Sound) :
    TypesAt later fine (globalValue source declared) (fun _ _ => True)
      (fun added => ∀ value ∈ added.value, later.TypedBelow value) state := by
  refine (type_typed hclosed (fun hfine => (hwritten hfine).1) hsound).bind
    fun type one _ hone htype => ?_
  refine (TypesAt.declareVariable hone declared.name true htype fun hfine => hfine.2).bind
    fun id two _ htwo _ => ?_
  refine (expr?_typed hclosed hapart (fun hfine => (hwritten hfine.1.1).2.2) htwo).bind
    fun value three _ hthree _ => ?_
  exact .pure hthree trivial fun hfine => hfine.2

theorem globalVariable_typed {declared : VariableTree} (hwritten : declared.AllWritten)
    (hsound : state.Sound) (hsilent : (globalVariable source declared state).2.Silent)
    (hlater : later.Extends (globalVariable source declared state).2.program)
    (hscopes : later.ScopesTyped state.scopes) (hbefore : later.GlobalsTyped state.program.globals) :
    later.ScopesTyped (globalVariable source declared state).2.scopes ∧
      later.GlobalsTyped (globalVariable source declared state).2.program.globals := by
  have hsteps := stepwise_keepsGlobals
  have hkept : Keeps Program.globals (globalValue source declared) :=
    hsteps.bind (hsteps.type declared.type) fun _ =>
      hsteps.bind (hsteps.declareVariable declared.name _ true) fun _ =>
      hsteps.bind (hsteps.expr? source (fun _ => accepts_keeps) declared.value) fun _ => hsteps.pure _
  rw [globalVariable_eq, bind_apply] at hsilent hlater ⊢
  obtain ⟨hvalue, hscopes⟩ := (globalValue_typed hclosed hapart (fun _ : True => hwritten)
    hsound).types trivial ⟨hsilent.1, hsilent.2⟩ (.trans (.addGlobal _) hlater) hscopes
  refine ⟨hscopes, fun added hadded => ?_⟩
  rcases Array.mem_push.mp hadded with hadded | rfl
  · rw [hkept state] at hadded
    exact hbefore added hadded
  · exact hvalue

theorem functionsAndGlobals_typed {items : List Item} (hwritten : ∀ item ∈ items, item.AllWritten)
    (hsound : state.Sound) (hsilent : (functionsAndGlobals source items state).2.Silent)
    (hlater : later.Extends (functionsAndGlobals source items state).2.program)
    (hscopes : later.ScopesTyped state.scopes) (hbefore : later.GlobalsTyped state.program.globals) :
    later.ScopesTyped (functionsAndGlobals source items state).2.scopes ∧
      later.GlobalsTyped (functionsAndGlobals source items state).2.program.globals := by
  induction items generalizing state with
  | nil => exact ⟨hscopes, hbefore⟩
  | cons first rest ih =>
      obtain ⟨hfirst, hrest⟩ := List.forall_mem_cons.mp hwritten
      have hone := functionOrGlobal_runs hsound source first
      have htwo := functionsAndGlobals_runs source rest hone.sound
      have hquiet := htwo.after.silent hsilent
      have hgrows := htwo.after.grows.trans hlater
      have htyped : later.ScopesTyped (functionOrGlobal source first state).2.scopes ∧
          later.GlobalsTyped (functionOrGlobal source first state).2.program.globals := by
        cases first with
        | Function declared =>
            have hkept : Keeps Program.globals (functionEntry declared) :=
              stepwise_keepsGlobals.functionEntry (fun _ _ => rfl) declared
            refine ⟨((functionEntry_typed hclosed (fun _ : True => hfirst) hsound).types trivial hquiet
              hgrows hscopes).2, ?_⟩
            exact (hkept state).symm ▸ hbefore
        | Global declared =>
            exact globalVariable_typed hclosed hapart hfirst hsound hquiet hgrows hscopes hbefore
        | _ => exact ⟨hscopes, hbefore⟩
      exact ih hrest hone.sound hsilent hlater htyped.1 htyped.2

end

theorem bodies_scopes (source : List Char) (functions : List (FunctionId × FunctionTree))
    (state : LoweringState) : (bodies source functions state).2.scopes = state.scopes := by
  induction functions generalizing state with
  | nil => rfl
  | cons first rest ih =>
      rw [bodies_cons, bind_apply, ih, body_eq]
      cases first.2.body with
      | none => rfl
      | some written => exact (block_addsNames source _ written.statements).inScope state

end Lower

open Lower

theorem Program.scopesTyped_empty (program : Program) : program.ScopesTyped .empty := by
  rintro symbol binding ⟨scope, hscope, hmem⟩
  simp only [Scopes.empty, List.mem_cons, List.not_mem_nil, or_false] at hscope
  subst hscope
  cases hmem

-- Everything outside of bodies, with which the bodies of all functions are lowered.
theorem outside_typed {source : List Char} {items : List Item} {reporter : Reporter} {later : Program}
    (hclosed : later.types.Closed) (hapart : later.ApartFromModules)
    (hwritten : ∀ item ∈ items, item.AllWritten)
    (hsilent : (outside source items (.start reporter)).2.Silent)
    (hlater : later.Extends (outside source items (.start reporter)).2.program) :
    later.ScopesTyped (outside source items (.start reporter)).2.scopes ∧
      later.GlobalsTyped (outside source items (.start reporter)).2.program.globals := by
  have hsteps := stepwise_keepsGlobals
  have hnamed : TypesAt later True (do
      items.forM importOrClass
      items.forM typeAlias) (fun _ _ => True) (fun _ => True) (.start reporter) := by
    refine (TypesAt.forM items (fun item _ _ _ => importOrClass_typed item)
      (show (LoweringState.start reporter).Sound from Program.sound_empty)).bind fun _ _ _ hone _ => ?_
    exact .forM items (fun item hmem _ _ => typeAlias_typed hclosed fun _ => hwritten item hmem) hone
  obtain ⟨state, hstate⟩ : ∃ state : LoweringState, state = ((do
      items.forM importOrClass
      items.forM typeAlias : Lower Unit) (.start reporter)).2 := ⟨_, rfl⟩
  have hkept : state.program.globals = #[] := by
    rw [hstate]
    exact (hsteps.forM hsteps.typeAlias items _).trans
      (hsteps.forM (hsteps.importOrClass fun _ _ => rfl) items (.start reporter))
  have hrun : outside source items (.start reporter) = functionsAndGlobals source items state := by
    rw [hstate]
    rfl
  have hsound := hnamed.sound
  rw [← hstate] at hsound
  have hbehind := (functionsAndGlobals_runs source items hsound).after
  rw [hrun] at hsilent hlater ⊢
  have hquiet := hbehind.silent hsilent
  have hgrows := hbehind.grows.trans hlater
  have hscopes : later.ScopesTyped state.scopes := by
    rw [hstate] at hquiet hgrows ⊢
    exact (hnamed.types trivial hquiet hgrows later.scopesTyped_empty).2
  refine functionsAndGlobals_typed hclosed hapart hwritten hsound hsilent hlater hscopes ?_
  rw [hkept]
  exact fun added hadded => absurd hadded (Array.not_mem_empty added)

-- In a silent module in which nothing takes its type from another module, all that can be reached
-- is typed.
theorem lower_typed {source : List Char} {items : List Item} {reporter : Reporter}
    (hwritten : ∀ item ∈ items, item.AllWritten) (hsilent : (lower source items reporter).Silent)
    (hapart : (lower source items reporter).program.ApartFromModules) {id : NodeId}
    (hreaches : (lower source items reporter).program.Reaches id ∨
      (lower source items reporter).program.ReachesFromGlobals id) :
    (lower source items reporter).program.Typed id := by
  have hclosed : (lower source items reporter).program.types.Closed :=
    (lower_sound source items reporter).closed
  have houtside : (outside source items (.start reporter)).2.Sound :=
    (@outside_runs source items (.start reporter) Program.sound_empty).sound
  have hbodies : (lower source items reporter).From (outside source items (.start reporter)).2 := by
    rw [lower_eq]
    exact (bodies_run source _ houtside).after
  obtain ⟨hscopes, hglobals⟩ := outside_typed hclosed hapart hwritten (hbodies.silent hsilent)
    hbodies.grows
  rcases hreaches with ⟨added, hadded, flows, hflows, flow, hflow, value, hvalue, hbelow⟩ |
    ⟨added, hadded, value, hvalue, hbelow⟩
  · obtain ⟨front, function, declared, back, written, point, -, hitem, hdeclared, hpoint, hsound, rfl,
      hbehind⟩ := exists_block hadded hflows
    have hfunction : declared.AllWritten := hwritten (.Function declared) hitem
    have hquiet := hbehind.silent hsilent
    have hkept : point.scopes = (outside source items (.start reporter)).2.scopes := by
      rw [hpoint, bodies_scopes]
    have hblock := @block_typed source _ hclosed hapart _ _ _ _ (fun _ : True => hfunction.2.2.1)
      (fun _ => hfunction.2.2.2.2 written hdeclared)
      (show (pushScope point).2.Sound from Program.Sound.push hsound)
    rw [← hkept] at hscopes
    obtain ⟨hflows, -⟩ := hblock.types trivial ⟨hquiet.1, hquiet.2⟩ hbehind.grows hscopes.push
    exact hflows flow hflow value hvalue id hbelow
  · have hkept : (lower source items reporter).program.globals =
        (outside source items (.start reporter)).2.program.globals := by
      rw [lower_eq]
      exact stepwise_keepsGlobals.bodies source (fun _ => accepts_keeps) (fun _ _ => rfl) _ _
    rw [hkept] at hadded
    exact hglobals added hadded value hvalue id hbelow

end EffectLint
