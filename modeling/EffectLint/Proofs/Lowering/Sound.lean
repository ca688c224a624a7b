import EffectLint.Proofs.Lowering.Parts

/-!
Lowering keeps a sound program sound, whatever is written, and it only ever adds to it.
-/

namespace EffectLint

namespace Program

theorem Sound.variableType_known {program : Program} {scopes : Scopes} (h : program.Sound scopes)
    (id : VariableId) : program.types.Known (program.variableType id) := by
  unfold variableType
  split
  · next entry hentry => exact h.declared entry (Array.mem_of_getElem? hentry)
  · exact h.closed.known_error

theorem Sound.typeD_known {program : Program} {scopes : Scopes} (h : program.Sound scopes)
    (id : NodeId) : program.types.Known ((program.arena.type? id).getD .error) := by
  cases htype : program.arena.type? id with
  | none => exact h.closed.known_error
  | some type => exact h.type?_known htype

end Program

namespace Lower

variable {state : LoweringState}

namespace RunsAt

theorem addNode (hsound : state.Sound) {node : Node}
    (htype : ∀ type ∈ node.type, state.program.types.Known type) :
    RunsAt (addNode node) HasNode state := by
  refine ⟨⟨.addNode node, [], 0, (Reporter.after_nil _).symm⟩, Program.Sound.addNode hsound htype,
    ?_⟩
  have hsize : (state.program.arena.add node).2.size = state.program.arena.size + 1 :=
    Arena.size_add node
  have hid : (state.program.arena.add node).1.index = state.program.arena.size := rfl
  change (state.program.arena.add node).1.index < (state.program.arena.add node).2.size
  omega

theorem leaf (hsound : state.Sound) {kind : NodeKind} {type : TypeId} {span : Span}
    (htype : state.program.types.Known type) : RunsAt (leaf kind type span) HasNode state :=
  addNode hsound (by simpa using htype)

theorem errorNode (hsound : state.Sound) (span : Span) : RunsAt (errorNode span) HasNode state :=
  leaf hsound hsound.closed.known_error

-- Whether an operand is wrong is only looked up.
theorem unlessError {span : Span} {operands : List NodeId} {build : Lower NodeId}
    (hsound : state.Sound) (hbuild : RunsAt build HasNode state) :
    RunsAt (unlessError span operands build) HasNode state := by
  cases hany : operands.any (state.program.arena.kind · == .Error) with
  | true => exact (errorNode hsound span).congr (by rw [unlessError_apply, hany]; rfl)
  | false => exact hbuild.congr (by rw [unlessError_apply, hany]; rfl)

theorem declareNode (hsound : state.Sound) (id : VariableId) (name : Name) (span : Span)
    (value : Option NodeId) : RunsAt (declareNode id name span value) HasNode state := by
  have htype : state.program.types.Known (state.program.variableType id) :=
    Program.Sound.variableType_known hsound id
  unfold Lower.declareNode
  cases value with
  | none => exact read (leaf hsound htype)
  | some value =>
      refine read (unlessError hsound ((leaf hsound htype).bind fun target one hafter hone _ => ?_))
      refine read ?_
      have htype := htype.keeps hafter.grows.types
      refine (leaf hone htype).bind fun construct two hafter' htwo _ => ?_
      exact leaf htwo (htype.keeps hafter'.grows.types)

-- Whatever is made of the parts of an expression.
theorem make (hsound : state.Sound) (source : List Char) {whole : Expr}
    (hquestion : whole.isQuestion = false) {target : TypeId}
    (htarget : state.program.types.Known target) {ids : List NodeId}
    (hids : HasNodes whole.parts state.program ids) :
    RunsAt (make source whole target ids) HasNode state := by
  have hmake (hplain : (∀ span inner, whole ≠ .Paren span inner) ∧
      ∀ span name value, whole ≠ .Declare span name value) :
      RunsAt (Lower.make source whole target ids) HasNode state := by
    have hmakes := make_makes hsound source ⟨hplain.1, hplain.2, hquestion⟩ htarget hids.1
    have hstays := (hmakes.imp False.elim).stays hsound hids.2 False.elim
    exact of_stays hstays
  cases whole with
  | Paren span inner =>
      obtain ⟨id, rfl⟩ := List.length_eq_one_iff.mp hids.1
      exact pure hsound (hids.2 id (List.mem_singleton_self id))
  | Declare span name value =>
      obtain ⟨id, rfl⟩ := List.length_eq_one_iff.mp hids.1
      refine read ?_
      refine (declareVariable hsound name false (Program.Sound.typeD_known hsound id)).bind
        fun declared named _ hnamed _ => ?_
      exact declareNode hnamed declared name span (some id)
  | _ => exact hmake ⟨by simp, by simp⟩

theorem mapM {source : List Char} {parts : List Expr}
    (hparts : ∀ part ∈ parts, ∀ state : LoweringState, state.Sound →
      RunsAt (expr source part) HasNode state) (hsound : state.Sound) :
    RunsAt (parts.mapM (expr source)) (HasNodes parts) state := by
  induction parts generalizing state with
  | nil => exact pure hsound ⟨rfl, fun _ hmem => nomatch hmem⟩
  | cons first rest ih =>
      rw [List.mapM_cons]
      refine (hparts first List.mem_cons_self state hsound).bind fun id one _ hone hid => ?_
      refine (ih (fun part hmem => hparts part (List.mem_cons_of_mem _ hmem)) hone).bind
        fun ids all hafter hall hids => ?_
      refine pure hall ⟨by simp [hids.1], ?_⟩
      exact List.forall_mem_cons.mpr ⟨hid.extends hafter.grows, hids.2⟩

-- The gag of a question ends with it.
theorem accepts {body : Lower NodeId} (hsound : state.Sound)
    (hbody : ∀ state : LoweringState, state.Sound → RunsAt body HasNode state) :
    RunsAt (accepts body) (fun _ _ => True) state := by
  obtain ⟨program, scopes, reporter⟩ := state
  have hscope : RunsAt (Lower.inScope body) HasNode ⟨program, scopes, reporter.startGag.2⟩ :=
    inScope hsound fun state _ => hbody state
  obtain ⟨told, hidden, hsaid⟩ := hscope.after.said
  obtain ⟨answer, hanswer⟩ : ∃ answer, answer =
      Lower.inScope body ⟨program, scopes, reporter.startGag.2⟩ := ⟨_, rfl⟩
  have hrun : Lower.inScope body ⟨program, scopes, reporter.startGag.2⟩ =
      (answer.1, ⟨answer.2.program, answer.2.scopes, reporter.startGag.2.after told hidden⟩) := by
    rw [← hsaid, ← hanswer]
    rfl
  have haccepts := accepts_apply hrun
  refine ⟨?_, ?_, trivial⟩ <;> rw [haccepts, hanswer]
  · exact ⟨hscope.after.grows, [], _, rfl⟩
  · exact hscope.sound

end RunsAt

-- Lowering any expression adds its node to a sound program.
theorem expr_runs (source : List Char) (whole : Expr) {state : LoweringState}
    (hsound : state.Sound) : RunsAt (expr source whole) HasNode state := by
  induction whole using Expr.induction generalizing state with
  | step whole ih =>
      cases hquestion : whole.isQuestion with
      | true =>
          cases whole with
          | Compiles span operand =>
              rw [expr_eq]
              have hoperand : ∀ state : LoweringState, state.Sound →
                  RunsAt (expr source operand) HasNode state :=
                fun state hsound => ih operand (by simp [Expr.parts]) hsound
              refine (RunsAt.accepts hsound hoperand).bind fun compiles _ _ hasked _ => ?_
              exact .leaf hasked (hasked.closed.known_ofBasic .Boolean)
          | _ => cases hquestion
      | false =>
          rw [expr_eq_parts source hquestion]
          refine (RunsAt.of_stays (prepare_stays hsound whole)).bind fun target one _ hone htarget => ?_
          refine (RunsAt.mapM (fun part hpart state => ih part hpart) hone).bind
            fun ids two hafter htwo hids => ?_
          exact .make htwo source hquestion (htarget.keeps hafter.grows.types) hids

theorem type_runs (written : TypeTree) {state : LoweringState} (hsound : state.Sound) :
    RunsAt (type written) KnownType state :=
  .of_stays (@type_enters _ _ written False False.elim hsound)

theorem parameterTypes_runs (parameters : List (Parameter TypeTree)) {state : LoweringState}
    (hsound : state.Sound) : RunsAt (parameterTypes parameters) KnownParameters state :=
  .of_stays (@parameterTypes_enters _ _ False _ (fun _ _ _ _ => type_enters) False.elim hsound)

theorem expr?_runs (source : List Char) (written : Option Expr) {state : LoweringState}
    (hsound : state.Sound) :
    RunsAt (expr? source written) (fun made value => ∀ id ∈ value, HasNode made id) state := by
  cases written with
  | none => exact .pure hsound fun _ hmem => nomatch hmem
  | some written =>
      rw [expr?, map_eq_pure_bind]
      refine (expr_runs source written hsound).bind fun id _ _ hmade hid => ?_
      exact .pure hmade (by simpa using hid)

theorem localVariable_runs (source : List Char) (declared : VariableTree) {state : LoweringState}
    (hsound : state.Sound) : RunsAt (localVariable source declared) HasNode state := by
  refine (type_runs declared.type hsound).bind fun type one _ hone htype => ?_
  refine (expr?_runs source declared.value hone).bind fun value two hafter htwo _ => ?_
  refine (RunsAt.declareVariable htwo declared.name false (htype.keeps hafter.grows.types)).bind
    fun id three _ hthree _ => ?_
  exact .declareNode hthree id declared.name declared.span value

-- What a computation does besides keeping the program sound may be forgotten.
theorem RunsAt.forget {α : Type} {body : Lower α} {good : Program → α → Prop}
    (h : RunsAt body good state) : RunsAt body (fun _ _ => True) state :=
  h.imp fun _ _ _ => trivial

theorem statements_run {source : List Char} {written : List Statement}
    (hwritten : ∀ one ∈ written, ∀ state : LoweringState, state.Sound →
      RunsAt (statement source one) (fun _ _ => True) state) {state : LoweringState}
    (hsound : state.Sound) : RunsAt (statements source written) (fun _ _ => True) state := by
  induction written generalizing state with
  | nil =>
      rw [statements]
      exact .pure hsound trivial
  | cons first rest ih =>
      rw [statements]
      refine (hwritten first List.mem_cons_self state hsound).bind fun flow _ _ hone _ => ?_
      refine (ih (fun one hmem => hwritten one (List.mem_cons_of_mem _ hmem)) hone).bind
        fun flows _ _ hall _ => ?_
      exact .pure hall trivial

theorem statement_runs (source : List Char) (written : Statement) {state : LoweringState}
    (hsound : state.Sound) : RunsAt (statement source written) (fun _ _ => True) state := by
  induction written generalizing state with
  | Evaluate value =>
      rw [statement]
      exact (expr_runs source value hsound).bind fun _ _ _ hone _ => .pure hone trivial
  | Local declared =>
      rw [statement]
      exact (localVariable_runs source declared hsound).bind fun _ _ _ hone _ => .pure hone trivial
  | Return span value =>
      rw [statement]
      exact (expr?_runs source value hsound).bind fun _ _ _ hone _ => .pure hone trivial
  | If condition yes no ihyes ihno =>
      rw [statement]
      refine (expr_runs source condition hsound).bind fun _ _ _ hone _ => ?_
      refine (RunsAt.inScope hone fun _ _ => ihyes).bind fun _ _ _ htwo _ => ?_
      cases no with
      | none => exact .pure htwo trivial
      | some other =>
          refine (RunsAt.inScope htwo fun _ _ => ihno other rfl).bind fun _ _ _ hthree _ => ?_
          exact .pure hthree trivial
  | While condition body ih =>
      rw [statement]
      refine (expr_runs source condition hsound).bind fun _ _ _ hone _ => ?_
      exact (RunsAt.inScope hone fun _ _ => ih).bind fun _ _ _ htwo _ => .pure htwo trivial
  | For first condition step body ihfirst ihbody =>
      rw [statement]
      refine .inScope hsound fun inner _ hinner => ?_
      have hrest : ∀ (flow : Option Flow) (entered : LoweringState), entered.Sound →
          RunsAt (do
            let condition ← expr? source condition
            let step ← expr? source step
            let body ← Lower.inScope (statement source body)
            Pure.pure (some (Flow.For flow condition step (body.getD (.Block []))))) (fun _ _ => True)
            entered := by
        intro flow entered hentered
        refine (expr?_runs source condition hentered).bind fun _ _ _ htwo _ => ?_
        refine (expr?_runs source step htwo).bind fun _ _ _ hthree _ => ?_
        exact (RunsAt.inScope hthree fun _ _ => ihbody).bind fun _ _ _ hfour _ =>
          .pure hfour trivial
      cases first with
      | none => exact hrest none inner hinner
      | some one => exact (ihfirst one rfl hinner).bind fun flow _ _ hone _ => hrest flow _ hone
  | Block span written ih =>
      rw [statement]
      refine (RunsAt.inScope hsound fun _ _ => statements_run fun one hmem _ => ih one hmem).bind
        fun _ _ _ hone _ => ?_
      exact .pure hone trivial
  | Empty span =>
      rw [statement]
      exact .pure hsound trivial

section

variable {state : LoweringState} (hsound : state.Sound)

include hsound

theorem importOrClass_runs (item : Item) :
    RunsAt (importOrClass item) (fun _ _ => True) state := by
  cases item with
  | Import name =>
      refine (RunsAt.symbol hsound name.text).bind fun symbol one _ hone hname => ?_
      refine (RunsAt.addModule hone ⟨symbol, name.span⟩).bind fun id two hafter htwo hentry => ?_
      refine .define htwo fun made other hgrows hother => ⟨_, hgrows.modules _ _ hentry, ?_⟩
      exact NameTable.eq_of_get? (hgrows.names _ _ (hafter.grows.names _ _ hname)) hother
  | Class name =>
      refine (RunsAt.symbol hsound name.text).bind fun symbol one _ hone hname => ?_
      refine (RunsAt.internType hone (by simp [Shape.parts])).bind
        fun type two hafter htwo hshape => ?_
      refine .define htwo fun made other hgrows hother => .inl ?_
      have hsame := NameTable.eq_of_get? (hgrows.names _ _ (hafter.grows.names _ _ hname)) hother
      exact hsame ▸ hgrows.types _ _ hshape
  | _ => exact .pure hsound trivial

theorem typeAlias_runs (item : Item) : RunsAt (typeAlias item) (fun _ _ => True) state := by
  cases item with
  | Alias name target =>
      refine (type_runs target hsound).bind fun target one _ hone htarget => ?_
      refine (RunsAt.symbol hone name.text).bind fun symbol two hafter htwo hname => ?_
      refine (RunsAt.internType htwo ?_).bind fun type three hafter' hthree hshape => ?_
      · simpa [Shape.parts] using htarget.keeps hafter.grows.types
      · refine .define hthree fun made other hgrows hother => .inr ⟨target, ?_⟩
        have hsame := NameTable.eq_of_get? (hgrows.names _ _ (hafter'.grows.names _ _ hname)) hother
        exact hsame ▸ hgrows.types _ _ hshape
  | _ => exact .pure hsound trivial

theorem signature_runs (result : TypeTree) (parameters : List (Parameter TypeTree))
    (promises : Promises) :
    RunsAt (signature result parameters promises)
      (fun made signature => made.types.Known signature.result ∧
        KnownParameters made signature.parameters) state := by
  refine (type_runs result hsound).bind fun type one _ hone htype => ?_
  refine (parameterTypes_runs parameters hone).bind fun types two hafter htwo htypes => ?_
  exact .pure htwo ⟨htype.keeps hafter.grows.types, htypes⟩

theorem functionEntry_runs (declared : FunctionTree) :
    RunsAt (functionEntry declared) (fun _ _ => True) state := by
  refine (signature_runs hsound declared.result declared.parameters declared.promises).bind
    fun signature one _ hone hsignature => ?_
  refine (RunsAt.internType hone ?_).bind fun type two _ htwo htype => ?_
  · simp only [Shape.parts, List.forall_mem_cons, List.forall_mem_map]
    exact hsignature
  · refine (RunsAt.symbol htwo declared.name.text).bind fun symbol three hafter hthree hname => ?_
    have hknown : three.program.types.Known type := ⟨_, hafter.grows.types _ _ htype⟩
    refine (RunsAt.addFunction hthree hknown).bind fun id four hafter' hfour hentry => ?_
    refine (RunsAt.define hfour fun made other hgrows hother => ?_).bind fun _ _ _ hfive _ => ?_
    · refine ⟨_, hgrows.functions _ _ hentry, ?_⟩
      exact NameTable.eq_of_get? (hgrows.names _ _ (hafter'.grows.names _ _ hname)) hother
    · exact .pure hfive trivial

theorem globalVariable_runs (source : List Char) (declared : VariableTree) :
    RunsAt (globalVariable source declared) (fun _ _ => True) state := by
  refine (type_runs declared.type hsound).bind fun type one _ hone htype => ?_
  refine (RunsAt.declareVariable hone declared.name true htype).bind fun id two _ htwo _ => ?_
  refine (expr?_runs source declared.value htwo).bind fun value three _ hthree _ => ?_
  exact .addGlobal hthree _

theorem functionOrGlobal_runs (source : List Char) (item : Item) :
    RunsAt (functionOrGlobal source item) (fun _ _ => True) state := by
  cases item with
  | Function declared =>
      exact (functionEntry_runs hsound declared).bind fun _ _ _ hone _ => .pure hone trivial
  | Global declared =>
      exact (globalVariable_runs hsound source declared).bind fun _ _ _ hone _ => .pure hone trivial
  | _ => exact .pure hsound trivial

end

theorem functionsAndGlobals_runs (source : List Char) (items : List Item) {state : LoweringState}
    (hsound : state.Sound) :
    RunsAt (functionsAndGlobals source items) (fun _ _ => True) state := by
  induction items generalizing state with
  | nil => exact .pure hsound trivial
  | cons first rest ih =>
      refine (functionOrGlobal_runs hsound source first).bind fun _ _ _ hone _ => ?_
      exact (ih hone).bind fun _ _ _ htwo _ => .pure htwo trivial

theorem parameterVariables_runs (parameters : List (Parameter TypeTree)) {state : LoweringState}
    (hsound : state.Sound) :
    RunsAt (parameterVariables parameters) (fun _ _ => True) state := by
  induction parameters generalizing state with
  | nil => exact .pure hsound trivial
  | cons first rest ih =>
      rw [parameterVariables]
      cases hname : first.name with
      | none => exact ih hsound
      | some name =>
          refine (type_runs first.type hsound).bind fun type one _ hone htype => ?_
          exact (RunsAt.declareVariable hone name false htype).bind fun _ _ _ htwo _ => ih htwo

-- What a function does is lowered in a scope of its own, behind its parameters.
def block (source : List Char) (parameters : List (Parameter TypeTree))
    (written : List Statement) : Lower (List Flow) := do
  parameterVariables parameters
  statements source written

theorem block_runs (source : List Char) (parameters : List (Parameter TypeTree))
    (written : List Statement) {state : LoweringState} (hsound : state.Sound) :
    RunsAt (block source parameters written) (fun _ _ => True) state :=
  (parameterVariables_runs parameters hsound).bind fun _ _ _ hone _ =>
    statements_run (fun one _ _ => statement_runs source one) hone

theorem body_eq (source : List Char) (function : FunctionId) (declared : FunctionTree) :
    body source function declared =
      match declared.body with
      | none => addBody ⟨function, none⟩
      | some written => (do
          let flows ← inScope (block source declared.parameters written.statements)
          addBody ⟨function, some flows⟩) := by
  unfold body
  cases declared.body with
  | none => rfl
  | some written =>
      simp only [map_eq_pure_bind, bind_assoc, pure_bind]
      rfl

theorem body_runs (source : List Char) (function : FunctionId) (declared : FunctionTree)
    {state : LoweringState} (hsound : state.Sound) :
    RunsAt (body source function declared) (fun _ _ => True) state := by
  rw [body_eq]
  cases declared.body with
  | none => exact .addBody hsound _
  | some written =>
      refine (RunsAt.inScope hsound fun _ _ => block_runs source declared.parameters
        written.statements).bind fun _ _ _ hone _ => ?_
      exact .addBody hone _

theorem RunsAt.forM {α : Type} {step : α → Lower Unit} (items : List α)
    (hstep : ∀ item ∈ items, ∀ state : LoweringState, state.Sound →
      RunsAt (step item) (fun _ _ => True) state) {state : LoweringState} (hsound : state.Sound) :
    RunsAt (items.forM step) (fun _ _ => True) state := by
  induction items generalizing state with
  | nil => exact .pure hsound trivial
  | cons first rest ih =>
      rw [List.forM_eq_forM, List.forM_cons]
      refine (hstep first List.mem_cons_self state hsound).bind fun _ _ _ hone _ => ?_
      exact ih (fun item hmem => hstep item (List.mem_cons_of_mem _ hmem)) hone

-- Everything but the bodies of functions.
def outside (source : List Char) (items : List Item) :
    Lower (List (FunctionId × FunctionTree)) := do
  items.forM importOrClass
  items.forM typeAlias
  functionsAndGlobals source items

theorem module_eq (source : List Char) (items : List Item) :
    Lower.module source items = (do
      let functions ← outside source items
      functions.forM fun (function, declared) => body source function declared) := by
  simp only [Lower.module, outside, bind_assoc]

theorem outside_runs (source : List Char) (items : List Item) {state : LoweringState}
    (hsound : state.Sound) : RunsAt (outside source items) (fun _ _ => True) state := by
  refine (RunsAt.forM items (fun item _ _ h => importOrClass_runs h item) hsound).bind
    fun _ _ _ hone _ => ?_
  refine (RunsAt.forM items (fun item _ _ h => typeAlias_runs h item) hone).bind
    fun _ _ _ htwo _ => ?_
  exact functionsAndGlobals_runs source items htwo

theorem bodies_run (source : List Char) (functions : List (FunctionId × FunctionTree))
    {state : LoweringState} (hsound : state.Sound) :
    RunsAt (functions.forM fun (function, declared) => body source function declared)
      (fun _ _ => True) state :=
  .forM functions (fun item _ _ h => body_runs source item.1 item.2 h) hsound

theorem module_runs (source : List Char) (items : List Item) {state : LoweringState}
    (hsound : state.Sound) : RunsAt (Lower.module source items) (fun _ _ => True) state := by
  rw [module_eq]
  exact (outside_runs source items hsound).bind fun functions _ _ hone _ =>
    bodies_run source functions hone

end Lower

-- The program of a lowered module is sound, whatever the module says.
theorem lower_sound (source : List Char) (items : List Item) (reporter : Reporter) :
    (lower source items reporter).Sound :=
  (@Lower.module_runs source items (.start reporter) Program.sound_empty).sound

end EffectLint
