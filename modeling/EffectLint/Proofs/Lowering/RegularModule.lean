import EffectLint.Module
import EffectLint.Proofs.Lowering.Regular
import EffectLint.Proofs.Lowering.Stages

/-!
Lowering a module adds only nodes that follow the typing rules, and complains only where it should.
-/

namespace EffectLint

namespace Lower

variable {source : List Char} {state : LoweringState}

-- From a sound state to a sound state, with nothing wrong in between.
def RegularRun {α : Type} (source : List Char) (body : Lower α) : Prop :=
  ∀ state : LoweringState, state.Sound → RegularAt source body state ∧ (body state).2.Sound

theorem RegularRun.of_runs {α : Type} {body : Lower α} {good : Program → α → Prop}
    (hbody : ∀ {state : LoweringState}, state.Sound → RegularAt source body state)
    (hruns : ∀ {state : LoweringState}, state.Sound → RunsAt body good state) :
    RegularRun source body :=
  fun _ hsound => ⟨hbody hsound, (hruns hsound).sound⟩

theorem stagewise_regular : Stagewise (fun {_} body => RegularRun source body) where
  pure _ _ hsound := ⟨.pure, hsound⟩
  bind hfirst hnext state hsound := by
    obtain ⟨hregular, hone⟩ := hfirst state hsound
    obtain ⟨hrest, hend⟩ := hnext _ _ hone
    exact ⟨hregular.bind hrest, hend⟩
  inScope hbody state hsound := by
    obtain ⟨hregular, hend⟩ := hbody (pushScope state).2 (Program.Sound.push hsound)
    exact ⟨.inScope hregular, Program.Sound.pop hend⟩

theorem expr?_regular (written : Option Expr) (hsound : state.Sound) :
    RegularAt source (expr? source written) state :=
  (stagewise_regular.expr? source
    (fun written => .of_runs (expr_regular source written) (expr_runs source written)) written state
    hsound).1

theorem localVariable_regular (declared : VariableTree) (hsound : state.Sound) :
    RegularAt source (localVariable source declared) state := by
  refine (RegularAt.type declared.type).bind ?_
  have htype := type_runs declared.type hsound
  have hvalue := expr?_runs source declared.value htype.sound
  refine (expr?_regular declared.value htype.sound).bind ?_
  have hknown := htype.answer.keeps hvalue.after.grows.types
  refine (RegularAt.declareVariable declared.name _ false).andThen
    (RunsAt.declareVariable hvalue.sound declared.name false hknown) fun id named hnamed hvariable => ?_
  obtain ⟨entry, hentry, -, -⟩ := hvariable
  exact .declareNode hnamed hentry declared.name declared.span _

theorem statement_regular (source : List Char) (written : Statement) :
    RegularRun source (statement source written) :=
  stagewise_regular.statement source
    (fun written => .of_runs (expr_regular source written) (expr_runs source written))
    (fun declared => .of_runs (localVariable_regular declared) (localVariable_runs source declared))
    written

-- Nothing outside of expressions adds a node, and what is said there is of no operand.
theorem define_regular (name : Name) (binding : Binding) :
    RegularAt source (define name binding) state :=
  .of_told (Nodeless.define name binding)
    ((define_tells name binding).imp fun _ _ _ htold diagnostic hmem => by
      rw [htold.kind diagnostic hmem]
      rfl)

theorem importOrClass_regular (item : Item) : RegularAt source (importOrClass item) state := by
  cases item with
  | Import name =>
      exact (RegularAt.symbol _).bind
        ((RegularAt.of_same (.addModule _) rfl rfl).bind (define_regular _ _))
  | Class name =>
      exact (RegularAt.symbol _).bind ((RegularAt.internType _).bind (define_regular _ _))
  | _ => exact .pure

theorem typeAlias_regular (item : Item) : RegularAt source (typeAlias item) state := by
  cases item with
  | Alias name target =>
      exact (RegularAt.type target).bind ((RegularAt.symbol _).bind
        ((RegularAt.internType _).bind (define_regular _ _)))
  | _ => exact .pure

theorem parameterTypes_regular (parameters : List (Parameter TypeTree)) :
    RegularAt source (parameterTypes parameters) state := by
  refine .of_told (Nodeless.parameterTypes fun parameter _ => Nodeless.type parameter.type) ?_
  refine (parameterTypes_tells fun parameter _ => type_tells parameter.type).imp
    fun _ _ _ htold diagnostic hmem => ?_
  rw [htold.kind diagnostic hmem]
  rfl

theorem functionEntry_regular (declared : FunctionTree) :
    RegularAt source (functionEntry declared) state := by
  have hsignature : RegularAt source (signature declared.result declared.parameters declared.promises)
      state :=
    (RegularAt.type declared.result).bind ((parameterTypes_regular declared.parameters).bind .pure)
  refine hsignature.bind ((RegularAt.internType _).bind ((RegularAt.symbol _).bind ?_))
  exact (RegularAt.of_same (.addFunction _) rfl rfl).bind ((define_regular _ _).bind .pure)

theorem globalVariable_regular (declared : VariableTree) (hsound : state.Sound) :
    RegularAt source (globalVariable source declared) state := by
  have htype := type_runs declared.type hsound
  have hdeclare := RunsAt.declareVariable htype.sound declared.name true htype.answer
  refine (RegularAt.type declared.type).bind ((RegularAt.declareVariable _ _ _).bind ?_)
  exact (expr?_regular declared.value hdeclare.sound).bind (.of_same (.addGlobal _) rfl rfl)

theorem functionOrGlobal_regular (item : Item) (hsound : state.Sound) :
    RegularAt source (functionOrGlobal source item) state := by
  cases item with
  | Function declared => exact (functionEntry_regular declared).bind .pure
  | Global declared => exact (globalVariable_regular declared hsound).bind .pure
  | _ => exact .pure

theorem functionsAndGlobals_regular (source : List Char) (items : List Item) :
    RegularRun source (functionsAndGlobals source items) := by
  induction items with
  | nil => exact stagewise_regular.pure []
  | cons first rest ih =>
      exact stagewise_regular.bind
        (.of_runs (functionOrGlobal_regular first) fun h => functionOrGlobal_runs h source first)
        fun _ => stagewise_regular.bind ih fun _ => stagewise_regular.pure _

theorem parameterVariables_regular (parameters : List (Parameter TypeTree)) :
    RegularAt source (parameterVariables parameters) state := by
  induction parameters generalizing state with
  | nil => exact .pure
  | cons first rest ih =>
      rw [parameterVariables]
      cases first.name with
      | none => exact ih
      | some name =>
          exact (RegularAt.type first.type).bind ((RegularAt.declareVariable name _ false).bind ih)

theorem block_regular (source : List Char) (parameters : List (Parameter TypeTree))
    (written : List Statement) : RegularRun source (block source parameters written) :=
  stagewise_regular.bind
    (.of_runs (fun _ => parameterVariables_regular parameters) (parameterVariables_runs parameters))
    fun _ => stagewise_regular.statements source fun one _ => statement_regular source one

theorem body_regular (function : FunctionId) (declared : FunctionTree) (hsound : state.Sound) :
    RegularAt source (body source function declared) state := by
  rw [body_eq]
  cases declared.body with
  | none => exact .of_same (.addBody _) rfl rfl
  | some written =>
      have hblock := block_regular source declared.parameters written.statements
      exact (stagewise_regular.inScope hblock state hsound).1.bind (.of_same (.addBody _) rfl rfl)

theorem module_regular (source : List Char) (items : List Item) :
    RegularRun source (Lower.module source items) := by
  have houtside : RegularRun source (outside source items) :=
    stagewise_regular.bind (stagewise_regular.forM
      (fun item => .of_runs (fun _ => importOrClass_regular item) fun h => importOrClass_runs h item)
      items) fun _ =>
    stagewise_regular.bind (stagewise_regular.forM
      (fun item => .of_runs (fun _ => typeAlias_regular item) fun h => typeAlias_runs h item)
      items) fun _ => functionsAndGlobals_regular source items
  rw [module_eq]
  exact stagewise_regular.bind houtside fun functions => stagewise_regular.forM
    (fun item => .of_runs (body_regular item.1 item.2) (body_runs source item.1 item.2)) functions

end Lower

open Lower

-- In a lowered module every node follows its typing rule and stands above no wrong expression.
theorem lower_fits (source : List Char) (items : List Item) (reporter : Reporter) :
    ∀ node ∈ (lower source items reporter).program.arena.nodes,
      (lower source items reporter).program.Fits node := by
  intro node hnode
  have hregular := (module_regular source items (.start reporter) Program.sound_empty).1
  rcases hregular.nodes _ (.refl _) node hnode with hempty | hfits
  · exact absurd hempty (Array.not_mem_empty node)
  · exact hfits

theorem lowered_nodes_follow_rules (source : List Char) (items : List Item) (reporter : Reporter) :
    ∀ node ∈ (lower source items reporter).program.arena.nodes,
      (lower source items reporter).program.TypeRule node.kind node.type :=
  fun node hnode => (lower_fits source items reporter node hnode).rule

theorem call_of_pointee_follows_rule : ∃ items,
    let program := (lower "int f(int a); int* p; int x = f(*p);".toList items (.start .Off #[])).program
    (∃ parsed, ParsedModule.read "int f(int a); int* p; int x = f(*p);".toList ⟨100, 10, .Off⟩ =
        .ok parsed ∧ parsed.items = items) ∧
      program.arena.node? ⟨3⟩ = some ⟨.Call ⟨0⟩ [⟨2⟩] (some ⟨0⟩), some .int, ⟨30, 35⟩⟩ ∧
      program.TypeRule (.Call ⟨0⟩ [⟨2⟩] (some ⟨0⟩)) (some .int) := by
  have hrun : (ParsedModule.read "int f(int a); int* p; int x = f(*p);".toList
      ⟨100, 10, .Off⟩).toOption.map (fun parsed => (lower "int f(int a); int* p; int x = f(*p);".toList
        parsed.items (.start .Off #[])).program.arena.node? ⟨3⟩) =
      some (some ⟨.Call ⟨0⟩ [⟨2⟩] (some ⟨0⟩), some .int, ⟨30, 35⟩⟩) := by
    decide +kernel
  obtain ⟨parsed, hread, hnode⟩ := ParsedModule.exists_read hrun
  exact ⟨parsed.items, ⟨parsed, hread, rfl⟩, hnode,
    lowered_nodes_follow_rules _ parsed.items _ _ (Array.mem_of_getElem? hnode)⟩

-- What lowering says of an operand is said of one that is no error, and is true of it.
theorem lower_founded (source : List Char) (items : List Item) (reporter : Reporter) :
    ∃ told, (lower source items reporter).reporter.diagnostics = reporter.diagnostics ++ told ∧
      ∀ diagnostic ∈ told, (lower source items reporter).program.Founded source diagnostic := by
  obtain ⟨told, hreports, hfounded⟩ :=
    (module_regular source items (.start reporter) Program.sound_empty).1.told
  exact ⟨told, hreports, hfounded _ (.refl _)⟩

end EffectLint
