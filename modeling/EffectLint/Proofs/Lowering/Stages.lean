import EffectLint.Proofs.Lowering.Bodies

/-!
The stages of lowering a module, from its statements to its items. What holds of the steps of
lowering an expression, and of each way to add to a module, holds of every stage. So lowering only
adds to a program, and nothing but errors is said on the way: a module that is lowered without an
error is lowered in silence.
-/

namespace EffectLint

namespace Lower

-- The bodies of the functions, one behind the other.
def bodies (source : List Char) (functions : List (FunctionId × FunctionTree)) : Lower Unit :=
  functions.forM fun (function, declared) => body source function declared

-- What holds of computations that are put together, and of a computation in a scope of its own.
structure Stagewise (P : ∀ {α : Type}, Lower α → Prop) : Prop where
  pure : ∀ {α : Type} (answer : α), P (Pure.pure answer : Lower α)
  bind : ∀ {α β : Type} {first : Lower α} {next : α → Lower β},
    P first → (∀ answer, P (next answer)) → P (first >>= next)
  inScope : ∀ {α : Type} {body : Lower α}, P body → P (inScope body)

namespace Stagewise

variable {P : ∀ {α : Type}, Lower α → Prop} (stages : Stagewise @P) (source : List Char)

include stages

theorem statements {written : List Statement}
    (hwritten : ∀ one ∈ written, P (statement source one)) : P (statements source written) := by
  induction written with
  | nil =>
      rw [Lower.statements]
      exact stages.pure []
  | cons first rest ih =>
      rw [Lower.statements]
      exact stages.bind (hwritten first List.mem_cons_self) fun _ =>
        stages.bind (ih fun one hmem => hwritten one (List.mem_cons_of_mem _ hmem)) fun _ =>
        stages.pure _

theorem forM {α : Type} {step : α → Lower Unit} (hstep : ∀ item, P (step item)) (items : List α) :
    P (items.forM step) := by
  induction items with
  | nil => exact stages.pure ()
  | cons first rest ih =>
      rw [List.forM_eq_forM, List.forM_cons]
      exact stages.bind (hstep first) fun _ => ih

variable (hexpr : ∀ written, P (expr source written))

include hexpr

theorem expr? (written : Option Expr) : P (expr? source written) := by
  cases written with
  | none => exact stages.pure (none : Option NodeId)
  | some written =>
      rw [Lower.expr?, map_eq_pure_bind]
      exact stages.bind (hexpr written) fun _ => stages.pure _

variable (hlocal : ∀ declared, P (localVariable source declared))

include hlocal

theorem statement (written : Statement) : P (statement source written) := by
  induction written with
  | Evaluate value =>
      rw [Lower.statement]
      exact stages.bind (hexpr value) fun _ => stages.pure _
  | Local declared =>
      rw [Lower.statement]
      exact stages.bind (hlocal declared) fun _ => stages.pure _
  | Return span value =>
      rw [Lower.statement]
      exact stages.bind (stages.expr? source hexpr value) fun _ => stages.pure _
  | If condition yes no ihyes ihno =>
      rw [Lower.statement]
      refine stages.bind (hexpr condition) fun _ => stages.bind (stages.inScope ihyes) fun _ => ?_
      cases no with
      | none => exact stages.bind (stages.pure _) fun _ => stages.pure _
      | some other => exact stages.bind (stages.inScope (ihno other rfl)) fun _ => stages.pure _
  | While condition body ih =>
      rw [Lower.statement]
      exact stages.bind (hexpr condition) fun _ =>
        stages.bind (stages.inScope ih) fun _ => stages.pure _
  | For first condition step body ihfirst ihbody =>
      rw [statement_For_eq]
      have hfirst : P (first? source first) := by
        cases first with
        | none => exact stages.pure _
        | some one => exact ihfirst one rfl
      exact stages.inScope (stages.bind hfirst fun _ =>
        stages.bind (stages.expr? source hexpr condition) fun _ =>
        stages.bind (stages.expr? source hexpr step) fun _ =>
        stages.bind (stages.inScope ihbody) fun _ => stages.pure _)
  | Block span written ih =>
      rw [Lower.statement]
      exact stages.bind (stages.inScope (stages.statements source ih)) fun _ => stages.pure _
  | Empty span =>
      rw [Lower.statement]
      exact stages.pure none

end Stagewise

namespace Stepwise

variable {P : ∀ {α : Type}, Lower α → Prop} (steps : Stepwise @P)
  (source : List Char)

include steps

theorem stagewise : Stagewise @P :=
  ⟨steps.pure, steps.bind, steps.inScope⟩

theorem statements {written : List Statement}
    (hwritten : ∀ one ∈ written, P (statement source one)) : P (statements source written) :=
  steps.stagewise.statements source hwritten

theorem parameterVariables (parameters : List (Parameter TypeTree)) :
    P (parameterVariables parameters) := by
  induction parameters with
  | nil => exact steps.pure ()
  | cons first rest ih =>
      rw [Lower.parameterVariables]
      cases first.name with
      | none => exact ih
      | some name =>
          exact steps.bind (steps.type first.type) fun _ =>
            steps.bind (steps.declareVariable name _ false) fun _ => ih

variable (haccepts : ∀ body : Lower NodeId, P body → P (accepts body))

include haccepts

theorem expr? (written : Option Expr) : P (expr? source written) :=
  steps.stagewise.expr? source (fun written => steps.expr source written fun _ => haccepts) written

theorem localVariable (declared : VariableTree) : P (localVariable source declared) :=
  steps.bind (steps.type declared.type) fun _ =>
    steps.bind (steps.expr? source haccepts declared.value) fun _ =>
    steps.bind (steps.declareVariable declared.name _ false) fun id =>
    steps.declareNode id declared.name declared.span _

theorem statement (written : Statement) : P (statement source written) :=
  steps.stagewise.statement source (fun written => steps.expr source written fun _ => haccepts)
    (steps.localVariable source haccepts) written

theorem block (parameters : List (Parameter TypeTree)) (written : List Statement) :
    P (block source parameters written) :=
  steps.bind (steps.parameterVariables parameters) fun _ =>
    steps.statements source fun one _ => steps.statement source haccepts one

section Items

omit haccepts

theorem forM {α : Type} {step : α → Lower Unit} (hstep : ∀ item, P (step item)) (items : List α) :
    P (items.forM step) :=
  steps.stagewise.forM hstep items

theorem importOrClass (haddModule : ∀ entry, P (addModule entry)) (item : Item) :
    P (importOrClass item) := by
  cases item with
  | Import name =>
      exact steps.bind (steps.symbol _) fun _ => steps.bind (haddModule _) fun _ =>
        steps.define _ _
  | Class name =>
      exact steps.bind (steps.symbol _) fun _ => steps.bind (steps.internType _) fun _ =>
        steps.define _ _
  | _ => exact steps.pure ()

theorem typeAlias (item : Item) : P (typeAlias item) := by
  cases item with
  | Alias name target =>
      exact steps.bind (steps.type target) fun _ => steps.bind (steps.symbol _) fun _ =>
        steps.bind (steps.internType _) fun _ => steps.define _ _
  | _ => exact steps.pure ()

variable (haddFunction : ∀ entry, P (addFunction entry))

include haddFunction

theorem functionEntry (declared : FunctionTree) : P (functionEntry declared) :=
  steps.bind (steps.signature _ _ _) fun _ => steps.bind (steps.internType _) fun _ =>
    steps.bind (steps.symbol _) fun _ => steps.bind (haddFunction _) fun _ =>
    steps.bind (steps.define _ _) fun _ => steps.pure _

variable (haddGlobal : ∀ value, P (addGlobal value))

include haccepts haddGlobal

omit haddFunction in
theorem globalVariable (declared : VariableTree) : P (globalVariable source declared) :=
  steps.bind (steps.type _) fun _ => steps.bind (steps.declareVariable _ _ _) fun _ =>
    steps.bind (steps.expr? source haccepts declared.value) fun _ => haddGlobal _

theorem functionsAndGlobals (items : List Item) : P (functionsAndGlobals source items) := by
  induction items with
  | nil => exact steps.pure []
  | cons first rest ih =>
      have hfirst : P (functionOrGlobal source first) := by
        cases first with
        | Function declared =>
            exact steps.bind (steps.functionEntry haddFunction declared) fun _ => steps.pure _
        | Global declared =>
            exact steps.bind (steps.globalVariable source haccepts haddGlobal declared) fun _ =>
              steps.pure _
        | _ => exact steps.pure []
      exact steps.bind hfirst fun _ => steps.bind ih fun _ => steps.pure _

theorem outside (haddModule : ∀ entry, P (addModule entry)) (items : List Item) :
    P (outside source items) :=
  steps.bind (steps.forM (steps.importOrClass haddModule) items) fun _ =>
    steps.bind (steps.forM steps.typeAlias items) fun _ =>
    steps.functionsAndGlobals source haccepts haddFunction haddGlobal items

end Items

theorem bodies (haddBody : ∀ body, P (addBody body)) (functions : List (FunctionId × FunctionTree)) :
    P (bodies source functions) := by
  refine steps.forM (fun function => ?_) functions
  change P (body source function.1 function.2)
  rw [body_eq]
  cases function.2.body with
  | none => exact haddBody _
  | some written =>
      exact steps.bind (steps.inScope (steps.block source haccepts _ written.statements)) fun _ =>
        haddBody _

end Stepwise

-- What is kept of the program by everything but the stage that adds to it.
def Keeps {α β : Type} (part : Program → β) (body : Lower α) : Prop :=
  ∀ state, part (body state).2.program = part state.program

theorem stepwise_keeps {β : Type} {part : Program → β}
    (hpart : ∀ program names types arena declared,
      part { program with names, types, arena, declared } = part program) :
    Stepwise (fun {_} body => Keeps part body) where
  pure _ _ := rfl
  bind hfirst hnext state := (hnext _ _).trans (hfirst state)
  read _ _ := rfl
  lookup _ _ := rfl
  report _ _ _ := rfl
  inScope hbody state := hbody (pushScope state).2
  symbol _ state := hpart state.program _ _ _ _
  internType _ state := hpart state.program _ _ _ _
  addNode _ state := hpart state.program _ _ _ _
  addVariable _ state := hpart state.program _ _ _ _
  define name binding state := by
    rw [define_apply]
    split <;> exact hpart state.program _ _ _ _

theorem accepts_keeps {β : Type} {part : Program → β} {body : Lower NodeId} (hbody : Keeps part body) :
    Keeps part (accepts body) :=
  fun state => hbody (pushScope (startGag state).2).2

end Lower

namespace Lower

def Grows {α : Type} (body : Lower α) : Prop :=
  ∀ state, (body state).2.program.Extends state.program

theorem define_extends (name : Name) (binding : Binding) (state : LoweringState) :
    (define name binding state).2.program.Extends state.program := by
  rw [define_apply]
  split <;> exact .insertName name.text

theorem stepwise_grows : Stepwise (fun {_} body => Grows body) where
  pure _ _ := .refl _
  bind hfirst hnext state := (hfirst state).trans (hnext _ _)
  read _ _ := .refl _
  report _ _ _ := .refl _
  symbol name _ := .insertName name
  internType shape _ := .insertType shape
  addNode node _ := .addNode node
  lookup _ _ := .refl _
  inScope hbody state := hbody (pushScope state).2
  addVariable entry _ := .addVariable entry
  define name binding state := define_extends name binding state

theorem accepts_grows {body : Lower NodeId} (hbody : Grows body) : Grows (accepts body) :=
  fun state => hbody (pushScope (startGag state).2).2

section

variable (source : List Char)

theorem expr?_grows (written : Option Expr) : Grows (expr? source written) :=
  stepwise_grows.expr? source (fun _ => accepts_grows) written

theorem statement_grows (written : Statement) : Grows (statement source written) :=
  stepwise_grows.statement source (fun _ => accepts_grows) written

theorem statements_grows (written : List Statement) : Grows (statements source written) :=
  stepwise_grows.statements source fun one _ => statement_grows source one

theorem bodies_grows (functions : List (FunctionId × FunctionTree)) :
    Grows (bodies source functions) :=
  stepwise_grows.bodies source (fun _ => accepts_grows) (fun body _ => .addBody body) functions

end

end Lower

namespace Reporter

def OnlyErrors (reporter : Reporter) : Prop :=
  ∀ diagnostic ∈ reporter.diagnostics, diagnostic.isError = true

theorem OnlyErrors.report {reporter : Reporter} {diagnostic : Diagnostic} (h : reporter.OnlyErrors)
    (herror : diagnostic.isError = true) : (reporter.report diagnostic).OnlyErrors := by
  unfold Reporter.report
  split
  · exact h
  · intro other hother
    rcases Array.mem_push.mp hother with hother | rfl
    · exact h other hother
    · exact herror

end Reporter

namespace Lower

def SaysErrors {α : Type} (body : Lower α) : Prop :=
  ∀ state, state.reporter.OnlyErrors → (body state).2.reporter.OnlyErrors

theorem stepwise_saysErrors : Stepwise (fun {_} body => SaysErrors body) where
  pure _ _ h := h
  bind hfirst hnext state h := hnext _ _ (hfirst state h)
  read _ _ h := h
  lookup _ _ h := h
  report _ herror _ h := h.report herror
  inScope hbody state h := hbody (pushScope state).2 h
  symbol _ _ h := h
  internType _ _ h := h
  addNode _ _ h := h
  addVariable _ _ h := h
  define name binding state h := by
    rw [define_apply]
    split
    · exact h.report rfl
    · exact h

theorem accepts_saysErrors {body : Lower NodeId} (hbody : SaysErrors body) :
    SaysErrors (accepts body) :=
  fun state h => hbody (pushScope (startGag state).2).2 h

theorem module_saysErrors (source : List Char) (items : List Item) :
    SaysErrors (Lower.module source items) := by
  have hsteps := stepwise_saysErrors
  rw [module_eq]
  refine hsteps.bind (hsteps.outside source (fun _ => accepts_saysErrors) (fun _ _ h => h)
    (fun _ _ h => h) (fun _ _ h => h) items) fun functions => ?_
  exact hsteps.bodies source (fun _ => accepts_saysErrors) (fun _ _ h => h) functions

end Lower

open Lower

-- What has been reported stays, and nobody is left gagged.
theorem lower_reporter (source : List Char) (items : List Item) (mode : WarningMode)
    (diagnostics : Array Diagnostic) :
    (lower source items (.start mode diagnostics)).reporter.isGagged = false ∧
      ∃ told, (lower source items (.start mode diagnostics)).reporter.diagnostics =
        diagnostics ++ told := by
  have hruns : RunsAt (Lower.module source items) (fun _ _ => True)
      (.start (.start mode diagnostics)) := module_runs source items Program.sound_empty
  obtain ⟨told, hidden, hsaid⟩ := hruns.after.said
  have hreporter : (lower source items (.start mode diagnostics)).reporter =
      (Reporter.start mode diagnostics).after told hidden := hsaid
  rw [hreporter]
  exact ⟨rfl, told.toArray, rfl⟩

theorem lower_silent {source : List Char} {items : List Item} {mode : WarningMode}
    (hclean : Diagnostics.hasErrors
      (lower source items (.start mode #[])).reporter.diagnostics.toList = false) :
    (lower source items (.start mode #[])).Silent := by
  have herrors : (lower source items (.start mode #[])).reporter.OnlyErrors :=
    module_saysErrors source items (.start (.start mode #[])) fun _ hmem =>
      absurd hmem (Array.not_mem_empty _)
  refine ⟨(lower_reporter source items mode #[]).1, Array.eq_empty_iff_forall_not_mem.mpr ?_⟩
  intro diagnostic hmem
  exact absurd (herrors diagnostic hmem) (List.any_eq_false.mp hclean diagnostic hmem.val)

end EffectLint
