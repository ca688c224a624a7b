import EffectLint.Proofs.Lowering.Module
import EffectLint.Proofs.Scoping.Agreement

/-!
Types, expressions, statements and functions are lowered in the order in which the resolver goes
through them, and every name in the body of a function is found to be what the resolver says. What is
declared at module level is declared in stages, imports and classes first, and each stage leaves the
same names behind as the resolver's.
-/

namespace EffectLint

namespace Lower

namespace Follows

variable {targets : List TypeId}

theorem parameterTypes {parameters : List (Parameter TypeTree)}
    (htypes : ∀ parameter ∈ parameters,
      Follows targets (.type parameter.type) (.type targets parameter.type) (type parameter.type)) :
    Follows targets (.parameterTypes parameters) (.parameterTypes targets parameters)
      (parameterTypes parameters) := by
  induction parameters with
  | nil =>
      rw [Resolver.parameterTypes, Guided.parameterTypes, Lower.parameterTypes]
      exact quiet (nodewise_quiet.pure _)
  | cons first rest ih =>
      rw [Resolver.parameterTypes, Guided.parameterTypes, Lower.parameterTypes]
      have hrest := ih fun parameter hmem => htypes parameter (List.mem_cons_of_mem _ hmem)
      exact (htypes first List.mem_cons_self).bind fun _ => hrest.last fun _ =>
        nodewise_quiet.pure _

theorem type (written : TypeTree) :
    Follows targets (.type written) (.type targets written) (type written) := by
  induction written with
  | Basic span type =>
      rw [Resolver.type, Guided.type, Lower.type]
      exact quiet (nodewise_quiet.pure _)
  | Named span name =>
      rw [Resolver.type, Guided.type]
      exact use (namewise_still.type (.Named span name)) (quiet_siteType name) (type_Named_eq span)
  | Pointer span target ih =>
      rw [Resolver.type, Guided.type, Lower.type]
      exact ih.last fun _ => nodewise_quiet.wrapType _ _
  | Array span element ih =>
      rw [Resolver.type, Guided.type, Lower.type]
      exact ih.last fun _ => nodewise_quiet.wrapType _ _
  | AssocArray span value key ihValue ihKey =>
      rw [Resolver.type, Guided.type, Lower.type]
      refine ihValue.bind fun value => ihKey.bind_skip fun key => ?_
      split
      · exact pure _
      · exact quiet (nodewise_quiet.internType _)
  | Callable span isDelegate promises result parameters ihResult ihParameters =>
      rw [Resolver.type, Guided.type, Lower.type]
      exact ihResult.bind fun _ => (parameterTypes ihParameters).bind_skip fun _ =>
        (quiet (nodewise_quiet.internType _)).bind fun _ => quiet (nodewise_quiet.internType _)
  | Error span =>
      rw [Resolver.type, Guided.type, Lower.type]
      exact quiet (nodewise_quiet.pure _)

variable (source : List Char)

theorem exprs {parts : List Expr}
    (hparts : ∀ part ∈ parts,
      Follows targets (.expr part) (.expr targets source part) (expr source part)) :
    Follows targets (.exprs parts) (.exprs targets source parts) (parts.mapM (expr source)) := by
  induction parts with
  | nil =>
      rw [Resolver.exprs, Guided.exprs, List.mapM_nil]
      exact quiet (nodewise_quiet.pure _)
  | cons first rest ih =>
      rw [Resolver.exprs, Guided.exprs, List.mapM_cons]
      have hrest := ih fun part hmem => hparts part (List.mem_cons_of_mem _ hmem)
      exact (hparts first List.mem_cons_self).bind fun _ => hrest.last fun _ =>
        nodewise_quiet.pure _

theorem expr (written : Expr) :
    Follows targets (.expr written) (.expr targets source written) (expr source written) := by
  induction written using Expr.induction with
  | step whole ih =>
    unfold Resolver.expr Guided.expr
    rw [expr_eq]
    cases whole with
    | Identifier span name =>
        exact use (namewise_still.nameNode name span) (quiet_siteNode name span)
          (nameNode_eq span)
    | Integer | Text | Boolean | Null => exact quiet (nodewise_quiet.leaf _ _ _)
    | Paren span inner => exact ih inner (by simp [Expr.parts])
    | Binary span op left right =>
        exact (ih left (by simp [Expr.parts])).bind fun _ =>
          (ih right (by simp [Expr.parts])).last fun _ =>
          nodewise_quiet.connectiveNode source op span _ _
    | Assign span op target value =>
        exact (ih target (by simp [Expr.parts])).bind fun _ =>
          (ih value (by simp [Expr.parts])).last fun _ => nodewise_quiet.assignNode op span _ _
    | Conditional span condition yes no =>
        exact (ih condition (by simp [Expr.parts])).bind fun _ =>
          (ih yes (by simp [Expr.parts])).bind fun _ =>
          (ih no (by simp [Expr.parts])).last fun _ => nodewise_quiet.conditionalNode span _ _ _
    | Comma span first second =>
        exact (ih first (by simp [Expr.parts])).bind fun _ =>
          (ih second (by simp [Expr.parts])).last fun _ => nodewise_quiet.commaNode span _ _
    | Leading span op operand =>
        exact (ih operand (by simp [Expr.parts])).last fun _ =>
          nodewise_quiet.leadingNode source op span _
    | Step span op operand =>
        exact (ih operand (by simp [Expr.parts])).last fun _ => nodewise_quiet.stepNode op span _
    | Cast span written operand =>
        exact (type written).bind fun _ => (ih operand (by simp [Expr.parts])).last fun _ =>
          nodewise_quiet.castNode _ span _
    | New span name =>
        exact use (namewise_still.newNode name span) (quiet_siteObject name span)
          (newNode_eq span)
    | NewAnonymous span => exact quiet (nodewise_quiet.newAnonymousNode span)
    | Call span callee arguments =>
        have harguments := exprs source fun part hmem => ih part (List.mem_cons_of_mem _ hmem)
        exact (ih callee (by simp [Expr.parts])).bind fun _ => harguments.last fun _ =>
          nodewise_quiet.callNode source span _ _
    | Index span base index =>
        exact (ih base (by simp [Expr.parts])).bind fun _ =>
          (ih index (by simp [Expr.parts])).last fun _ => nodewise_quiet.indexNode source span _ _
    | Remove span container key =>
        exact (ih container (by simp [Expr.parts])).bind fun _ =>
          (ih key (by simp [Expr.parts])).last fun _ => nodewise_quiet.removeNode source span _ _
    | Tuple span elements => exact (exprs source ih).last fun _ => nodewise_quiet.tupleNode span _
    | Assert span condition message =>
        cases message with
        | none =>
            exact (ih condition (by simp [Expr.parts])).last fun lowered =>
              nodewise_quiet.assertNode _ span lowered none
        | some message =>
            refine (ih condition (by simp [Expr.parts])).bind fun lowered => ?_
            exact ((ih message (by simp [Expr.parts])).last fun _ =>
              nodewise_quiet.pure _).last fun _ => nodewise_quiet.assertNode _ span lowered _
    | Declare span name value =>
        exact (ih value (by simp [Expr.parts])).bind fun value =>
          (quiet (nodewise_quiet.typeOf value)).bind fun _ =>
          (declareVariable name _).last fun id => nodewise_quiet.declareNode id name span _
    | Compiles span operand =>
        exact (accepts (ih operand (by simp [Expr.parts]))).last fun _ =>
          nodewise_quiet.leaf _ _ _
    | Error span => exact quiet (nodewise_quiet.errorNode span)

theorem expr? (written : Option Expr) :
    Follows targets (.expr? written) (.expr? targets source written) (expr? source written) := by
  cases written with
  | none => exact quiet (nodewise_quiet.pure _)
  | some written =>
      rw [Lower.expr?, map_eq_pure_bind]
      exact (expr source written).last fun _ => nodewise_quiet.pure _

theorem statements {written : List Statement}
    (hwritten : ∀ one ∈ written,
      Follows targets (.statement one) (.statement targets source one) (statement source one)) :
    Follows targets (.statements written) (.statements targets source written)
      (statements source written) := by
  induction written with
  | nil =>
      rw [Resolver.statements, Guided.statements, Lower.statements]
      exact quiet (nodewise_quiet.pure _)
  | cons first rest ih =>
      rw [Resolver.statements, Guided.statements, Lower.statements]
      have hrest := ih fun one hmem => hwritten one (List.mem_cons_of_mem _ hmem)
      exact (hwritten first List.mem_cons_self).bind fun _ => hrest.last fun _ =>
        nodewise_quiet.pure _

theorem statement (written : Statement) :
    Follows targets (.statement written) (.statement targets source written)
      (statement source written) := by
  induction written with
  | Evaluate value =>
      rw [Resolver.statement, Guided.statement, Lower.statement]
      exact (expr source value).last fun _ => nodewise_quiet.pure _
  | Local declared =>
      rw [Resolver.statement, Guided.statement, Lower.statement, Lower.localVariable]
      simp only [bind_assoc]
      exact (type declared.type).bind fun type => (expr? source declared.value).bind fun value =>
        (declareVariable declared.name type).bind_skip fun id =>
        (quiet (nodewise_quiet.declareNode id declared.name declared.span value)).last fun _ =>
        nodewise_quiet.pure _
  | Return span value =>
      rw [Resolver.statement, Guided.statement, Lower.statement]
      exact (expr? source value).last fun _ => nodewise_quiet.pure _
  | If condition yes no ihyes ihno =>
      cases no with
      | none =>
          rw [Resolver.statement, Guided.statement, Lower.statement]
          exact (expr source condition).bind fun _ => ihyes.inScope.last fun _ =>
            nodewise_quiet.bind (nodewise_quiet.pure _) fun _ => nodewise_quiet.pure _
      | some other =>
          rw [Resolver.statement, Guided.statement, Lower.statement]
          exact (expr source condition).bind fun _ => ihyes.inScope.bind fun _ =>
            (ihno other rfl).inScope.last fun _ => nodewise_quiet.pure _
  | While condition body ih =>
      rw [Resolver.statement, Guided.statement, Lower.statement]
      exact (expr source condition).bind fun _ => ih.inScope.last fun _ => nodewise_quiet.pure _
  | For first condition step body ihfirst ihbody =>
      rw [statement_For_eq]
      cases first with
      | none =>
          rw [Resolver.statement, Guided.statement, first?, pure_bind]
          exact ((expr? source condition).bind fun _ => (expr? source step).bind fun _ =>
            ihbody.inScope.last fun _ => nodewise_quiet.pure _).inScope
      | some one =>
          rw [Resolver.statement, Guided.statement, first?]
          exact ((ihfirst one rfl).bind fun _ => (expr? source condition).bind fun _ =>
            (expr? source step).bind fun _ =>
            ihbody.inScope.last fun _ => nodewise_quiet.pure _).inScope
  | Block span written ih =>
      rw [Resolver.statement, Guided.statement, Lower.statement]
      exact (statements source ih).inScope.last fun _ => nodewise_quiet.pure _
  | Empty span =>
      rw [Resolver.statement, Guided.statement, Lower.statement]
      exact quiet (nodewise_quiet.pure none)

theorem parameters (written : List (Parameter TypeTree)) :
    Follows targets (.parameters written) (.parameters targets written) (parameterVariables written) := by
  induction written with
  | nil =>
      rw [Resolver.parameters, Guided.parameters, Lower.parameterVariables]
      exact quiet (nodewise_quiet.pure ())
  | cons first rest ih =>
      obtain ⟨isRef, written, name⟩ := first
      cases name with
      | none =>
          rw [Resolver.parameters, Guided.parameters, Lower.parameterVariables]
          exact ih
      | some name =>
          rw [Resolver.parameters, Guided.parameters, Lower.parameterVariables]
          have hwritten : Follows targets _ _ _ := type written
          have h := (hwritten.bind fun type => declareVariable name type).bind fun _ => ih
          rwa [bind_assoc, bind_assoc] at h

theorem body (function : FunctionId) (declared : FunctionTree) :
    Follows targets (.body declared) (.body targets source function declared)
      (body source function declared) := by
  have hadd : ∀ body, Quiet (addBody body) := fun body =>
    ⟨⟨fun _ => .addBody body, fun _ => rfl, fun _ => rfl⟩, fun _ _ => rfl⟩
  rw [body_eq, Resolver.body, Guided.body]
  cases declared.body with
  | none => exact quiet (hadd _)
  | some written =>
      have hparameters : Follows targets _ _ _ := parameters declared.parameters
      have hstatements : Follows targets (.statements written.statements) _ _ :=
        statements source fun one _ => statement source one
      have h := (hparameters.bind fun _ => hstatements).inScope.last fun flows =>
        hadd ⟨function, some flows⟩
      rwa [bind_assoc] at h

theorem bodies (functions : List (FunctionId × FunctionTree)) :
    Follows targets (.bodies (functions.map Prod.snd)) (.bodies targets source functions)
      (bodies source functions) := by
  induction functions with
  | nil => exact quiet (nodewise_quiet.pure ())
  | cons first rest ih =>
      rw [bodies_cons]
      exact (body source first.1 first.2).bind fun _ => ih

end Follows

end Lower

namespace Lower

-- The types that aliases are made other names for, in source order, from a state on.
def aliasTargets : List Item → LoweringState → List TypeId
  | [], _ => []
  | .Alias name target :: rest, state =>
      (type target state).1 :: aliasTargets rest (typeAlias (.Alias name target) state).2
  | .Import _ :: rest, state | .Class _ :: rest, state | .Function _ :: rest, state
  | .Global _ :: rest, state => aliasTargets rest state

-- The type of a function as it is declared.
def functionType (declared : FunctionTree) : Lower TypeId := do
  let signature ← signature declared.result declared.parameters declared.promises
  internType (.Function signature)

theorem stepwise_keepsModules : Stepwise (fun {_} body => Keeps Program.modules body) :=
  stepwise_keeps fun _ _ _ _ _ => rfl

theorem stepwise_keepsFunctions : Stepwise (fun {_} body => Keeps Program.functions body) :=
  stepwise_keeps fun _ _ _ _ _ => rfl

theorem still_addModule (entry : ModuleEntry) : Still (addModule entry) :=
  ⟨fun _ => .addModule entry, fun _ => rfl, fun _ => rfl⟩

theorem still_addFunction (entry : FunctionEntry) : Still (addFunction entry) :=
  ⟨fun _ => .addFunction entry, fun _ => rfl, fun _ => rfl⟩

theorem still_addGlobal (value : GlobalValue) : Still (addGlobal value) :=
  ⟨fun _ => .addGlobal value, fun _ => rfl, fun _ => rfl⟩

end Lower

namespace Agrees

variable {targets : List TypeId} {env : Environment} {state : LoweringState}

theorem importItem (h : Agrees targets env state) (name : Name) :
    Agrees targets (env.declare name.text (.Import state.program.modules.size name))
      (Lower.importOrClass (.Import name) state).2 := by
  let entry : ModuleEntry := ⟨(Lower.symbol name.text state).1, name.span⟩
  have hadded := (h.symbol name.text).still (Lower.still_addModule entry)
  have hstands : Stands targets (Lower.addModule entry (Lower.symbol name.text state).2).2.program
      (.Import state.program.modules.size name) (.Module ⟨state.program.modules.size⟩) :=
    .Import (Lower.get?_symbol name.text state) Array.getElem?_push_size
  have hdefined := hadded.define name hstands
  exact hdefined

theorem classItem (h : Agrees targets env state) (name : Name) :
    Agrees targets (env.declare name.text (.Class name))
      (Lower.importOrClass (.Class name) state).2 := by
  have hname := Lower.get?_symbol name.text state
  have hadded := (h.symbol name.text).still
    (Lower.namewise_still.internType (.Class (Lower.symbol name.text state).1))
  have hdefined := hadded.define name (.Class hname TypeTable.shape?_insert)
  exact hdefined

theorem importsAndClasses (items : List Item) {number : Nat} (h : Agrees targets env state)
    (hnumber : state.program.modules.size = number) :
    Agrees targets (env.importsAndClasses items number)
      (items.forM Lower.importOrClass state).2 := by
  induction items generalizing env state number with
  | nil => exact h
  | cons first rest ih =>
      rw [List.forM_eq_forM, List.forM_cons, Lower.bind_apply]
      cases first with
      | Import name =>
          have hmodules : (Lower.importOrClass (.Import name) state).2.program.modules =
              state.program.modules.push ⟨(Lower.symbol name.text state).1, name.span⟩ :=
            Lower.stepwise_keepsModules.define name _ _
          have hsize : (Lower.importOrClass (.Import name) state).2.program.modules.size =
              number + 1 := by
            rw [hmodules, Array.size_push, hnumber]
          exact ih (hnumber ▸ h.importItem name) hsize
      | Class name =>
          have hkept : (Lower.importOrClass (.Class name) state).2.program.modules =
              state.program.modules := Lower.stepwise_keepsModules.define name _ _
          exact ih (h.classItem name) (hkept ▸ hnumber)
      | Alias | Function | Global => exact ih h hnumber

theorem aliasItem (h : Agrees targets env state) {number : Nat} {name : Name} {target : TypeTree}
    (htarget : targets[number]? = some (Lower.type target state).1) :
    Agrees targets (env.declare name.text (.Alias number name))
      (Lower.typeAlias (.Alias name target) state).2 := by
  have htyped := h.still (Lower.namewise_still.type target)
  have hname := Lower.get?_symbol name.text (Lower.type target state).2
  have hadded := (htyped.symbol name.text).still (Lower.namewise_still.internType
    (.Alias (Lower.symbol name.text (Lower.type target state).2).1 (Lower.type target state).1))
  have hdefined := hadded.define name (.Alias hname htarget TypeTable.shape?_insert)
  exact hdefined

-- `front` are the types behind the aliases that came before.
theorem aliases (items : List Item) {front : List TypeId} (h : Agrees targets env state)
    (htargets : targets = front ++ Lower.aliasTargets items state) :
    Agrees targets (env.aliases items front.length) (items.forM Lower.typeAlias state).2 := by
  induction items generalizing env state front with
  | nil => exact h
  | cons first rest ih =>
      rw [List.forM_eq_forM, List.forM_cons, Lower.bind_apply]
      cases first with
      | Alias name target =>
          have htarget : targets[front.length]? = some (Lower.type target state).1 := by
            rw [htargets, Lower.aliasTargets, List.getElem?_append_right (Nat.le_refl _),
              Nat.sub_self]
            rfl
          have hrest : targets = front ++ [(Lower.type target state).1] ++
              Lower.aliasTargets rest (Lower.typeAlias (.Alias name target) state).2 := by
            rw [htargets, Lower.aliasTargets, List.append_assoc, List.singleton_append]
          have hall := ih (h.aliasItem htarget) hrest
          rw [List.length_append] at hall
          exact hall
      | Import | Class | Function | Global => exact ih h htargets

theorem functionItem (h : Agrees targets env state) (declared : FunctionTree) :
    Agrees targets
      (env.declare declared.name.text (.Function state.program.functions.size declared.name))
      (Lower.functionEntry declared state).2 ∧
    (Lower.functionEntry declared state).2.program.functions.size =
      state.program.functions.size + 1 := by
  -- the types in the signature are looked up before the name of the function is known
  have hsteps := Lower.stepwise_keepsFunctions
  have htyped := h.still (Lower.namewise_still.bind
    (Lower.namewise_still.signature declared.result declared.parameters declared.promises)
    fun signature => Lower.namewise_still.internType (.Function signature))
  have hkept : (Lower.functionType declared state).2.program.functions = state.program.functions :=
    hsteps.bind (hsteps.signature _ _ _) (fun _ => hsteps.internType _) state
  let named := Lower.symbol declared.name.text (Lower.functionType declared state).2
  let entry : FunctionEntry :=
    ⟨named.1, (Lower.functionType declared state).1, declared.name.span⟩
  have hpush : (Lower.addFunction entry named.2).2.program.functions =
      state.program.functions.push entry := congrArg (·.push entry) hkept
  have hid : (Lower.addFunction entry named.2).1 = ⟨state.program.functions.size⟩ :=
    congrArg (fun functions => FunctionId.mk functions.size) hkept
  have hstands : Stands targets (Lower.addFunction entry named.2).2.program
      (.Function state.program.functions.size declared.name)
      (.Function (Lower.addFunction entry named.2).1) := by
    have hentry : (Lower.addFunction entry named.2).2.program.functions[
        state.program.functions.size]? = some entry := by
      rw [hpush]
      exact Array.getElem?_push_size
    rw [hid]
    exact .Function (Lower.get?_symbol declared.name.text _) hentry
  have hadded := (htyped.symbol declared.name.text).still (Lower.still_addFunction entry)
  have hdefined := hadded.define declared.name hstands
  have hfunctions : (Lower.functionEntry declared state).2.program.functions =
      (Lower.addFunction entry named.2).2.program.functions := hsteps.define declared.name _ _
  refine ⟨hdefined, ?_⟩
  rw [hfunctions, hpush, Array.size_push]

theorem globalItem (h : Agrees targets env state) (source : List Char) (declared : VariableTree) :
    Agrees targets (Resolver.expr? declared.value (env.declareVariable declared.name)).2
      (Lower.globalVariable source declared state).2 := by
  have htyped := h.still (Lower.namewise_still.type declared.type)
  have hdeclared := htyped.declareVariable declared.name (Lower.type declared.type state).1 true
  have hvalue := (Lower.Follows.expr? source declared.value).agrees _ _ hdeclared
  exact hvalue.still (Lower.still_addGlobal _)

theorem functionsAndGlobals {source : List Char} {items : List Item} {number : Nat}
    (h : Agrees targets env state) (hnumber : state.program.functions.size = number) :
    Agrees targets (env.functionsAndGlobals items number)
      (Lower.functionsAndGlobals source items state).2 := by
  induction items generalizing env state number with
  | nil => exact h
  | cons first rest ih =>
      rw [Lower.functionsAndGlobals, Lower.bind_apply, Lower.bind_apply, Lower.pure_apply]
      cases first with
      | Function declared =>
          obtain ⟨hdeclared, hsize⟩ := h.functionItem declared
          exact ih (hnumber ▸ hdeclared) (hnumber ▸ hsize)
      | Global declared =>
          have hkept : (Lower.globalVariable source declared state).2.program.functions =
              state.program.functions :=
            Lower.stepwise_keepsFunctions.globalVariable source (fun _ => Lower.accepts_keeps)
              (fun _ _ => rfl) declared state
          exact ih (h.globalItem source declared) (hkept ▸ hnumber)
      | Import | Class | Alias => exact ih h hnumber

end Agrees

namespace Lower

-- The functions come back in source order.
theorem functionsAndGlobals_functions (source : List Char) (items : List Item)
    (state : LoweringState) :
    (functionsAndGlobals source items state).1.map Prod.snd = items.filterMap Item.function? := by
  induction items generalizing state with
  | nil => rfl
  | cons first rest ih =>
      rw [functionsAndGlobals, bind_apply, bind_apply, pure_apply, List.map_append, ih]
      cases first <;> rfl

-- What the aliases of a module are other names for.
def aliasTypes (items : List Item) (reporter : Reporter) : List TypeId :=
  aliasTargets items (items.forM importOrClass (.start reporter)).2

theorem aliases_agrees (items : List Item) (reporter : Reporter) :
    Agrees (aliasTypes items reporter) (Environment.aliases items 0 (.importsAndClasses items 0 .empty))
      (items.forM typeAlias (items.forM importOrClass (.start reporter)).2).2 := by
  have hstart : Agrees (aliasTypes items reporter) .empty (.start reporter) :=
    ⟨.cons .nil .nil, rfl⟩
  have hnamed := hstart.importsAndClasses items (show _ = 0 from rfl)
  exact hnamed.aliases items (List.nil_append _).symm

-- Behind everything but the bodies, the scope of the module is the environment of the module.
theorem outside_agrees (source : List Char) (items : List Item) (reporter : Reporter) :
    Agrees (aliasTypes items reporter) (.module items)
      (outside source items (.start reporter)).2 := by
  refine (aliases_agrees items reporter).functionsAndGlobals ?_
  have hsteps := stepwise_keepsFunctions
  have himported := hsteps.forM (hsteps.importOrClass fun _ _ => rfl) items (.start reporter)
  have hkept := hsteps.forM hsteps.typeAlias items (items.forM importOrClass (.start reporter)).2
  exact congrArg Array.size (hkept.trans himported)

end Lower

open Lower

-- Behind everything but the bodies, the answers of the resolver are all that lowering needs of the
-- scopes: told what each name stands for, it uses up the answers, each for the name that it is about,
-- and comes to the same program and the same reports, whatever the scopes hold. What an answer says a
-- name stands for has been entered in the program. Expressions and statements leave the scopes as they
-- were, but for new names in the innermost one.
theorem names_resolve_lexically (source : List Char) (items : List Item) (reporter : Reporter) :
    let targets := aliasTypes items reporter
    let known := outside source items (.start reporter)
    let lowered := lower source items reporter
    let answers := Resolver.ofBodies items
    (∀ scopes, Guided.bodies targets source known.1 answers { known.2 with scopes } =
      (((), []), { lowered with scopes })) ∧
    (∀ answer ∈ answers, ∀ site ∈ answer.site,
      ∃ binding, Stands targets lowered.program site binding) ∧
    (∀ written, AddsNames (expr source written)) ∧
    ∀ written, AddsNames (statement source written) := by
  intro targets known lowered answers
  have hagrees := outside_agrees source items reporter
  have hfollows : Follows targets (.bodies (known.1.map Prod.snd))
      (.bodies targets source known.1) (bodies source known.1) := .bodies source known.1
  have hfunctions : known.1.map Prod.snd = items.filterMap Item.function? :=
    functionsAndGlobals_functions source items _
  rw [hfunctions] at hfollows
  have hlowered : lowered = (bodies source known.1 known.2).2 := lower_eq ..
  refine ⟨fun scopes => ?_, ?_, fun written => ?_, fun written => ?_⟩
  · have hbuilt := hfollows.built _ _ hagrees [] scopes
    rw [List.append_nil] at hbuilt
    rw [hlowered]
    exact hbuilt
  · rw [hlowered]
    exact hfollows.answers _ _ hagrees
  · exact (Follows.expr source written : Follows [] _ _ _).adds
  · exact (Follows.statement source written : Follows [] _ _ _).adds

-- `int f() { int x = x; { auto x = __traits(compiles, auto y = x); y; } x; }`
example (span : Span) :
    Resolver.ofBodies [.Function ⟨span, ⟨"f", span⟩, .none, .Basic span .Integer, [], some ⟨span, [
      .Local ⟨span, .Basic span .Integer, ⟨"x", span⟩, some (.Identifier span "x")⟩,
      .Block span [
        .Evaluate (.Declare span ⟨"x", span⟩
          (.Compiles span (.Declare span ⟨"y", span⟩ (.Identifier span "x")))),
        .Evaluate (.Identifier span "y")],
      .Evaluate (.Identifier span "x")]⟩⟩] =
      [.Use "x" none, .Declare "x" none, .Use "x" (some (.Variable 0 ⟨"x", span⟩)),
        .Declare "y" none, .Declare "x" none, .Use "y" none,
        .Use "x" (some (.Variable 0 ⟨"x", span⟩))] := by
  rfl

end EffectLint
