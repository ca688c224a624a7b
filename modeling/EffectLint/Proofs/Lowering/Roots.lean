import EffectLint.Proofs.Lowering.Module
import EffectLint.Proofs.Lowering.Joined

/-!
The values that a lowered module holds. Each stage of lowering a module adds the trees of new values
and leaves those before it alone, so the values of the module are the roots of trees that stand side
by side.
-/

namespace EffectLint

namespace Flow

mutual

-- The values that stand in a lowered statement, thrown away or not.
def values : Flow → List NodeId
  | .Evaluate value => [value]
  | .Return value => value.toList
  | .If condition yes no =>
      condition :: yes.values ++
        match no with
        | some no => no.values
        | none => []
  | .While condition body => condition :: body.values
  | .For first condition step body =>
      let header := match first with
        | some first => first.values
        | none => []
      header ++ condition.toList ++ step.toList ++ body.values
  | .Block statements => valuesAll statements

def valuesAll : List Flow → List NodeId
  | [] => []
  | first :: rest => first.values ++ valuesAll rest

end

theorem valuesAll_append (front back : List Flow) :
    valuesAll (front ++ back) = valuesAll front ++ valuesAll back := by
  induction front with
  | nil => rfl
  | cons first rest ih => simp [valuesAll, ih]

-- Nothing stands in the empty statement that takes the place of a missing one.
theorem values_getD (flow : Option Flow) :
    (flow.getD (.Block [])).values = valuesAll flow.toList := by
  cases flow <;> simp [values, valuesAll]

end Flow

def FunctionBody.values (function : FunctionBody) : List NodeId :=
  match function.body with
  | some statements => Flow.valuesAll statements
  | none => []

-- The values of global variables and those in the bodies of functions.
def Program.roots (program : Program) : List NodeId :=
  program.globals.toList.flatMap (·.value.toList) ++
    program.bodies.toList.flatMap FunctionBody.values

namespace Lower

variable (source : List Char)

-- The branch behind `else`. An empty one leaves an empty block.
def otherwise? : Option Statement → Lower (Option Flow)
  | some other => do
      let flow ← inScope (statement source other)
      return some (flow.getD (.Block []))
  | none => return none

theorem statement_If_eq (condition : Expr) (yes : Statement) (no : Option Statement) :
    statement source (.If condition yes no) = (do
      let condition ← expr source condition
      let yes ← inScope (statement source yes)
      let no ← otherwise? source no
      return some (.If condition (yes.getD (.Block [])) no)) := by
  rw [statement]
  cases no with
  | none => simp only [otherwise?, pure_bind]
  | some other => simp only [otherwise?, bind_assoc, pure_bind]

theorem localVariable_joins (declared : VariableTree) :
    Joins [] (localVariable source declared) (fun id => [id]) := by
  exact .still (Nodeless.type declared.type) fun _ => .bind (.expr? source declared.value) fun value =>
    .still (Nodeless.declareVariable _ _ _) fun id => .declareNode id declared.name declared.span value

theorem statements_joins {written : List Statement}
    (hwritten : ∀ one ∈ written,
      Joins [] (statement source one) (fun flow => Flow.valuesAll flow.toList)) :
    Joins [] (statements source written) Flow.valuesAll := by
  induction written with
  | nil =>
      rw [statements]
      exact .pure rfl
  | cons first rest ih =>
      rw [statements]
      have hrest := ih fun one hmem => hwritten one (List.mem_cons_of_mem _ hmem)
      exact (hwritten first List.mem_cons_self).bind fun one =>
        .bind (.beside _ hrest) fun others => .pure (Flow.valuesAll_append _ _)

theorem statement_joins (written : Statement) :
    Joins [] (statement source written) (fun flow => Flow.valuesAll flow.toList) := by
  induction written with
  | Evaluate value =>
      rw [statement]
      exact (Joins.expr source value).bind fun id => .pure (by simp [Flow.values, Flow.valuesAll])
  | Local declared =>
      rw [statement]
      exact (localVariable_joins source declared).bind fun id =>
        .pure (by simp [Flow.values, Flow.valuesAll])
  | Return span value =>
      rw [statement]
      exact (Joins.expr? source value).bind fun id =>
        .pure (by simp [Flow.values, Flow.valuesAll])
  | If condition yes no ihyes ihno =>
      rw [statement_If_eq]
      have hno : Joins [] (otherwise? source no) (fun flow => Flow.valuesAll flow.toList) := by
        cases no with
        | none => exact .pure rfl
        | some other =>
            exact (ihno other rfl).inScope.bind fun flow =>
              .pure (by simp [Flow.valuesAll, Flow.values_getD])
      refine (Joins.expr source condition).bind fun id => .bind (.beside [id] ihyes.inScope) fun yes =>
        .bind (.beside _ hno) fun no => .pure ?_
      cases no <;> simp [Flow.values, Flow.valuesAll, Flow.values_getD]
  | While condition body ih =>
      rw [statement]
      exact (Joins.expr source condition).bind fun id => .bind (.beside [id] ih.inScope) fun body =>
        .pure (by simp [Flow.values, Flow.valuesAll, Flow.values_getD])
  | For first condition step body ihfirst ihbody =>
      rw [statement_For_eq]
      have hfirst : Joins [] (first? source first) (fun flow => Flow.valuesAll flow.toList) := by
        cases first with
        | none => exact .pure rfl
        | some one => exact ihfirst one rfl
      refine (hfirst.bind fun first => .bind (.beside _ (.expr? source condition)) fun condition =>
        .bind (.beside _ (.expr? source step)) fun step => .bind (.beside _ ihbody.inScope) fun body =>
        .pure ?_).inScope
      cases first <;> simp [Flow.values, Flow.valuesAll, Flow.values_getD]
  | Block span written ih =>
      rw [statement]
      exact (statements_joins source ih).inScope.bind fun flows =>
        .pure (by simp [Flow.values, Flow.valuesAll])
  | Empty span =>
      rw [statement]
      exact .pure rfl

-- The same for a computation that may add to the values of the module.
def Plants {α : Type} (taken : List NodeId) (body : Lower α) (given : α → List NodeId) : Prop :=
  ∀ state, state.program.arena.Forest (state.program.roots ++ taken) →
    (body state).2.program.arena.Forest ((body state).2.program.roots ++ given (body state).1)

theorem stepwise_keepsRoots : Stepwise (fun {_} body => Keeps Program.roots body) :=
  stepwise_keeps fun _ _ _ _ _ => rfl

namespace Plants

variable {α β : Type} {taken : List NodeId} {given : α → List NodeId} {given' : β → List NodeId}

theorem pure {answer : α} (hgiven : given answer = taken) :
    Plants taken (Pure.pure answer) given := by
  subst hgiven
  exact fun _ h => h

theorem bind {first : Lower α} {next : α → Lower β} (hfirst : Plants taken first given)
    (hnext : ∀ answer, Plants (given answer) (next answer) given') :
    Plants taken (first >>= next) given' :=
  fun state h => hnext _ _ (hfirst state h)

theorem of_joins {body : Lower α} (h : Joins [] body given) (hkeeps : Keeps Program.roots body) :
    Plants [] body given := by
  intro state hforest
  rw [hkeeps state]
  exact h state.program.roots state hforest

theorem still {body : Lower α} (h : Nodeless body) (hkeeps : Keeps Program.roots body) :
    Plants [] body fun _ => [] := by
  intro state hforest
  rw [hkeeps state, h state]
  exact hforest

theorem forM {step : α → Lower Unit} (hstep : ∀ item, Plants [] (step item) fun _ => [])
    (items : List α) : Plants [] (items.forM step) fun _ => [] := by
  induction items with
  | nil => exact pure rfl
  | cons first rest ih =>
      rw [List.forM_eq_forM, List.forM_cons]
      exact bind (hstep first) fun _ => ih

theorem addGlobal (id : VariableId) (value : Option NodeId) :
    Plants value.toList (addGlobal ⟨id, value⟩) fun _ => [] := by
  intro state h
  refine h.perm ?_
  simp only [Lower.addGlobal, Program.roots, Array.toList_push, List.flatMap_append,
    List.flatMap_cons, List.flatMap_nil, List.append_nil, List.append_assoc]
  exact (List.perm_append_comm).append_left _

theorem addBody (added : FunctionBody) : Plants added.values (addBody added) fun _ => [] := by
  intro state h
  simpa only [Lower.addBody, Program.roots, Array.toList_push, List.flatMap_append,
    List.flatMap_cons, List.flatMap_nil, List.append_nil, List.append_assoc] using h

end Plants

theorem importOrClass_nodeless (item : Item) : Nodeless (importOrClass item) := by
  cases item with
  | Import name | Class name =>
      exact .bind (fun _ => rfl) fun _ => .bind (fun _ => rfl) fun _ => .define _ _
  | _ => exact fun _ => rfl

theorem typeAlias_nodeless (item : Item) : Nodeless (typeAlias item) := by
  cases item with
  | Alias name target =>
      exact .bind (.type target) fun _ => .bind (fun _ => rfl) fun _ => .bind (fun _ => rfl) fun _ =>
        .define _ _
  | _ => exact fun _ => rfl

theorem importOrClass_plants (item : Item) : Plants [] (importOrClass item) fun _ => [] :=
  .still (importOrClass_nodeless item) (stepwise_keepsRoots.importOrClass (fun _ _ => rfl) item)

theorem typeAlias_plants (item : Item) : Plants [] (typeAlias item) fun _ => [] :=
  .still (typeAlias_nodeless item) (stepwise_keepsRoots.typeAlias item)

theorem functionEntry_plants (declared : FunctionTree) :
    Plants [] (functionEntry declared) fun _ => [] := by
  refine .still ?_ (stepwise_keepsRoots.functionEntry (fun _ _ => rfl) declared)
  have hsignature : Nodeless (signature declared.result declared.parameters declared.promises) :=
    .bind (.type _) fun _ => .bind (.parameterTypes fun _ _ => .type _) fun _ _ => rfl
  exact .bind hsignature fun _ => .bind (fun _ => rfl) fun _ => .bind (fun _ => rfl) fun _ =>
    .bind (fun _ => rfl) fun _ => .bind (.define _ _) fun _ _ => rfl

theorem globalVariable_plants (declared : VariableTree) :
    Plants [] (globalVariable source declared) fun _ => [] := by
  have hsteps := stepwise_keepsRoots
  have htype : Plants [] (type declared.type) fun _ => [] := .still (.type _) (hsteps.type _)
  have hvalue : Plants [] (expr? source declared.value) Option.toList :=
    .of_joins (.expr? source _) (hsteps.expr? source (fun _ => accepts_keeps) _)
  exact htype.bind fun type => .bind (.still (.declareVariable _ type true)
    (hsteps.declareVariable _ _ _)) fun id => hvalue.bind fun value => .addGlobal id value

theorem functionsAndGlobals_plants (items : List Item) :
    Plants [] (functionsAndGlobals source items) fun _ => [] := by
  induction items with
  | nil => exact .pure rfl
  | cons first rest ih =>
      have hfirst : Plants [] (functionOrGlobal source first) fun _ => [] := by
        cases first with
        | Function declared => exact (functionEntry_plants declared).bind fun _ => .pure rfl
        | Global declared => exact (globalVariable_plants source declared).bind fun _ => .pure rfl
        | _ => exact .pure rfl
      exact hfirst.bind fun _ => ih.bind fun _ => .pure rfl

theorem parameterVariables_nodeless (parameters : List (Parameter TypeTree)) :
    Nodeless (parameterVariables parameters) := by
  induction parameters with
  | nil => exact fun _ => rfl
  | cons first rest ih =>
      rw [parameterVariables]
      cases first.name with
      | none => exact ih
      | some name =>
          exact .bind (.type first.type) fun _ => .bind (.declareVariable name _ false) fun _ => ih

theorem body_plants (function : FunctionId) (declared : FunctionTree) :
    Plants [] (body source function declared) fun _ => [] := by
  rw [body_eq]
  cases declared.body with
  | none => exact .addBody ⟨function, none⟩
  | some written =>
      have hblock : Joins [] (block source declared.parameters written.statements) Flow.valuesAll :=
        .still (parameterVariables_nodeless _) fun _ =>
          statements_joins source fun one _ => statement_joins source one
      have hkeeps := stepwise_keepsRoots.inScope (stepwise_keepsRoots.block source
        (fun _ => accepts_keeps) declared.parameters written.statements)
      exact (Plants.of_joins hblock.inScope hkeeps).bind fun flows => .addBody ⟨function, some flows⟩

theorem module_plants (items : List Item) :
    Plants [] (Lower.module source items) fun _ => [] := by
  rw [module_eq]
  have houtside : Plants [] (outside source items) fun _ => [] :=
    (Plants.forM importOrClass_plants items).bind fun _ =>
      (Plants.forM typeAlias_plants items).bind fun _ => functionsAndGlobals_plants source items
  exact houtside.bind fun functions => .forM (fun function => body_plants source _ _) functions

end Lower

open Lower

theorem lower_forest (source : List Char) (items : List Item) (reporter : Reporter) :
    (lower source items reporter).program.arena.Forest
      (lower source items reporter).program.roots := by
  have h := module_plants source items (.start reporter) Arena.Forest.empty
  rw [List.append_nil] at h
  exact h

-- Operands come before the node that they belong to. No node is met twice among the operands of
-- all nodes, and its parent is the node among whose operands it is. The values that the module
-- holds are distinct nodes without a parent, and no two of them have a node in common.
theorem lowered_arena_is_forest (source : List Char) (items : List Item) (reporter : Reporter) :
    let program := (lower source items reporter).program
    let arena := program.arena
    (∀ parent child, child ∈ arena.operands parent → child.index < parent.index) ∧
      arena.allOperands.Nodup ∧
      (∀ parent child, arena.parent? child = some parent ↔ child ∈ arena.operands parent) ∧
      program.roots.Nodup ∧
      (∀ root ∈ program.roots, root.index < arena.size ∧ arena.parent? root = none) ∧
      program.roots.Pairwise fun left right =>
        ∀ id, ¬(arena.Below left id ∧ arena.Below right id) := by
  intro program arena
  have hforest : arena.Forest program.roots := lower_forest source items reporter
  exact ⟨fun _ _ => hforest.wf.operand_lt, hforest.wf.allOperands_nodup,
    fun _ _ => hforest.wf.parent?_eq_some_iff, hforest.distinct, hforest.free, hforest.disjoint⟩

-- In `int x = 1 && 2;` the two operands are no roots.
example :
    let value : Expr := .Binary ⟨8, 14⟩ .AndAnd (.Integer ⟨8, 9⟩ 1) (.Integer ⟨13, 14⟩ 2)
    let items : List Item := [.Global ⟨⟨0, 15⟩, .Basic ⟨0, 3⟩ .Integer, ⟨"x", ⟨4, 5⟩⟩, some value⟩]
    (lower "int x = 1 && 2;".toList items (.start .Off #[])).program.roots = [⟨2⟩] := by
  decide +kernel

end EffectLint
