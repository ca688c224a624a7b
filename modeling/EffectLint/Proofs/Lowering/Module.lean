import EffectLint.Proofs.Lowering.Stages

/-!
The points at which lowering a module comes to the expressions in the bodies of its functions and to
the values of its global variables. Only a lowered body is added to the bodies of a program, so every
body of the program is one that was lowered behind everything else of the module and the bodies before
it. Only the declaration of a global variable adds to the values of global variables.
-/

namespace EffectLint

namespace Lower

section

variable {source : List Char}

theorem stepwise_keepsBodies : Stepwise (fun {_} body => Keeps Program.bodies body) :=
  stepwise_keeps fun _ _ _ _ _ => rfl

theorem block_keepsBodies (parameters : List (Parameter TypeTree)) (written : List Statement) :
    Keeps Program.bodies (block source parameters written) :=
  stepwise_keepsBodies.block source (fun _ => accepts_keeps) parameters written

theorem outside_keepsBodies (items : List Item) : Keeps Program.bodies (outside source items) :=
  stepwise_keepsBodies.outside source (fun _ => accepts_keeps) (fun _ _ => rfl) (fun _ _ => rfl)
    (fun _ _ => rfl) items

-- Every function that is given back stands in the module.
theorem functions_written (items : List Item) (state : LoweringState) :
    ∀ function ∈ (functionsAndGlobals source items state).1, Item.Function function.2 ∈ items := by
  induction items generalizing state with
  | nil =>
      intro function hmem
      cases hmem
  | cons first rest ih =>
      intro function hmem
      rw [functionsAndGlobals, bind_apply, bind_apply, pure_apply] at hmem
      rcases List.mem_append.mp hmem with hmem | hmem
      · cases first with
        | Function declared =>
            rw [functionOrGlobal, bind_apply, pure_apply] at hmem
            obtain rfl := List.mem_singleton.mp hmem
            exact List.mem_cons_self
        | _ => cases hmem
      · exact List.mem_cons_of_mem _ (ih _ function hmem)

theorem bodies_cons (first : FunctionId × FunctionTree) (rest : List (FunctionId × FunctionTree)) :
    bodies source (first :: rest) = (do
      body source first.1 first.2
      bodies source rest) := by
  rw [bodies, List.forM_eq_forM, List.forM_cons]
  rfl

-- A new body of the program is that of one of the functions, lowered behind the ones before.
theorem mem_bodies {functions : List (FunctionId × FunctionTree)} {state : LoweringState}
    {added : FunctionBody} (h : added ∈ (bodies source functions state).2.program.bodies) :
    added ∈ state.program.bodies ∨ ∃ front function declared back,
      functions = front ++ (function, declared) :: back ∧
      added.body = declared.body.map fun written =>
        (inScope (block source declared.parameters written.statements)
          (bodies source front state).2).1 := by
  induction functions generalizing state with
  | nil => exact .inl h
  | cons first rest ih =>
      rw [bodies_cons, bind_apply] at h
      rcases ih h with h | ⟨front, function, declared, back, rfl, hbody⟩
      · rw [body_eq] at h
        cases hdeclared : first.2.body with
        | none =>
            rw [hdeclared] at h
            rcases Array.mem_push.mp h with h | rfl
            · exact .inl h
            · exact .inr ⟨[], first.1, first.2, rest, rfl, by rw [hdeclared]; rfl⟩
        | some written =>
            rw [hdeclared] at h
            have hkeeps : (inScope (block source first.2.parameters written.statements)
                state).2.program.bodies = state.program.bodies :=
              stepwise_keepsBodies.inScope (block_keepsBodies _ _) state
            rcases Array.mem_push.mp h with h | rfl
            · exact .inl (hkeeps ▸ h)
            · exact .inr ⟨[], first.1, first.2, rest, rfl, by rw [hdeclared]; rfl⟩
      · refine .inr ⟨first :: front, function, declared, back, rfl, ?_⟩
        rw [bodies_cons, bind_apply]
        exact hbody

theorem bodies_append (front back : List (FunctionId × FunctionTree)) :
    bodies source (front ++ back) = (do
      bodies source front
      bodies source back) := by
  rw [bodies, List.forM_eq_forM, List.forM_append]
  rfl

-- What is lowered in one of the bodies stays for the others.
theorem bodies_from {front back : List (FunctionId × FunctionTree)} {function : FunctionId}
    {declared : FunctionTree} {written : Block} (hdeclared : declared.body = some written)
    {state : LoweringState} (hsound : state.Sound) :
    (bodies source (front ++ (function, declared) :: back) state).2.From
      (inScope (block source declared.parameters written.statements)
        (bodies source front state).2).2 := by
  have hfront := (bodies_run source front hsound).sound
  have hblock : RunsAt (inScope (block source declared.parameters written.statements))
      (fun _ _ => True) (bodies source front state).2 :=
    .inScope hfront fun _ _ => block_runs source declared.parameters written.statements
  have hbody := (body_runs source function declared hfront).sound
  rw [bodies_append, bind_apply, bodies_cons, bind_apply]
  refine .trans ?_ (bodies_run source back hbody).after
  rw [body_eq, hdeclared]
  exact (RunsAt.addBody hblock.sound _).after

theorem outside_functions (items : List Item) (state : LoweringState) :
    ∀ function ∈ (outside source items state).1, Item.Function function.2 ∈ items :=
  functions_written items _

-- What is lowered of a module before the statements of a function.
def entering (source : List Char) (items : List Item) (front : List (FunctionId × FunctionTree))
    (declared : FunctionTree) : Lower Unit := do
  let _ ← outside source items
  bodies source front
  pushScope
  parameterVariables declared.parameters

end

end Lower

-- Lowering a module comes to an expression in the body of a function at a point.
def LowersAt (source : List Char) (items : List Item) (reporter : Reporter) (part : Expr)
    (point : LoweringState) : Prop :=
  ∃ front function declared back written,
    (Lower.outside source items (.start reporter)).1 = front ++ (function, declared) :: back ∧
      declared.body = some written ∧
      Lower.VisitsIn source written.statements
        (Lower.entering source items front declared (.start reporter)).2 part point

-- What can be reached from the bodies of a program.
def Program.Reaches (program : Program) (id : NodeId) : Prop :=
  ∃ body ∈ program.bodies, ∃ flows ∈ body.body, ∃ flow ∈ flows, ∃ value, flow.Has value ∧
    program.arena.Below value id

open Lower

theorem lower_eq (source : List Char) (items : List Item) (reporter : Reporter) :
    lower source items reporter =
      (bodies source (outside source items (.start reporter)).1
        (outside source items (.start reporter)).2).2 := by
  have hmodule := module_eq source items
  have hrun : lower source items reporter = (Lower.module source items (.start reporter)).2 := rfl
  rw [hrun, hmodule]
  rfl

-- A body of a lowered module is that of one of its functions, lowered in a scope of its own behind
-- the bodies before it, and the module goes on from there.
theorem exists_block {source : List Char} {items : List Item} {reporter : Reporter}
    {added : FunctionBody} (hadded : added ∈ (lower source items reporter).program.bodies)
    {flows : List Flow} (hflows : flows ∈ added.body) :
    ∃ front function declared back written point,
      (outside source items (.start reporter)).1 = front ++ (function, declared) :: back ∧
      Item.Function declared ∈ items ∧ declared.body = some written ∧
      point = (bodies source front (outside source items (.start reporter)).2).2 ∧ point.Sound ∧
      flows = (block source declared.parameters written.statements (pushScope point).2).1 ∧
      (lower source items reporter).From
        (inScope (block source declared.parameters written.statements) point).2 := by
  have hsound : (outside source items (.start reporter)).2.Sound :=
    (@outside_runs source items (.start reporter) Program.sound_empty).sound
  rw [lower_eq] at hadded ⊢
  rcases mem_bodies hadded with hnone | ⟨front, function, declared, back, hsplit, hbody⟩
  · have hkeeps : (outside source items (.start reporter)).2.program.bodies = #[] :=
      outside_keepsBodies items (.start reporter)
    rw [hkeeps] at hnone
    cases Array.not_mem_empty _ hnone
  · have hitem : Item.Function declared ∈ items :=
      @outside_functions source items (.start reporter) (function, declared) (by simp [hsplit])
    cases hdeclared : declared.body with
    | none =>
        rw [hdeclared] at hbody
        rw [hbody] at hflows
        cases hflows
    | some written =>
        rw [hdeclared, Option.map_some] at hbody
        rw [hbody] at hflows
        obtain rfl := Option.some.inj hflows
        have hbehind := @bodies_from source front back function declared written hdeclared _ hsound
        rw [← hsplit] at hbehind
        exact ⟨front, function, declared, back, written, _, hsplit, hitem, hdeclared, rfl,
          (bodies_run source front hsound).sound, rfl, hbehind⟩

-- Everything that a silently lowered body is made of was made at one of the points.
theorem exists_lowersAt {source : List Char} {items : List Item} {reporter : Reporter}
    (hwritten : ∀ item ∈ items, item.AllWritten) (hsilent : (lower source items reporter).Silent)
    {id : NodeId} (hreaches : (lower source items reporter).program.Reaches id)
    (hkind : ((lower source items reporter).program.arena.kind id).declares = false) :
    ∃ part point, LowersAt source items reporter part point ∧
      MadeAt source (lower source items reporter).program id part point := by
  obtain ⟨added, hadded, flows, hflows, flow, hflow, value, hvalue, hbelow⟩ := hreaches
  obtain ⟨front, function, declared, back, written, inner, hsplit, hitem, hdeclared, rfl, hinner, rfl,
    hbehind⟩ := exists_block hadded hflows
  have hentered := parameterVariables_runs declared.parameters
    (show (pushScope (bodies source front (outside source items (.start reporter)).2).2).2.Sound from
      Program.Sound.push hinner)
  have hquiet := hbehind.silent hsilent
  have hfunction : declared.AllWritten := hwritten (.Function declared) hitem
  obtain ⟨part, point, hvisit, hmade⟩ := covered_statements (fun one _ => covered source one)
    (hfunction.2.2.2.2 written hdeclared) hentered.sound ⟨hquiet.1, hquiet.2⟩ hbehind.grows flow
    hflow value hvalue id hbelow hkind
  exact ⟨part, point, ⟨front, function, declared, back, written, hsplit, hdeclared, hvisit⟩, hmade⟩

-- What can be reached from the first values of the global variables of a program.
def Program.ReachesFromGlobals (program : Program) (id : NodeId) : Prop :=
  ∃ added ∈ program.globals, ∃ value ∈ added.value, program.arena.Below value id

namespace Lower

variable {source : List Char} {state : LoweringState}

-- A node that was made in silence is not wrong, nor is anything below it.
theorem MadeAt.fine {later : Program} {id : NodeId} {whole : Expr} {point : LoweringState}
    (h : MadeAt source later id whole point) : later.arena.kind id ≠ .Error := by
  obtain ⟨hwritten, hsound, hsilent, hgrows, rfl⟩ := h
  have hnode := (expr_runs source whole hsound).answer
  exact (hnode.kind_eq hgrows).trans_ne (expr_fine hwritten hsound hsilent)

theorem MadeAt.fine_below {later : Program} {root id : NodeId} {whole : Expr} {point : LoweringState}
    (h : MadeAt source later root whole point) (hbelow : later.arena.Below root id) :
    later.arena.kind id ≠ .Error := by
  obtain ⟨hwritten, hsound, hsilent, hgrows, rfl⟩ := h
  intro herror
  obtain ⟨_, _, _, hmade⟩ := exists_madeAt hwritten hsound hsilent hgrows hbelow
    (congrArg NodeKind.declares herror)
  exact hmade.fine herror

-- The values of some global variables that a later program holds.
def AllMade (source : List Char) (later : Program) (globals : Array GlobalValue) : Prop :=
  ∀ added ∈ globals, ∀ value ∈ added.value, ∃ whole point, MadeAt source later value whole point

theorem AllMade.push {later : Program} {globals : Array GlobalValue} {added : GlobalValue}
    (h : AllMade source later globals)
    (hadded : ∀ value ∈ added.value, ∃ whole point, MadeAt source later value whole point) :
    AllMade source later (globals.push added) := by
  intro other hother
  rcases Array.mem_push.mp hother with hother | rfl
  · exact h other hother
  · exact hadded

theorem stepwise_keepsGlobals : Stepwise (fun {_} body => Keeps Program.globals body) :=
  stepwise_keeps fun _ _ _ _ _ => rfl

theorem globalVariable_made {declared : VariableTree} (hwritten : declared.AllWritten)
    (hsound : state.Sound) {later : Program}
    (hsilent : (globalVariable source declared state).2.Silent)
    (hlater : later.Extends (globalVariable source declared state).2.program)
    (hbefore : AllMade source later state.program.globals) :
    AllMade source later (globalVariable source declared state).2.program.globals := by
  have hsteps := stepwise_keepsGlobals
  have htype := type_runs declared.type hsound
  have hname := RunsAt.declareVariable htype.sound declared.name true htype.answer
  have hvalue := expr?_runs source declared.value hname.sound
  have hkept : (expr? source declared.value (declareVariable declared.name (type declared.type state).1
      true (type declared.type state).2).2).2.program.globals = state.program.globals :=
    ((hsteps.expr? source (fun _ => accepts_keeps) declared.value _).trans
      (hsteps.declareVariable declared.name _ true _)).trans (hsteps.type declared.type state)
  rw [globalVariable, bind_apply, bind_apply, bind_apply] at hsilent hlater ⊢
  have hadded := RunsAt.addGlobal hvalue.sound ⟨(declareVariable declared.name
    (type declared.type state).1 true (type declared.type state).2).1, (expr? source declared.value
      (declareVariable declared.name (type declared.type state).1 true
        (type declared.type state).2).2).1⟩
  have hquiet := hadded.after.silent hsilent
  have hgrows := hadded.after.grows.trans hlater
  refine AllMade.push (hkept ▸ hbefore) fun value hmem => ?_
  cases hfirst : declared.value with
  | none =>
      rw [hfirst] at hmem
      cases hmem
  | some whole =>
      rw [hfirst, expr?_apply] at hmem hquiet hgrows
      exact ⟨whole, _, hwritten.2.2 whole hfirst, hname.sound, hquiet, hgrows, Option.some.inj hmem⟩

theorem functionsAndGlobals_made {items : List Item} (hwritten : ∀ item ∈ items, item.AllWritten)
    (hsound : state.Sound) {later : Program}
    (hsilent : (functionsAndGlobals source items state).2.Silent)
    (hlater : later.Extends (functionsAndGlobals source items state).2.program)
    (hbefore : AllMade source later state.program.globals) :
    AllMade source later (functionsAndGlobals source items state).2.program.globals := by
  induction items generalizing state with
  | nil => exact hbefore
  | cons first rest ih =>
      obtain ⟨hfirst, hrest⟩ := List.forall_mem_cons.mp hwritten
      have hone := functionOrGlobal_runs hsound source first
      have htwo := functionsAndGlobals_runs source rest hone.sound
      refine ih hrest hone.sound hsilent hlater ?_
      have hquiet := htwo.after.silent hsilent
      have hgrows := htwo.after.grows.trans hlater
      cases first with
      | Function declared =>
          have hkept : Keeps Program.globals (functionEntry declared) :=
            stepwise_keepsGlobals.functionEntry (fun _ _ => rfl) declared
          exact (hkept state).symm ▸ hbefore
      | Global declared => exact globalVariable_made hfirst hsound hquiet hgrows hbefore
      | _ => exact hbefore

end Lower

open Lower

-- In a silently lowered module every value of a global variable was made at some point.
theorem lower_allMade {source : List Char} {items : List Item} {reporter : Reporter}
    (hwritten : ∀ item ∈ items, item.AllWritten) (hsilent : (lower source items reporter).Silent) :
    AllMade source (lower source items reporter).program (lower source items reporter).program.globals := by
  have hsteps := stepwise_keepsGlobals
  obtain ⟨state, hstate⟩ : ∃ state : LoweringState, state =
      (items.forM typeAlias (items.forM importOrClass (.start reporter)).2).2 := ⟨_, rfl⟩
  have houtside : outside source items (.start reporter) = functionsAndGlobals source items state := by
    rw [hstate]
    rfl
  have hnone : state.program.globals = #[] := by
    rw [hstate]
    exact (hsteps.forM hsteps.typeAlias items _).trans
      (hsteps.forM (hsteps.importOrClass fun _ _ => rfl) items (.start reporter))
  have hclasses : RunsAt (items.forM importOrClass) (fun _ _ => True) (.start reporter) :=
    .forM items (fun item _ _ h => importOrClass_runs h item) Program.sound_empty
  have hsound : state.Sound := by
    rw [hstate]
    exact (RunsAt.forM items (fun item _ _ h => typeAlias_runs h item) hclasses.sound).sound
  have hglobals := (functionsAndGlobals_runs source items hsound).sound
  have hbodies := bodies_run source (functionsAndGlobals source items state).1 hglobals
  have hkept : Keeps Program.globals (bodies source (functionsAndGlobals source items state).1) :=
    hsteps.bodies source (fun _ => accepts_keeps) (fun _ _ => rfl) _
  rw [lower_eq, houtside] at hsilent ⊢
  rw [hkept]
  exact functionsAndGlobals_made hwritten hsound (hbodies.after.silent hsilent) hbodies.after.grows
    (by rw [hnone]; exact fun _ hmem => absurd hmem (Array.not_mem_empty _))

end EffectLint
