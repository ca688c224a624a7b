import EffectLint.Proofs.Lowering.Module

/-!
The rest of a module is lowered behind each point. What is made at a point stays, and it was made
in silence if the whole module was lowered in silence.
-/

namespace EffectLint

namespace Lower

variable {source : List Char} {state : LoweringState}

theorem from_pop (state : LoweringState) : (popScope state).2.From state :=
  ⟨.refl _, [], 0, (Reporter.after_nil _).symm⟩

theorem statements_runs (source : List Char) (written : List Statement) (hsound : state.Sound) :
    RunsAt (statements source written) (fun _ _ => True) state :=
  statements_run (fun one _ _ => statement_runs source one) hsound

theorem scoped_runs (source : List Char) (written : Statement) (hsound : state.Sound) :
    RunsAt (inScope (statement source written)) (fun _ _ => True) state :=
  .inScope hsound fun _ _ => statement_runs source written

-- What comes of the first statement is there when the others are lowered.
theorem from_first (first : Statement) (rest : List Statement) (hsound : state.Sound) :
    (statements source (first :: rest) state).2.From (statement source first state).2 := by
  rw [statements, bind_apply, bind_apply, pure_apply]
  exact (statements_runs source rest (statement_runs source first hsound).sound).after

theorem statements_one (written : Statement) (state : LoweringState) :
    (statements source [written] state).2 = (statement source written state).2 := by
  rw [statements, bind_apply, bind_apply, pure_apply, statements]
  rfl

theorem from_scope (written : Statement) (state : LoweringState) :
    (inScope (statement source written) state).2.From
      (statements source [written] (pushScope state).2).2 := by
  rw [inScope_apply, statements_one]
  exact from_pop _

-- A point in a statement, and what has been lowered when the statement is done.
structure Passed (source : List Char) (part : Expr) (point later : LoweringState) : Prop where
  written : part.AllWritten
  sound : point.Sound
  behind : later.From (expr source part point).2

theorem Passed.more {part : Expr} {point later last : LoweringState}
    (h : Passed source part point later) (hlast : last.From later) : Passed source part point last :=
  { h with behind := h.behind.trans hlast }

theorem Visits.passed {whole part : Expr} {point : LoweringState}
    (h : Visits source whole state part point) (hsound : state.Sound) (hwritten : whole.AllWritten) :
    Passed source part point (expr source whole state).2 := by
  obtain ⟨hpoint, _, hbehind⟩ := h.spec hsound
  exact ⟨h.written hwritten, hpoint, hbehind⟩

theorem passed_Local {declared : VariableTree} {value part : Expr} {point : LoweringState}
    (hvalue : declared.value = some value) (hsound : state.Sound)
    (h : Passed source part point (expr source value (type declared.type state).2).2) :
    Passed source part point (statement source (.Local declared) state).2 := by
  obtain ⟨hpoint, hafter⟩ := @localDeclared_runs source state declared hsound
  rw [hvalue, expr?_apply] at hafter
  rw [statement, bind_apply, pure_apply, localVariable_apply]
  exact h.more (hafter.trans (RunsAt.declareNode hpoint _ declared.name declared.span _).after)

theorem passed_LocalName {declared : VariableTree} {value : Expr}
    (hvalue : declared.value = some value) (hsound : state.Sound)
    (hwritten : (Lexeme.name declared.name.text).Valid)
    (hkind : (expr source value (type declared.type state).2).2.program.arena.kind
      (expr source value (type declared.type state).2).1 ≠ .Error)
    (hname : (localDeclared source declared state).2.program.binding?
      (localDeclared source declared state).2.scopes declared.name.text =
        some (.Variable (localDeclared source declared state).1)) :
    Passed source (.Identifier declared.name.span declared.name.text)
      (localDeclared source declared state).2 (statement source (.Local declared) state).2 := by
  obtain ⟨hpoint, hafter⟩ := @localDeclared_runs source state declared hsound
  rw [hvalue, expr?_apply] at hafter
  have htype := type_runs declared.type hsound
  have hnode := (expr_runs source value htype.sound).answer
  have hexpr := expr_runs source (.Identifier declared.name.span declared.name.text) hpoint
  have hknown := Program.Sound.variableType_known hpoint (localDeclared source declared state).1
  refine ⟨.of_parts hwritten (List.forall_mem_nil _), hpoint, ?_⟩
  rw [statement, bind_apply, pure_apply, localVariable_apply, hvalue, expr?_apply,
    declareNode_apply _ _ _ ((hnode.kind_eq hafter.grows).trans_ne hkind) hname, bind_apply]
  exact (constructNode_runs hexpr.sound _ declared.name declared.span
    (hknown.keeps hexpr.after.grows.types) _ _).after

theorem If_from_yes {condition : Expr} {yes : Statement} {no : Option Statement}
    (hsound : state.Sound) : (statement source (.If condition yes no) state).2.From
      (inScope (statement source yes) (expr source condition state).2).2 := by
  have hcondition := expr_runs source condition hsound
  have hyes := scoped_runs source yes hcondition.sound
  rw [statement, bind_apply, bind_apply]
  cases no with
  | none => exact .refl _
  | some other => exact (scoped_runs source other hyes.sound).after

theorem first?_runs (source : List Char) (first : Option Statement) (hsound : state.Sound) :
    RunsAt (first? source first) (fun _ _ => True) state := by
  cases first with
  | none => exact .pure hsound trivial
  | some one => exact statement_runs source one hsound

-- The parts of the head of a loop are lowered one behind the other, and its body behind them.
theorem For_from {first : Option Statement} {condition step : Option Expr} {body : Statement}
    (hsound : state.Sound) :
    let opened := (first? source first (pushScope state).2).2
    let tested := (expr? source condition opened).2
    let stepped := (expr? source step tested).2
    let done := (statement source (.For first condition step body) state).2
    opened.Sound ∧ tested.Sound ∧ stepped.Sound ∧ done.From opened ∧ done.From tested ∧
      done.From stepped ∧ done.From (inScope (statement source body) stepped).2 := by
  intro opened tested stepped done
  have hopened := first?_runs source first (show (pushScope state).2.Sound from Program.Sound.push hsound)
  have htested := expr?_runs source condition hopened.sound
  have hstepped := expr?_runs source step htested.sound
  have hdone : done.From (inScope (statement source body) stepped).2 := by
    have hrun : done = (popScope (inScope (statement source body) stepped).2).2 := by
      change (statement source (.For first condition step body) state).2 = _
      rw [statement_For_eq, inScope_apply]
      rfl
    rw [hrun]
    exact from_pop _
  have hlast := (scoped_runs source body hstepped.sound).after.trans hdone
  exact ⟨hopened.sound, htested.sound, hstepped.sound, htested.after.trans (hstepped.after.trans hlast),
    hstepped.after.trans hlast, hlast, hdone⟩

theorem VisitsIn.passed {written : List Statement} {part : Expr} {point : LoweringState}
    (h : VisitsIn source written state part point) (hsound : state.Sound)
    (hwritten : ∀ one ∈ written, one.AllWritten) :
    Passed source part point (statements source written state).2 := by
  induction h with
  | @Later first rest state part point h ih =>
      have hrest := List.forall_mem_cons.mp hwritten
      rw [statements, bind_apply, bind_apply, pure_apply]
      exact ih (statement_runs source first hsound).sound hrest.2
  | @Evaluate value rest state part point h =>
      have hvalue : value.AllWritten := by
        cases hwritten _ List.mem_cons_self
        assumption
      refine .more ?_ (from_first _ _ hsound)
      rw [statement, bind_apply, pure_apply]
      exact h.passed hsound hvalue
  | @Return span value rest state part point h =>
      have hvalue : value.AllWritten := by
        cases hwritten _ List.mem_cons_self with
        | Return hvalue => exact hvalue value rfl
      refine .more ?_ (from_first _ _ hsound)
      rw [statement, bind_apply, pure_apply, expr?_apply]
      exact h.passed hsound hvalue
  | @Local declared value rest state part point hvalue h =>
      have hdeclared : declared.AllWritten := by
        cases hwritten _ List.mem_cons_self
        assumption
      refine .more ?_ (from_first _ _ hsound)
      exact passed_Local hvalue hsound
        (h.passed (type_runs declared.type hsound).sound (hdeclared.2.2 value hvalue))
  | @LocalName declared value rest state hvalue hkind hname =>
      have hdeclared : declared.AllWritten := by
        cases hwritten _ List.mem_cons_self
        assumption
      exact .more (passed_LocalName hvalue hsound hdeclared.2.1 hkind hname) (from_first _ _ hsound)
  | @Condition condition yes no rest state part point h =>
      have hcondition : condition.AllWritten := by
        cases hwritten _ List.mem_cons_self
        assumption
      have hlowered := (expr_runs source condition hsound).sound
      refine .more ?_ (from_first _ _ hsound)
      exact ((h.passed hsound hcondition).more (scoped_runs source yes hlowered).after).more
        (If_from_yes hsound)
  | @Yes condition yes no rest state part point h ih =>
      have hyes : yes.AllWritten := by
        cases hwritten _ List.mem_cons_self
        assumption
      have hlowered := (expr_runs source condition hsound).sound
      refine .more ?_ (from_first _ _ hsound)
      exact ((ih (Program.Sound.push hlowered) (List.forall_mem_singleton.mpr hyes)).more
        (from_scope yes _)).more (If_from_yes hsound)
  | @No condition yes no rest state part point h ih =>
      have hno : no.AllWritten := by
        cases hwritten _ List.mem_cons_self with
        | If _ _ hno => exact hno no rfl
      have hlowered := (expr_runs source condition hsound).sound
      have hyes := (scoped_runs source yes hlowered).sound
      refine .more ?_ (from_first _ _ hsound)
      refine (ih (Program.Sound.push hyes) (List.forall_mem_singleton.mpr hno)).more ?_
      rw [statement, bind_apply, bind_apply]
      exact from_scope no _
  | @WhileCondition condition body rest state part point h =>
      have hcondition : condition.AllWritten := by
        cases hwritten _ List.mem_cons_self
        assumption
      have hlowered := (expr_runs source condition hsound).sound
      refine .more ?_ (from_first _ _ hsound)
      exact (h.passed hsound hcondition).more (scoped_runs source body hlowered).after
  | @WhileBody condition body rest state part point h ih =>
      have hbody : body.AllWritten := by
        cases hwritten _ List.mem_cons_self
        assumption
      have hlowered := (expr_runs source condition hsound).sound
      refine .more ?_ (from_first _ _ hsound)
      exact (ih (Program.Sound.push hlowered) (List.forall_mem_singleton.mpr hbody)).more
        (from_scope body _)
  | @First first condition step body rest state part point h ih =>
      have hfirst : first.AllWritten := by
        cases hwritten _ List.mem_cons_self with
        | For hfirst => exact hfirst first rfl
      obtain ⟨-, -, -, hdone, -⟩ := @For_from source state (some first) condition step body hsound
      refine .more ?_ (from_first _ _ hsound)
      have hinside := ih (Program.Sound.push hsound) (List.forall_mem_singleton.mpr hfirst)
      rw [statements_one] at hinside
      exact hinside.more hdone
  | @ForCondition first condition step body rest state part point h =>
      have hcondition : condition.AllWritten := by
        cases hwritten _ List.mem_cons_self with
        | For _ hcondition => exact hcondition condition rfl
      obtain ⟨hopened, -, -, -, hdone, -⟩ :=
        @For_from source state first (some condition) step body hsound
      refine .more ?_ (from_first _ _ hsound)
      exact (h.passed hopened hcondition).more hdone
  | @Step first condition step body rest state part point h =>
      have hstep : step.AllWritten := by
        cases hwritten _ List.mem_cons_self with
        | For _ _ hstep => exact hstep step rfl
      obtain ⟨-, htested, -, -, -, hdone, -⟩ :=
        @For_from source state first condition (some step) body hsound
      refine .more ?_ (from_first _ _ hsound)
      exact (h.passed htested hstep).more hdone
  | @ForBody first condition step body rest state part point h ih =>
      have hbody : body.AllWritten := by
        cases hwritten _ List.mem_cons_self
        assumption
      obtain ⟨-, -, hstepped, -, -, -, hdone⟩ := @For_from source state first condition step body hsound
      refine .more ?_ (from_first _ _ hsound)
      exact ((ih (Program.Sound.push hstepped) (List.forall_mem_singleton.mpr hbody)).more
        (from_scope body _)).more hdone
  | @Block span written rest state part point h ih =>
      have hinner : ∀ one ∈ written, one.AllWritten := by
        cases hwritten _ List.mem_cons_self
        assumption
      refine .more ?_ (from_first _ _ hsound)
      rw [statement, bind_apply, pure_apply, inScope_apply]
      exact (ih (Program.Sound.push hsound) hinner).more (from_pop _)

end Lower

open Lower

-- The node of each expression that a silently lowered module comes to is in the end still there.
theorem LowersAt.madeAt {source : List Char} {items : List Item} {reporter : Reporter} {part : Expr}
    {point : LoweringState} (h : LowersAt source items reporter part point)
    (hwritten : ∀ item ∈ items, item.AllWritten) (hsilent : (lower source items reporter).Silent) :
    MadeAt source (lower source items reporter).program (expr source part point).1 part point := by
  obtain ⟨front, function, declared, back, written, hsplit, hdeclared, hvisits⟩ := h
  have houtside := (@outside_runs source items (.start reporter) Program.sound_empty).sound
  have hfront := (bodies_run source front houtside).sound
  have hentered := parameterVariables_runs declared.parameters
    (show (pushScope (bodies source front (outside source items (.start reporter)).2).2).2.Sound from
      Program.Sound.push hfront)
  have hfunction : declared.AllWritten := by
    refine hwritten (.Function declared) (@outside_functions source items (.start reporter)
      (function, declared) ?_)
    rw [hsplit]
    simp
  have hpassed := hvisits.passed hentered.sound (hfunction.2.2.2.2 written hdeclared)
  have hbehind := @bodies_from source front back function declared written hdeclared _ houtside
  rw [← hsplit, ← lower_eq, inScope_apply] at hbehind
  have hafter := (hpassed.more (from_pop _)).more hbehind
  exact ⟨hafter.written, hafter.sound, hafter.behind.silent hsilent, hafter.behind.grows, rfl⟩

end EffectLint
