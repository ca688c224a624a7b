import EffectLint.Lowering.Module
import EffectLint.Proofs.Arena.Growth
import EffectLint.Proofs.Lowering.Steps

/-!
What the answer to `__traits(compiles, …)` means. Lowering never looks at the reporter: it makes
the same nodes and declarations and says the same things whether or not anyone listens. So what
is swallowed while the question is answered is what lowering the operand by itself would say, and
under a gag nothing is lost: every error that is not reported is counted.
-/

namespace EffectLint

namespace Reporter

-- A reporter that was told so much, with so many more errors swallowed by gags that have ended.
def after (reporter : Reporter) (told : List Diagnostic) (hidden : Nat) : Reporter :=
  if reporter.isGagged then
    { reporter with swallowed := reporter.swallowed + Diagnostics.errorCount told + hidden }
  else
    { reporter with
      diagnostics := reporter.diagnostics ++ told.toArray
      swallowed := reporter.swallowed + hidden }

theorem after_nil (reporter : Reporter) : reporter.after [] 0 = reporter := by
  unfold after
  split <;> simp [Diagnostics.errorCount]

theorem report_eq_after (reporter : Reporter) (diagnostic : Diagnostic) :
    reporter.report diagnostic = reporter.after [diagnostic] 0 := by
  unfold report after
  split
  · split
    · next herror => simp [Diagnostics.errorCount, herror]
    · next herror => simp [Diagnostics.errorCount, herror]
  · simp

theorem after_after (reporter : Reporter) (first second : List Diagnostic) (one two : Nat) :
    (reporter.after first one).after second two = reporter.after (first ++ second) (one + two) := by
  cases hgag : reporter.isGagged with
  | true =>
      have hnext : (reporter.after first one).isGagged = true := by
        rw [after, if_pos hgag]
        exact hgag
      rw [after, if_pos hnext, after, if_pos hgag, after, if_pos hgag]
      simp only [Diagnostics.errorCount, List.countP_append]
      congr 1
      omega
  | false =>
      have hopen : ¬reporter.isGagged = true := by simp [hgag]
      have hnext : ¬(reporter.after first one).isGagged = true := by
        rw [after, if_neg hopen]
        exact hopen
      rw [after, if_neg hnext, after, if_neg hopen, after, if_neg hopen]
      simp [Nat.add_assoc]

-- A gag that ends leaves the reports as they were and counts what was swallowed.
theorem endGag_after (reporter : Reporter) (told : List Diagnostic) (hidden : Nat) :
    (reporter.startGag.2.after told hidden).endGag reporter.startGag.1 =
      (Diagnostics.errorCount told + hidden != 0,
        reporter.after [] (Diagnostics.errorCount told + hidden)) := by
  have hgagged : reporter.startGag.2.isGagged = true := by simp [startGag, isGagged]
  have hchanged : (reporter.swallowed + Diagnostics.errorCount told + hidden !=
      reporter.swallowed) = (Diagnostics.errorCount told + hidden != 0) := by
    rw [Bool.eq_iff_iff, bne_iff_ne, bne_iff_ne]
    omega
  rw [after, if_pos hgagged, endGag]
  refine Prod.ext hchanged ?_
  unfold after
  split <;> simp [startGag, Diagnostics.errorCount, Nat.add_assoc]

end Reporter

namespace Lower

theorem bind_apply {α β : Type} (first : Lower α) (next : α → Lower β) (state : LoweringState) :
    (first >>= next) state = next (first state).1 (first state).2 := rfl

-- What the computation answers, makes and says does not depend on the reporter. Errors are only
-- swallowed by gags of its own if it asks questions.
def IgnoresReporter (asks : Prop) {α : Type} (body : Lower α) : Prop :=
  ∀ program scopes, ∃ answer made around told hidden, (¬asks → hidden = 0) ∧
    ∀ reporter, body ⟨program, scopes, reporter⟩ =
      (answer, ⟨made, around, reporter.after told hidden⟩)

-- A question is answered by what its operand says and makes under a gag.
theorem accepts_apply {body : Lower NodeId} {program made : Program} {scopes around : Scopes}
    {reporter : Reporter} {id : NodeId} {told : List Diagnostic} {hidden : Nat}
    (hrun : inScope body ⟨program, scopes, reporter.startGag.2⟩ =
      (id, ⟨made, around, reporter.startGag.2.after told hidden⟩)) :
    accepts body ⟨program, scopes, reporter⟩ =
      (!(Diagnostics.errorCount told + hidden != 0) && !(made.arena.kind id == .Error),
        ⟨made, around, reporter.after [] (Diagnostics.errorCount told + hidden)⟩) := by
  have hend := Reporter.endGag_after reporter told hidden
  have hgag : startGag ⟨program, scopes, reporter⟩ =
      (reporter.startGag.1, ⟨program, scopes, reporter.startGag.2⟩) := rfl
  have hafter : endGag reporter.startGag.1
      ⟨made, around, reporter.startGag.2.after told hidden⟩ =
        (Diagnostics.errorCount told + hidden != 0,
          ⟨made, around, reporter.after [] (Diagnostics.errorCount told + hidden)⟩) := by
    rw [endGag, hend]
  calc
    accepts body ⟨program, scopes, reporter⟩ =
        (do
          let id ← inScope body
          let failed ← endGag reporter.startGag.1
          return !failed && !(← isError id) : Lower Bool)
          ⟨program, scopes, reporter.startGag.2⟩ := rfl
    _ = (do
          let failed ← endGag reporter.startGag.1
          return !failed && !(← isError id) : Lower Bool)
          ⟨made, around, reporter.startGag.2.after told hidden⟩ := by
      rw [bind_apply, hrun]
    _ = _ := by
      rw [bind_apply, hafter]
      rfl

namespace IgnoresReporter

variable {asks : Prop} {α β : Type}

-- A step that leaves the reporter alone.
theorem of_silent {body : Lower α} (next : Program → Scopes → α × Program × Scopes)
    (hbody : ∀ program scopes reporter, body ⟨program, scopes, reporter⟩ =
      ((next program scopes).1, ⟨(next program scopes).2.1, (next program scopes).2.2, reporter⟩)) :
    IgnoresReporter asks body := by
  intro program scopes
  refine ⟨(next program scopes).1, (next program scopes).2.1, (next program scopes).2.2, [], 0,
    fun _ => rfl, fun reporter => ?_⟩
  rw [hbody, Reporter.after_nil]

theorem bind {first : Lower α} {next : α → Lower β} (hfirst : IgnoresReporter asks first)
    (hnext : ∀ answer, IgnoresReporter asks (next answer)) :
    IgnoresReporter asks (first >>= next) := by
  intro program scopes
  obtain ⟨answer, made, around, told, hidden, hasks, hrun⟩ := hfirst program scopes
  obtain ⟨last, made', around', told', hidden', hasks', hrun'⟩ := hnext answer made around
  refine ⟨last, made', around', told ++ told', hidden + hidden', ?_, fun reporter => ?_⟩
  · intro hquiet
    rw [hasks hquiet, hasks' hquiet]
  · calc
      (first >>= next) ⟨program, scopes, reporter⟩ =
          next (first ⟨program, scopes, reporter⟩).1 (first ⟨program, scopes, reporter⟩).2 := rfl
      _ = next answer ⟨made, around, reporter.after told hidden⟩ := by rw [hrun]
      _ = (last, ⟨made', around', (reporter.after told hidden).after told' hidden'⟩) := hrun' _
      _ = _ := by rw [Reporter.after_after]

theorem report (diagnostic : Diagnostic) : IgnoresReporter asks (report diagnostic) := by
  intro program scopes
  refine ⟨(), program, scopes, [diagnostic], 0, fun _ => rfl, fun reporter => ?_⟩
  rw [← Reporter.report_eq_after]
  rfl

theorem inScope {body : Lower α} (hbody : IgnoresReporter asks body) :
    IgnoresReporter asks (inScope body) := by
  have hpush : IgnoresReporter asks pushScope :=
    of_silent (fun program scopes => ((), program, scopes.push)) fun _ _ _ => rfl
  have hpop : IgnoresReporter asks popScope :=
    of_silent (fun program scopes => ((), program, scopes.pop)) fun _ _ _ => rfl
  refine hpush.bind fun _ => hbody.bind fun result => hpop.bind fun _ => ?_
  exact of_silent (fun program scopes => (result, program, scopes)) fun _ _ _ => rfl

theorem define (name : Name) (binding : Binding) :
    IgnoresReporter asks (define name binding) := by
  intro program scopes
  cases hdefined : scopes.isDefinedHere (program.names.insert name.text).1 with
  | true =>
      let duplicate : Diagnostic := .about .DuplicateDefinition name.span name.text
      refine ⟨(), { program with names := (program.names.insert name.text).2 }, scopes, [duplicate], 0,
        fun _ => rfl, fun reporter => ?_⟩
      rw [← Reporter.report_eq_after]
      exact (define_apply name binding _).trans (if_pos hdefined)
  | false =>
      refine ⟨(), { program with names := (program.names.insert name.text).2 },
        scopes.define (program.names.insert name.text).1 binding, [], 0, fun _ => rfl, fun reporter => ?_⟩
      rw [Reporter.after_nil]
      exact (define_apply name binding _).trans (if_neg (ne_true_of_eq_false hdefined))

theorem accepts (hasks : asks) {body : Lower NodeId} (hbody : IgnoresReporter asks body) :
    IgnoresReporter asks (accepts body) := by
  intro program scopes
  obtain ⟨id, made, around, told, hidden, _, hrun⟩ := hbody.inScope program scopes
  refine ⟨_, made, around, [], Diagnostics.errorCount told + hidden, fun hquiet => absurd hasks hquiet,
    fun reporter => accepts_apply (hrun reporter.startGag.2)⟩

end IgnoresReporter

theorem stepwise_ignoresReporter (asks : Prop) :
    Stepwise (fun {_} body => IgnoresReporter asks body) where
  pure answer := .of_silent (fun program scopes => (answer, program, scopes)) fun _ _ _ => rfl
  bind hfirst hnext := hfirst.bind hnext
  read look :=
    .of_silent (fun program scopes => (look program, program, scopes)) fun _ _ _ => rfl
  lookup name :=
    .of_silent (fun program scopes =>
      ((program.names.find? name).bind scopes.lookup, program, scopes)) fun _ _ _ => rfl
  report diagnostic _ := .report diagnostic
  inScope := .inScope
  symbol name :=
    .of_silent (fun program scopes => ((program.names.insert name).1,
      { program with names := (program.names.insert name).2 }, scopes)) fun _ _ _ => rfl
  internType shape :=
    .of_silent (fun program scopes => ((program.types.insert shape).1,
      { program with types := (program.types.insert shape).2 }, scopes)) fun _ _ _ => rfl
  addNode node :=
    .of_silent (fun program scopes => ((program.arena.add node).1,
      { program with arena := (program.arena.add node).2 }, scopes)) fun _ _ _ => rfl
  addVariable entry :=
    .of_silent (fun program scopes => (⟨program.declared.size⟩,
      { program with declared := program.declared.push entry }, scopes)) fun _ _ _ => rfl
  define := .define

-- The answer is yes just if lowering the operand by itself reports no error, swallows none in
-- questions of its own and does not end in a wrong expression. Code without questions swallows
-- nothing.
theorem compiles_iff_lowers_cleanly (source : List Char) (span : Span) (operand : Expr)
    (state : LoweringState) (hopen : state.reporter.isGagged = false) :
    let question := (expr source (.Compiles span operand)).run state
    let alone := (inScope (expr source operand)).run state
    ∃ compiles told,
      question.2.program.arena.kind question.1 = .Boolean compiles ∧
      alone.2.reporter.diagnostics = state.reporter.diagnostics ++ told.toArray ∧
      (compiles = true ↔
        Diagnostics.hasErrors told = false ∧
        alone.2.reporter.swallowed = state.reporter.swallowed ∧
        alone.2.program.arena.kind alone.1 ≠ .Error) ∧
      (¬operand.Asks → alone.2.reporter.swallowed = state.reporter.swallowed) := by
  obtain ⟨program, scopes, reporter⟩ := state
  intro question alone
  have hsteps := stepwise_ignoresReporter operand.Asks
  have hoperand : IgnoresReporter operand.Asks (inScope (expr source operand)) :=
    (hsteps.expr source operand fun hasks _ hbody => hbody.accepts hasks).inScope
  obtain ⟨id, made, around, told, hidden, hquiet, hrun⟩ := hoperand program scopes
  have halone : alone = (id, ⟨made, around, reporter.after told hidden⟩) := hrun reporter
  obtain ⟨compiles, hcompiles⟩ : ∃ compiles, compiles =
      (!(Diagnostics.errorCount told + hidden != 0) && !(made.arena.kind id == .Error)) := ⟨_, rfl⟩
  have hquestion : question = leaf (.Boolean compiles) .bool span
      ⟨made, around, reporter.after [] (Diagnostics.errorCount told + hidden)⟩ := by
    have haccepts := accepts_apply (hrun reporter.startGag.2)
    have hexpr := expr_eq source (.Compiles span operand)
    calc
      question = (do
          let compiles ← accepts (expr source operand)
          leaf (.Boolean compiles) .bool span : Lower NodeId) ⟨program, scopes, reporter⟩ :=
        congrFun hexpr _
      _ = _ := by rw [bind_apply, haccepts, hcompiles]
  have hclosed : ¬reporter.isGagged = true := by
    change reporter.isGagged = false at hopen
    simp [hopen]
  have hafter : reporter.after told hidden =
      { reporter with
        diagnostics := reporter.diagnostics ++ told.toArray
        swallowed := reporter.swallowed + hidden } := by
    rw [Reporter.after, if_neg hclosed]
  refine ⟨compiles, told, ?_, ?_, ?_, ?_⟩
  · rw [hquestion]
    exact congrArg Node.kind (Arena.node_add_self _)
  · rw [halone, hafter]
  · have hcount : Diagnostics.hasErrors told = false ↔ Diagnostics.errorCount told = 0 := by
      rw [Diagnostics.hasErrors, Diagnostics.errorCount, List.any_eq_false, List.countP_eq_zero]
    rw [halone, hafter, hcount, hcompiles]
    simp only [Bool.and_eq_true, Bool.not_eq_true', bne_eq_false_iff_eq, beq_eq_false_iff_ne]
    constructor
    · rintro ⟨hnone, hnode⟩
      exact ⟨by omega, by simp; omega, hnode⟩
    · rintro ⟨htold, hhidden, hnode⟩
      refine ⟨?_, hnode⟩
      change reporter.swallowed + hidden = reporter.swallowed at hhidden
      omega
  · intro hasks
    rw [halone, hafter, hquiet hasks]
    rfl

-- `__traits(compiles, nope)` with `nope` unknown, as it stands in another question
def innerQuestion : Expr :=
  .Compiles ⟨19, 43⟩ (.Identifier ⟨38, 42⟩ "nope")

def nestedQuestion : List Char :=
  "__traits(compiles, __traits(compiles, nope))".toList

theorem expr_innerQuestion :
    expr nestedQuestion innerQuestion = (do
      let compiles ← accepts (nameNode "nope" ⟨38, 42⟩)
      leaf (.Boolean compiles) .bool ⟨19, 43⟩) := by
  rw [innerQuestion, expr_eq]
  dsimp only
  rw [expr_eq]

-- The inner question itself is fine, and yet the outer one is answered with no.
theorem inner_no_makes_outer_no :
    let state := LoweringState.start (.start .Informational #[])
    let question := (expr nestedQuestion (.Compiles ⟨0, 44⟩ innerQuestion)).run state
    let alone := (inScope (expr nestedQuestion innerQuestion)).run state
    state.reporter.isGagged = false ∧
      alone.2.reporter.diagnostics = #[] ∧
      alone.2.program.arena.kind alone.1 = .Boolean false ∧
      question.2.program.arena.kind question.1 = .Boolean false := by
  rw [expr_eq nestedQuestion (.Compiles ⟨0, 44⟩ innerQuestion), expr_innerQuestion]
  decide +kernel

-- The error that the inner question swallows decides the outer one.
theorem inner_error_decides_outer :
    let state := LoweringState.start (.start .Informational #[])
    let question := (expr nestedQuestion (.Compiles ⟨0, 44⟩ innerQuestion)).run state
    state.reporter.isGagged = false ∧ question.2.program.arena.kind question.1 = .Boolean false := by
  obtain ⟨compiles, told, hkind, _, hiff, _⟩ := compiles_iff_lowers_cleanly nestedQuestion ⟨0, 44⟩
    innerQuestion (LoweringState.start (.start .Informational #[])) rfl
  refine ⟨rfl, ?_⟩
  cases compiles with
  | true =>
      have hswallowed := (hiff.mp rfl).2.1
      rw [expr_innerQuestion] at hswallowed
      revert hswallowed
      decide +kernel
  | false => exact hkind

end Lower

open Lower

theorem Reporter.after_heard (mode : WarningMode) (swallowed : Nat) (diagnostics : Array Diagnostic)
    (told : List Diagnostic) (hidden : Nat) :
    (Reporter.mk mode 0 swallowed diagnostics).after told hidden =
      ⟨mode, 0, swallowed + hidden, diagnostics ++ told.toArray⟩ := by
  have hheard : ¬(Reporter.mk mode 0 swallowed diagnostics).isGagged = true := by simp [isGagged]
  rw [after, if_neg hheard]

theorem Reporter.after_gagged (mode : WarningMode) (depth swallowed : Nat)
    (diagnostics : Array Diagnostic) (told : List Diagnostic) (hidden : Nat) :
    (Reporter.mk mode (depth + 1) swallowed diagnostics).after told hidden =
      ⟨mode, depth + 1, swallowed + (Diagnostics.errorCount told + hidden), diagnostics⟩ := by
  have hgagged : (Reporter.mk mode (depth + 1) swallowed diagnostics).isGagged = true := by
    simp [isGagged]
  rw [after, if_pos hgagged, Nat.add_assoc]

-- A gag of any depth changes what is reported and nothing else. The errors that it keeps back are
-- those that would have been reported and those that questions inside keep back in either case.
theorem gag_changes_reports_only (source : List Char) (written : Expr) (program : Program)
    (scopes : Scopes) (mode : WarningMode) (depth swallowed : Nat) (diagnostics : Array Diagnostic) :
    let heard := (expr source written).run ⟨program, scopes, ⟨mode, 0, swallowed, diagnostics⟩⟩
    let gagged := (expr source written).run
      ⟨program, scopes, ⟨mode, depth + 1, swallowed, diagnostics⟩⟩
    gagged.1 = heard.1 ∧ gagged.2.program = heard.2.program ∧ gagged.2.scopes = heard.2.scopes ∧
      ∃ told hidden,
        heard.2.reporter = ⟨mode, 0, swallowed + hidden, diagnostics ++ told.toArray⟩ ∧
        gagged.2.reporter =
          ⟨mode, depth + 1, swallowed + (Diagnostics.errorCount told + hidden), diagnostics⟩ := by
  intro heard gagged
  have hignores : IgnoresReporter True (expr source written) :=
    (stepwise_ignoresReporter True).expr source written fun _ _ hbody => hbody.accepts trivial
  obtain ⟨id, made, around, told, hidden, -, hrun⟩ := hignores program scopes
  have hheard : heard = (id, ⟨made, around, ⟨mode, 0, swallowed + hidden, diagnostics ++ told.toArray⟩⟩) := by
    rw [← Reporter.after_heard]
    exact hrun _
  have hgagged : gagged = (id, ⟨made, around,
      ⟨mode, depth + 1, swallowed + (Diagnostics.errorCount told + hidden), diagnostics⟩⟩) := by
    rw [← Reporter.after_gagged]
    exact hrun _
  rw [hheard, hgagged]
  exact ⟨rfl, rfl, rfl, told, hidden, rfl, rfl⟩

end EffectLint
