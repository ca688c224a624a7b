import EffectLint.Module
import EffectLint.Proofs.Discard.Refinement
import EffectLint.Proofs.Grammar.OnlyErrors
import EffectLint.Proofs.Lowering.Roots
import EffectLint.Proofs.Lowering.Stages
import EffectLint.Proofs.Tree.Edited

/-!
What an analysis reports. Lowering says the same whoever is told, and behind it stands the verdict on
each value that the module throws away. Reading and lowering report nothing but errors and never look
at the wish for warnings, and the check of discarded values leaves out its warnings where none are
wanted. So the program and the errors are the same in every mode.
-/

namespace EffectLint

open Lower

theorem Lower.module_ignoresReporter (source : List Char) (items : List Item) :
    IgnoresReporter True (Lower.module source items) := by
  have hsteps := stepwise_ignoresReporter True
  have haccepts : ∀ body : Lower NodeId, IgnoresReporter True body →
      IgnoresReporter True (accepts body) := fun _ hbody => hbody.accepts trivial
  have haddModule : ∀ entry, IgnoresReporter True (addModule entry) := fun entry =>
    .of_silent (fun program scopes => (⟨program.modules.size⟩,
      { program with modules := program.modules.push entry }, scopes)) fun _ _ _ => rfl
  have haddFunction : ∀ entry, IgnoresReporter True (addFunction entry) := fun entry =>
    .of_silent (fun program scopes => (⟨program.functions.size⟩,
      { program with functions := program.functions.push entry }, scopes)) fun _ _ _ => rfl
  have haddGlobal : ∀ value, IgnoresReporter True (addGlobal value) := fun value =>
    .of_silent (fun program scopes => ((),
      { program with globals := program.globals.push value }, scopes)) fun _ _ _ => rfl
  have haddBody : ∀ body, IgnoresReporter True (addBody body) := fun body =>
    .of_silent (fun program scopes => ((),
      { program with bodies := program.bodies.push body }, scopes)) fun _ _ _ => rfl
  rw [module_eq]
  exact (hsteps.outside source haccepts haddFunction haddGlobal haddModule items).bind fun _ =>
    hsteps.bodies source haccepts haddBody _

-- What lowering makes of a module and says about it does not depend on who is told.
theorem exists_lowered (source : List Char) (items : List Item) : ∃ made around told hidden,
    (∀ diagnostic ∈ told, diagnostic.isError = true) ∧
      ∀ reporter, lower source items reporter = ⟨made, around, reporter.after told hidden⟩ := by
  obtain ⟨_, made, around, told, hidden, _, hrun⟩ :=
    module_ignoresReporter source items .empty .empty
  have hlower : ∀ reporter, lower source items reporter =
      ⟨made, around, reporter.after told hidden⟩ := fun reporter => congrArg Prod.snd (hrun reporter)
  refine ⟨made, around, told, hidden, fun diagnostic hmem => ?_, hlower⟩
  have herrors : (lower source items (.start .Off #[])).reporter.OnlyErrors :=
    module_saysErrors source items (.start (.start .Off #[])) fun _ hnone =>
      absurd hnone (Array.not_mem_empty _)
  rw [hlower] at herrors
  exact herrors diagnostic (by simpa [Reporter.after, Reporter.isGagged, Reporter.start] using hmem)

namespace ParsedModule

-- The module before the values that it throws away are checked.
def lowered (parsed : ParsedModule) : LoweringState :=
  lower parsed.source parsed.items (.start parsed.settings.warnings parsed.diagnostics)

theorem lowered_wellFormed (parsed : ParsedModule) : parsed.lowered.program.arena.WellFormed :=
  (lower_forest _ _ _).wf

-- All gags have ended with the lowering.
theorem lowered_reporter (parsed : ParsedModule) : ∃ told hidden, parsed.lowered.reporter =
    ⟨parsed.settings.warnings, 0, hidden, parsed.diagnostics ++ told⟩ := by
  obtain ⟨made, around, told, hidden, _, hlower⟩ := exists_lowered parsed.source parsed.items
  refine ⟨told.toArray, hidden, ?_⟩
  rw [lowered, hlower]
  simp [Reporter.after, Reporter.isGagged, Reporter.start]

-- Behind what lowering has reported stands the verdict on all that is thrown away.
theorem analyze_reporter (parsed : ParsedModule) (wf : parsed.lowered.program.arena.WellFormed) :
    parsed.analyze.reporter = { parsed.lowered.reporter with
      diagnostics := parsed.lowered.reporter.diagnostics ++
        (parsed.lowered.program.verdicts wf (parsed.settings.warnings != .Off)).toArray } := by
  obtain ⟨told, hidden, hreporter⟩ := parsed.lowered_reporter
  have hchecked : parsed.analyze.reporter =
      (parsed.lowered.program.checkDiscards ⟨parsed.lowered.reporter, .empty⟩).2.reporter := rfl
  rw [hchecked, Program.checkDiscards_reporter wf _ (PurityMemo.sound_empty _), hreporter,
    Reporter.reportAll_of_not_gagged rfl]
  simp [Reporter.warningsEnabled, Reporter.isGagged]

theorem analyze_reports (parsed : ParsedModule) :
    parsed.analyze.diagnostics = parsed.lowered.reporter.diagnostics.toList ++
      parsed.lowered.program.verdicts parsed.lowered_wellFormed (parsed.settings.warnings != .Off) := by
  rw [AnalyzedModule.diagnostics, parsed.analyze_reporter parsed.lowered_wellFormed]
  simp

-- Two modules that are analyzed alike, with edited items. Their texts are not compared: a text decides
-- what messages quote and nothing else.
structure Edited (edit : Edit) (targets : TypeTree → TypeTree → Prop) (parsed parsed' : ParsedModule) :
    Prop where
  settings : parsed.settings = parsed'.settings
  diagnostics : parsed.diagnostics = parsed'.diagnostics
  items : List.Forall₂ (Item.Edited edit targets) parsed.items parsed'.items

-- Both are lowered from the same start.
theorem Edited.lowered_eq {edit : Edit} {targets : TypeTree → TypeTree → Prop}
    {parsed parsed' : ParsedModule} (h : parsed.Edited edit targets parsed') :
    parsed'.lowered = lower parsed'.source parsed'.items
      (.start parsed.settings.warnings parsed.diagnostics) := by
  rw [lowered, h.settings, h.diagnostics]

end ParsedModule

namespace ParsedModule

-- An analysis in each mode: the program, what is remembered about purity, the count of swallowed
-- errors and the errors are those of the text, and only calls are warned of.
theorem exists_analysis (source : List Char) (items : List Item) (diagnostics : Array Diagnostic) :
    ∃ (program : Program) (wf : program.arena.WellFormed) (told : List Diagnostic) (hidden : Nat)
      (memo : PurityMemo), (∀ diagnostic ∈ told, diagnostic.isError = true) ∧
      ∀ settings : Settings, (ParsedModule.mk source settings items diagnostics).analyze =
        ⟨source, program, ⟨settings.warnings, 0, hidden, diagnostics ++ (told ++
          program.verdicts wf (settings.warnings != .Off)).toArray⟩, memo⟩ := by
  obtain ⟨made, around, told, hidden, herrors, hlower⟩ := exists_lowered source items
  have wf : made.arena.WellFormed := by
    have hforest := lower_forest source items (.start .Off #[])
    rw [hlower] at hforest
    exact hforest.wf
  refine ⟨made, wf, told, hidden,
    (made.checkDiscards ⟨.start .Off #[], .empty⟩).2.memo, herrors, fun settings => ?_⟩
  let parsed : ParsedModule := ⟨source, settings, items, diagnostics⟩
  have hlowered : parsed.lowered =
      ⟨made, around, (Reporter.start settings.warnings diagnostics).after told hidden⟩ := hlower _
  have hreporter : parsed.analyze.reporter = ⟨settings.warnings, 0, hidden, diagnostics ++ (told ++
      made.verdicts wf (settings.warnings != .Off)).toArray⟩ := by
    have hreporter := parsed.analyze_reporter
    rw [hlowered] at hreporter
    rw [hreporter wf]
    simp [parsed, Reporter.after, Reporter.isGagged, Reporter.start]
  have hprogram : parsed.analyze.program = made := congrArg LoweringState.program (hlower _)
  have hmemo : parsed.analyze.memo = (made.checkDiscards ⟨.start .Off #[], .empty⟩).2.memo := by
    rw [analyze, hlower]
    exact (made.checkDiscards_asksAlike
      ⟨(Reporter.start settings.warnings diagnostics).after told hidden, .empty⟩
      ⟨.start .Off #[], .empty⟩ rfl).2
  calc
    parsed.analyze = ⟨source, parsed.analyze.program, parsed.analyze.reporter, parsed.analyze.memo⟩ := rfl
    _ = _ := by rw [hprogram, hreporter, hmemo]

end ParsedModule

namespace Diagnostics

theorem isWarning_eq (diagnostic : Diagnostic) : diagnostic.isWarning = !diagnostic.isError := by
  rcases diagnostic with ⟨kind, severity, span, message, fix, related⟩
  cases severity <;> rfl

-- Without the warnings, the errors are left.
theorem filter_not_isWarning (diagnostics : List Diagnostic) :
    diagnostics.filter (!·.isWarning) = diagnostics.filter Diagnostic.isError := by
  simp only [isWarning_eq, Bool.not_not]

theorem hasErrors_filter_isError (diagnostics : List Diagnostic) :
    hasErrors (diagnostics.filter Diagnostic.isError) = hasErrors diagnostics := by
  simp only [hasErrors, List.any_filter, Bool.and_self]

end Diagnostics

namespace AnalyzedModule

-- In every mode the analysis fails for the same reason, or it makes the same program, remembers
-- the same about purity and swallows the same number of errors. Where warnings count as errors the
-- reports are the same to the severity, and only the module is not valid with one of them. Where they
-- are off all the rest is reported.
theorem mode_decides_warnings_only (source : List Char) (fuel depth : Nat) :
    let analyze := fun mode => ofSource source ⟨fuel, depth, mode⟩
    (∃ reason, ∀ mode, analyze mode = .error reason) ∨
      ∃ off informational asErrors, analyze .Off = .ok off ∧
        analyze .Informational = .ok informational ∧ analyze .AsErrors = .ok asErrors ∧
        (∀ other ∈ [off, asErrors], other.program = informational.program ∧
          other.memo = informational.memo ∧
          other.reporter.swallowed = informational.reporter.swallowed) ∧
        asErrors.diagnostics = informational.diagnostics ∧
        off.diagnostics = informational.diagnostics.filter (!·.isWarning) ∧
        (off.isValid = true ↔ Diagnostics.hasErrors informational.diagnostics = false) ∧
        (informational.isValid = true ↔ Diagnostics.hasErrors informational.diagnostics = false) ∧
        (asErrors.isValid = true ↔ informational.isValid = true ∧
          Diagnostics.hasWarnings informational.diagnostics = false) := by
  intro analyze
  cases hparse : parse source fuel depth with
  | error reason =>
      refine .inl ⟨reason, fun mode => ?_⟩
      simp only [analyze, ofSource, ParsedModule.read, hparse]
      rfl
  | ok parsed =>
      obtain ⟨program, wf, told, hidden, memo, htold, hanalyze⟩ :=
        ParsedModule.exists_analysis source parsed.items parsed.diagnostics
      have hmode : ∀ mode warns, (mode != WarningMode.Off) = warns → analyze mode =
          .ok ⟨source, program, ⟨mode, 0, hidden, parsed.diagnostics ++
            (told ++ program.verdicts wf warns).toArray⟩, memo⟩ := by
        rintro mode _ rfl
        simp only [analyze, ofSource, ParsedModule.read, hparse]
        exact congrArg Except.ok (hanalyze ⟨fuel, depth, mode⟩)
      have hfound : (parsed.diagnostics.toList ++ told).filter Diagnostic.isError =
          parsed.diagnostics.toList ++ told := by
        refine List.filter_eq_self.mpr fun diagnostic hmem => ?_
        rcases List.mem_append.mp hmem with hmem | hmem
        · exact parse_reports_errors hparse diagnostic (Array.mem_toList_iff.mp hmem)
        · exact htold diagnostic hmem
      have hoff : parsed.diagnostics.toList ++ (told ++ program.verdicts wf false) =
          (parsed.diagnostics.toList ++ (told ++ program.verdicts wf true)).filter
            Diagnostic.isError := by
        rw [← List.append_assoc, ← List.append_assoc, List.filter_append, hfound,
          Program.verdicts_without_warnings]
      refine .inr ⟨_, _, _, hmode .Off false rfl, hmode .Informational true rfl,
        hmode .AsErrors true rfl, ?_⟩
      rw [Diagnostics.filter_not_isWarning]
      refine ⟨by simp, rfl, ?_, ?_, ?_, ?_⟩
      · simpa [diagnostics] using hoff
      · have herrors := congrArg Diagnostics.hasErrors hoff
        rw [Diagnostics.hasErrors_filter_isError] at herrors
        simp [isValid, Reporter.hasFailures, diagnostics, herrors]
      · simp [isValid, Reporter.hasFailures, diagnostics]
      · simp [isValid, Reporter.hasFailures, diagnostics]

end AnalyzedModule

end EffectLint
