import EffectLint.Module
import EffectLint.Proofs.Discard.Refinement
import EffectLint.Proofs.Grammar.CleanItem
import EffectLint.Proofs.Lowering.Module
import EffectLint.Proofs.Lowering.Stages
import EffectLint.Proofs.Lowering.TypedModule

/-!
Where no error is reported, nothing stands for one. What a later stage keeps silent about, an
earlier one has reported: the check of discarded values passes over wrong expressions, and lowering
passes over what could not be read. All that is evaluated then has a type, unless something takes its
type from a module. A module has no type, and what is computed from one is not rejected.
-/

namespace EffectLint

open Lower

namespace ParsedModule

variable {source : List Char} {settings : Settings} {parsed : ParsedModule}

-- Each stage keeps what the stages before it reported.
theorem analyze_diagnostics (parsed : ParsedModule) : ∃ told found,
    (lower parsed.source parsed.items
      (.start parsed.settings.warnings parsed.diagnostics)).reporter.diagnostics =
        parsed.diagnostics ++ told ∧
      parsed.analyze.diagnostics = (parsed.diagnostics ++ told).toList ++ found := by
  obtain ⟨lowered, hlowered⟩ : ∃ lowered, lowered = lower parsed.source parsed.items
      (.start parsed.settings.warnings parsed.diagnostics) := ⟨_, rfl⟩
  obtain ⟨hopen, told, htold⟩ := lower_reporter parsed.source parsed.items parsed.settings.warnings
    parsed.diagnostics
  rw [← hlowered] at hopen htold ⊢
  obtain ⟨found, hfound⟩ := lowered.program.checkDiscards_adds ⟨lowered.reporter, .empty⟩
  refine ⟨told, found, htold, ?_⟩
  have hanalyze : parsed.analyze.diagnostics =
      (lowered.program.checkDiscards ⟨lowered.reporter, .empty⟩).2.reporter.diagnostics.toList := by
    rw [hlowered]
    rfl
  rw [hanalyze, hfound, Reporter.reportAll_of_not_gagged hopen, ← htold]
  exact Array.toList_append

theorem silent_of_no_errors (hread : read source settings = .ok parsed)
    (hclean : Diagnostics.hasErrors parsed.analyze.diagnostics = false) :
    (∀ item ∈ parsed.items, item.AllWritten) ∧
      (lower parsed.source parsed.items
        (.start parsed.settings.warnings parsed.diagnostics)).Silent := by
  obtain ⟨told, found, htold, hanalyze⟩ := parsed.analyze_diagnostics
  rw [hanalyze, Diagnostics.hasErrors, List.any_append, Bool.or_eq_false_iff] at hclean
  have hlowered := hclean.1
  rw [Array.toList_append, List.any_append, Bool.or_eq_false_iff] at hclean
  unfold read at hread
  cases hparse : parse source settings.fuel settings.depth with
  | error reason =>
      rw [hparse] at hread
      cases hread
  | ok tree =>
      rw [hparse] at hread
      cases hread
      obtain ⟨hnone, -, hwritten⟩ := clean_parse hparse hclean.1.1
      refine ⟨hwritten, ?_⟩
      rw [← htold] at hlowered
      rw [hnone] at hlowered ⊢
      exact lower_silent hlowered

-- All that was read is written as it should be, and no wrong expression can be reached.
theorem nothing_wrong_of_no_errors (hread : read source settings = .ok parsed)
    (hclean : Diagnostics.hasErrors parsed.analyze.diagnostics = false) :
    (∀ item ∈ parsed.items, item.AllWritten) ∧
      ∀ id, parsed.analyze.program.Reaches id ∨ parsed.analyze.program.ReachesFromGlobals id →
        parsed.analyze.program.arena.kind id ≠ .Error := by
  obtain ⟨hwritten, hsilent⟩ := silent_of_no_errors hread hclean
  refine ⟨hwritten, ?_⟩
  rintro id (hreaches | ⟨added, hadded, value, hvalue, hbelow⟩)
  · intro herror
    obtain ⟨part, point, -, hmade⟩ := exists_lowersAt hwritten hsilent hreaches
      (congrArg NodeKind.declares herror)
    exact hmade.fine herror
  · obtain ⟨whole, point, hmade⟩ := lower_allMade hwritten hsilent added hadded value hvalue
    exact hmade.fine_below hbelow

theorem nothing_wrong_in_sum : ∃ parsed,
    read "int y = 2; int f(int x) { return x + y; }".toList ⟨100, 10, .AsErrors⟩ = .ok parsed ∧
      Diagnostics.hasErrors parsed.analyze.diagnostics = false ∧
      (∀ item ∈ parsed.items, item.AllWritten) ∧
      ∀ id, parsed.analyze.program.Reaches id ∨ parsed.analyze.program.ReachesFromGlobals id →
        parsed.analyze.program.arena.kind id ≠ .Error := by
  have hclean : (read "int y = 2; int f(int x) { return x + y; }".toList
      ⟨100, 10, .AsErrors⟩).toOption.map (Diagnostics.hasErrors ·.analyze.diagnostics) =
        some false := by
    decide +kernel
  cases hread : read "int y = 2; int f(int x) { return x + y; }".toList ⟨100, 10, .AsErrors⟩ with
  | error reason =>
      rw [hread] at hclean
      cases hclean
  | ok parsed =>
      rw [hread] at hclean
      have hnone := Option.some.inj hclean
      exact ⟨parsed, rfl, hnone, nothing_wrong_of_no_errors hread hnone⟩

end ParsedModule

namespace Program

instance (program : Program) : Decidable program.ApartFromModules :=
  decidable_of_iff (∀ node ∈ program.arena.nodes.toList, program.typedByModule node = false) <| by
    simp only [ApartFromModules, Array.mem_toList_iff]

-- The error type stands in the type of nothing that is typed.
theorem Typed.not_error {program : Program} (hclosed : program.types.Closed) {id : NodeId}
    (h : program.Typed id) :
    if program.isModule id = true then program.arena.type? id = none
    else ∃ type, program.arena.type? id = some type ∧ program.types.isError type = false := by
  cases hmodule : program.isModule id with
  | true => exact h.of_isModule hmodule
  | false =>
      obtain ⟨type, htype, hwhole⟩ := h.exists_type hmodule
      exact ⟨type, htype, hwhole.isError hclosed⟩

end Program

namespace ParsedModule

variable {source : List Char} {settings : Settings} {parsed : ParsedModule}

theorem typed_of_no_errors (hread : read source settings = .ok parsed)
    (hclean : Diagnostics.hasErrors parsed.analyze.diagnostics = false)
    (hapart : parsed.analyze.program.ApartFromModules) :
    ∀ id, parsed.analyze.program.Reaches id ∨ parsed.analyze.program.ReachesFromGlobals id →
      if parsed.analyze.program.isModule id = true then parsed.analyze.program.arena.type? id = none
      else ∃ type, parsed.analyze.program.arena.type? id = some type ∧
        parsed.analyze.program.types.isError type = false := by
  intro id hreaches
  obtain ⟨hwritten, hsilent⟩ := silent_of_no_errors hread hclean
  exact (lower_typed hwritten hsilent hapart hreaches).not_error (lower_sound _ _ _).closed

-- The module in front of the comma stands for itself, and nothing is computed from it.
theorem typed_of_no_errors_in_sum : ∃ parsed,
    read "import m; int y = (m, 2); int f(int x) { return x + y; }".toList ⟨100, 10, .Off⟩ = .ok parsed ∧
      Diagnostics.hasErrors parsed.analyze.diagnostics = false ∧
      parsed.analyze.program.ApartFromModules ∧
      ∀ id, parsed.analyze.program.Reaches id ∨ parsed.analyze.program.ReachesFromGlobals id →
        if parsed.analyze.program.isModule id = true then parsed.analyze.program.arena.type? id = none
        else ∃ type, parsed.analyze.program.arena.type? id = some type ∧
          parsed.analyze.program.types.isError type = false := by
  have hrun : (read "import m; int y = (m, 2); int f(int x) { return x + y; }".toList
      ⟨100, 10, .Off⟩).toOption.map (fun parsed => (Diagnostics.hasErrors parsed.analyze.diagnostics,
        decide parsed.analyze.program.ApartFromModules)) = some (false, true) := by
    decide +kernel
  obtain ⟨parsed, hread, hseen⟩ := exists_read hrun
  obtain ⟨hclean, hapart⟩ := Prod.mk.inj hseen
  exact ⟨parsed, hread, hclean, of_decide_eq_true hapart,
    typed_of_no_errors hread hclean (of_decide_eq_true hapart)⟩

-- The sum of a module and a number is accepted, and has the error type.
theorem not_typed_of_no_errors : ∃ parsed id,
    read "import m; int y = m + 1;".toList ⟨100, 10, .Off⟩ = .ok parsed ∧
      Diagnostics.hasErrors parsed.analyze.diagnostics = false ∧
      parsed.analyze.program.ReachesFromGlobals id ∧
      parsed.analyze.program.isModule id = false ∧
      ∃ type, parsed.analyze.program.arena.type? id = some type ∧
        parsed.analyze.program.types.isError type = true := by
  have hrun : (read "import m; int y = m + 1;".toList ⟨100, 10, .Off⟩).toOption.map (fun parsed =>
      (Diagnostics.hasErrors parsed.analyze.diagnostics,
        parsed.analyze.program.globals.toList.map GlobalValue.value,
        parsed.analyze.program.isModule ⟨2⟩, parsed.analyze.program.arena.type? ⟨2⟩,
        parsed.analyze.program.types.isError .error)) =
      some (false, [some ⟨2⟩], false, some .error, true) := by
    decide +kernel
  obtain ⟨parsed, hread, hseen⟩ := exists_read hrun
  simp only [Prod.mk.injEq] at hseen
  obtain ⟨hclean, hglobals, hmodule, htype, herror⟩ := hseen
  obtain ⟨added, hadded, hvalue⟩ := List.map_eq_singleton_iff.mp hglobals
  refine ⟨parsed, ⟨2⟩, hread, hclean, ⟨added, ?_, ⟨2⟩, hvalue, .refl⟩, hmodule, .error, htype, herror⟩
  rw [← Array.mem_toList_iff, hadded]
  exact List.mem_cons_self

end ParsedModule

end EffectLint
