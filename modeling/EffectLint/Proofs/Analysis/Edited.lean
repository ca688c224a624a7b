import EffectLint.Proofs.Analysis.Reports
import EffectLint.Proofs.Discard.Akin
import EffectLint.Proofs.Lowering.ModuleAlongside
import EffectLint.Proofs.Lowering.Unaliased

/-!
Modules that were edited. Where functions promise less than they did, lowering finds the same things
wrong at the same places, and of the values that are thrown away no more are reported. Where names of
aliases are replaced by what they stand for, the analysis reports the same things at the same places,
and the nodes and their effects are the same.
-/

namespace EffectLint

-- Promises are dropped, wherever a function or the type of one makes them.
def Edit.weakening : Edit where
  promises := Promises.Weakens
  replaces _ _ := False
  reserved _ := False

namespace ParsedModule

-- Functions that promise less are found wrong with the same things at the same places, and what is
-- reported about the values thrown away was reported there before.
theorem weakened_reports_no_more {parsed weakened : ParsedModule}
    (hedited : parsed.Edited .weakening (TypeTree.Edited .weakening) weakened) :
    ∃ discarded discarded',
      parsed.analyze.diagnostics = parsed.lowered.reporter.diagnostics.toList ++ discarded ∧
      weakened.analyze.diagnostics = weakened.lowered.reporter.diagnostics.toList ++ discarded' ∧
      Diagnostics.places parsed.lowered.reporter.diagnostics.toList =
        Diagnostics.places weakened.lowered.reporter.diagnostics.toList ∧
      (Diagnostics.places discarded').Sublist (Diagnostics.places discarded) := by
  have hnone : ∀ name, ¬Edit.weakening.reserved name := fun _ => id
  have hfits : ∀ base, Edit.weakening.Fits base :=
    fun base => ⟨fun _ hname => hname.elim, fun _ _ _ hreplaces => hreplaces.elim⟩
  have hstart : ∀ reporter, (LoweringState.start reporter).Beside .weakening (.start reporter)
      (.start reporter) := fun _ =>
    LoweringState.Sound.beside Program.sound_empty (fun _ => ⟨id, id⟩) rfl rfl
  have hbeside : parsed.lowered.Beside .weakening weakened.lowered
      (.start (.start parsed.settings.warnings parsed.diagnostics)) := by
    have hlowered : Lower.Alongside .weakening _ (Lower.module parsed.source parsed.items)
        (Lower.module weakened.source weakened.items) Lower.Same _ _ :=
      .module hnone (hfits _) hedited.items (hstart (.start parsed.settings.warnings parsed.diagnostics))
    rw [hedited.lowered_eq]
    exact hlowered.beside
  refine ⟨_, _, parsed.analyze_reports, weakened.analyze_reports, hbeside.reporter.places, ?_⟩
  rw [← hedited.settings]
  exact hbeside.program.sameOutline.verdicts_sublist _ _ hbeside.program.bodies _
    (hbeside.program.isEffectful fun _ _ => id)

-- A call that returns a number is reported until the function may have effects.
theorem weakened_reports_no_more_of_call : ∃ parsed weakened : ParsedModule,
    parsed.Edited .weakening (TypeTree.Edited .weakening) weakened ∧
    Diagnostics.places parsed.analyze.diagnostics = [(.DiscardedPureCall, .Warning, ⟨33, 36⟩)] ∧
    Diagnostics.places weakened.analyze.diagnostics = [] ∧
    ∃ discarded discarded',
      parsed.analyze.diagnostics = parsed.lowered.reporter.diagnostics.toList ++ discarded ∧
      weakened.analyze.diagnostics = weakened.lowered.reporter.diagnostics.toList ++ discarded' ∧
      Diagnostics.places parsed.lowered.reporter.diagnostics.toList =
        Diagnostics.places weakened.lowered.reporter.diagnostics.toList ∧
      (Diagnostics.places discarded').Sublist (Diagnostics.places discarded) := by
  let number (promises : Promises) : FunctionTree :=
    ⟨⟨0, 21⟩, ⟨"f", ⟨4, 5⟩⟩, promises, .Basic ⟨0, 3⟩ .Integer, [], none⟩
  let caller : FunctionTree := ⟨⟨22, 38⟩, ⟨"g", ⟨27, 28⟩⟩, .none, .Basic ⟨22, 26⟩ .Void, [],
    some ⟨⟨31, 38⟩, [.Evaluate (.Call ⟨33, 36⟩ (.Identifier ⟨33, 34⟩ "f") [])]⟩⟩
  let parsed : ParsedModule := ⟨"int f() pure nothrow; void g() { f(); }".toList, .usual,
    [.Function (number ⟨true, true⟩), .Function caller], #[]⟩
  let weakened : ParsedModule := ⟨"int f() nothrow     ; void g() { f(); }".toList, .usual,
    [.Function (number ⟨false, true⟩), .Function caller], #[]⟩
  have hnumber : (number ⟨true, true⟩).Edited .weakening (number ⟨false, true⟩) :=
    ⟨rfl, rfl, id, ⟨fun _ => rfl, fun _ => rfl⟩, .Basic, .nil, rfl, by simp [number], .none⟩
  have hcaller : caller.Edited .weakening caller :=
    ⟨rfl, rfl, id, ⟨id, id⟩, .Basic, .nil, rfl, by simp [caller],
      .some ⟨rfl, .cons (.Evaluate (.Call (.Leaf rfl) .nil)) .nil⟩⟩
  have hedited : parsed.Edited .weakening (TypeTree.Edited .weakening) weakened :=
    ⟨rfl, rfl, .cons (.Function hnumber) (.cons (.Function hcaller) .nil)⟩
  exact ⟨parsed, weakened, hedited, by decide +kernel, by decide +kernel,
    weakened_reports_no_more hedited⟩

end ParsedModule

-- Two analyses that report the same things at the same places, with the same nodes and effects. Types
-- have other numbers in each, so the kinds of nodes are compared without the types that they name.
structure AnalyzedModule.Matches (analyzed analyzed' : AnalyzedModule) : Prop where
  places : Diagnostics.places analyzed.diagnostics = Diagnostics.places analyzed'.diagnostics
  size : analyzed.program.arena.size = analyzed'.program.arena.size
  kinds : ∀ id, (analyzed.program.arena.kind id).untyped = (analyzed'.program.arena.kind id).untyped
  spans : ∀ id, (analyzed.program.arena.node id).span = (analyzed'.program.arena.node id).span
  parents : ∀ id, analyzed.program.arena.parent? id = analyzed'.program.arena.parent? id
  -- whatever is remembered about purity by then
  effects : ∀ id memo memo', memo.Sound analyzed.program.types → memo'.Sound analyzed'.program.types →
    (analyzed.program.hasShallowEffect id memo).1 = (analyzed'.program.hasShallowEffect id memo').1

namespace ParsedModule

-- An alias is as good as its target. Where no name is unknown and none is defined twice, its name may be
-- replaced anywhere behind the aliases.
theorem aliases_are_transparent {parsed unaliased : ParsedModule}
    (hedited : parsed.Edited (.unaliasing parsed.items) Eq unaliased)
    (hwritten : ∀ name target, .Alias name target ∈ parsed.items → target.NoError)
    (hknown : ∀ diagnostic ∈ parsed.analyze.diagnostics, diagnostic.kind ≠ .UnknownType)
    (honce : ∀ diagnostic ∈ parsed.analyze.diagnostics, diagnostic.kind ≠ .DuplicateDefinition) :
    parsed.analyze.Matches unaliased.analyze := by
  have hreports := parsed.analyze_reports
  have hclear : parsed.lowered.Clear := by
    obtain ⟨told, hidden, hreporter⟩ := parsed.lowered_reporter
    have hmem : ∀ diagnostic ∈ parsed.lowered.reporter.diagnostics,
        diagnostic ∈ parsed.analyze.diagnostics := by
      intro diagnostic hmem
      rw [hreports]
      exact List.mem_append_left _ (Array.mem_toList_iff.mpr hmem)
    exact ⟨by rw [hreporter]; rfl, fun diagnostic h => hknown diagnostic (hmem diagnostic h),
      fun diagnostic h => honce diagnostic (hmem diagnostic h)⟩
  have hbeside : parsed.lowered.Beside (.unaliasing parsed.items) unaliased.lowered
      (behindAliases parsed.items (.start parsed.settings.warnings parsed.diagnostics)) := by
    rw [hedited.lowered_eq]
    exact unaliased_beside hedited.items hwritten hclear
  have hakin : parsed.lowered.program.Akin Eq unaliased.lowered.program := hbeside.program
  have hplaces : Diagnostics.places parsed.analyze.diagnostics =
      Diagnostics.places unaliased.analyze.diagnostics := by
    have hverdicts := hakin.sameOutline.verdicts_eq parsed.lowered_wellFormed
      unaliased.lowered_wellFormed hakin.bodies (parsed.settings.warnings != .Off) hakin.isEffectful_eq
    have hlowered := hbeside.reporter.places
    rw [hreports, unaliased.analyze_reports, ← hedited.settings]
    simp only [Diagnostics.places, List.map_append] at hlowered hverdicts ⊢
    rw [hlowered, hverdicts]
  refine ⟨hplaces, hakin.size_arena, fun id => (hakin.node id).kind.untyped_eq,
    fun id => (hakin.node id).span, fun id => ?_, fun id memo memo' hmemo hmemo' => ?_⟩
  · exact congrArg (fun parents => (parents[id.index]?).join) hakin.parents
  · calc
      (parsed.analyze.program.hasShallowEffect id memo).1 = parsed.analyze.program.isEffectful id :=
        (Program.answers_hasShallowEffect id memo hmemo).1
      _ = unaliased.analyze.program.isEffectful id := hakin.isEffectful_eq id
      _ = (unaliased.analyze.program.hasShallowEffect id memo').1 :=
        (Program.answers_hasShallowEffect id memo' hmemo').1.symm

-- A call that is reported and a cast that has no effect, with and without the name of the alias.
theorem aliases_are_transparent_in_cast : ∃ parsed unaliased : ParsedModule,
    parsed.Edited (.unaliasing parsed.items) Eq unaliased ∧
    (∀ name target, .Alias name target ∈ parsed.items → target.NoError) ∧
    (∀ diagnostic ∈ parsed.analyze.diagnostics, diagnostic.kind ≠ .UnknownType) ∧
    (∀ diagnostic ∈ parsed.analyze.diagnostics, diagnostic.kind ≠ .DuplicateDefinition) ∧
    Diagnostics.places parsed.analyze.diagnostics =
      [(.DiscardedPureCall, .Warning, ⟨51, 55⟩), (.NoEffect, .Error, ⟨57, 66⟩)] ∧
    parsed.analyze.Matches unaliased.analyze := by
  let items (written : Span → TypeTree) : List Item := [
    .Alias ⟨"A", ⟨6, 7⟩⟩ (.Basic ⟨10, 13⟩ .Integer),
    .Function ⟨⟨15, 39⟩, ⟨"f", ⟨19, 20⟩⟩, ⟨true, true⟩, .Basic ⟨15, 18⟩ .Integer,
      [⟨false, written ⟨21, 22⟩, some ⟨"p", ⟨23, 24⟩⟩⟩], none⟩,
    .Function ⟨⟨40, 69⟩, ⟨"g", ⟨45, 46⟩⟩, .none, .Basic ⟨40, 44⟩ .Void, [], some ⟨⟨49, 69⟩, [
      .Evaluate (.Call ⟨51, 55⟩ (.Identifier ⟨51, 52⟩ "f") [.Integer ⟨53, 54⟩ 1]),
      .Evaluate (.Cast ⟨57, 66⟩ (written ⟨62, 63⟩) (.Integer ⟨65, 66⟩ 2))]⟩⟩]
  let parse (written : Span → TypeTree) : ParsedModule :=
    ⟨"alias A = int; int f(A p) pure nothrow; void g() { f(1); cast(A) 2; }".toList, .usual,
      items written, #[]⟩
  let parsed := parse fun span => .Named span ⟨"A", span⟩
  let unaliased := parse fun span => .Basic span .Integer
  have hreplaces : ∀ span span', TypeTree.Edited (.unaliasing parsed.items) (.Named span ⟨"A", span⟩)
      (.Basic span' .Integer) := fun span span' =>
    .Replaced ⟨⟨"A", ⟨6, 7⟩⟩, .Basic ⟨10, 13⟩ .Integer, List.mem_cons_self, rfl, by simp [TypeTree.bare]⟩
  have hfree : ∀ text ∈ ["f", "g", "p"], ¬(Edit.unaliasing parsed.items).reserved text := by
    change ∀ text ∈ ["f", "g", "p"], ¬NamesType parsed.items text
    decide +kernel
  have hedited : parsed.Edited (.unaliasing parsed.items) Eq unaliased := by
    refine ⟨rfl, rfl, .cons (.Alias rfl) (.cons (.Function ?_) (.cons (.Function ?_) .nil))⟩
    · exact ⟨rfl, rfl, hfree "f" (by simp), rfl, .Basic, .cons ⟨hreplaces _ _⟩ .nil, rfl,
        by simpa using hfree "p" (by simp), .none⟩
    · exact ⟨rfl, rfl, hfree "g" (by simp), rfl, .Basic, .nil, rfl, by simp, .some ⟨rfl,
        .cons (.Evaluate (.Call (.Leaf rfl) (.cons (.Leaf rfl) .nil)))
          (.cons (.Evaluate (.Cast (hreplaces _ _) (.Leaf rfl))) .nil)⟩⟩
  have hwritten : ∀ name target, .Alias name target ∈ parsed.items → target.NoError := by
    intro name target hmem
    simp only [parsed, parse, items, List.mem_cons, Item.Alias.injEq, List.not_mem_nil, reduceCtorEq,
      or_false] at hmem
    exact hmem.2 ▸ .Basic
  have hknown : ∀ diagnostic ∈ parsed.analyze.diagnostics, diagnostic.kind ≠ .UnknownType := by
    decide +kernel
  have honce : ∀ diagnostic ∈ parsed.analyze.diagnostics, diagnostic.kind ≠ .DuplicateDefinition := by
    decide +kernel
  exact ⟨parsed, unaliased, hedited, hwritten, hknown, honce, by decide +kernel,
    aliases_are_transparent hedited hwritten hknown honce⟩

end ParsedModule

end EffectLint
