import EffectLint.Proofs.Arena.Growth
import EffectLint.Proofs.Discard.Policy

/-!
Checking an expression whose value is thrown away reports the verdict of the policy on it, and
changes nothing else. While gagged it only counts the errors. Whatever the program looks like,
checking adds to what has been reported and takes nothing back. About a whole module the verdict on
each of the values that it throws away is reported, in turn, and where warnings are not wanted, the
errors among them. What is asked about effects on the way does not depend on what is reported.
-/

namespace EffectLint

namespace Program

variable {program : Program}

-- Each judgement hands on less than it takes, so the sizes of the trees on the list bound the
-- number of steps.
theorem discardWithin_eq (wf : program.arena.WellFormed) (steps : Nat) (pending : List NodeId)
    (checking : Checking) (hmemo : checking.memo.Sound program.types)
    (hsteps : (pending.map program.treeSize).sum ≤ steps) :
    (program.discardWithin steps pending checking).2.reporter =
        checking.reporter.reportAll
          (pending.flatMap (program.verdict wf checking.reporter.warningsEnabled)) ∧
      (program.discardWithin steps pending checking).2.memo.Sound program.types := by
  induction steps generalizing pending checking with
  | zero =>
      cases pending with
      | nil => exact ⟨rfl, hmemo⟩
      | cons id rest =>
          rw [List.map_cons, List.sum_cons, treeSize_eq wf id] at hsteps
          omega
  | succ steps ih =>
      cases pending with
      | nil => exact ⟨rfl, hmemo⟩
      | cons id rest =>
          rw [discardWithin, Check.bind_apply]
          obtain ⟨hsound, ⟨found, hreported, hverdict⟩, hsmaller⟩ :=
            judge_judged wf checking id hmemo
          rw [List.map_cons, List.sum_cons] at hsteps
          have hnext : (((program.judge id checking).1 ++ rest).map program.treeSize).sum ≤
              steps := by
            rw [List.map_append, List.sum_append]
            omega
          obtain ⟨hreporter, hafter⟩ := ih _ _ hsound hnext
          have hwarns : (program.judge id checking).2.reporter.warningsEnabled =
              checking.reporter.warningsEnabled := by
            rw [hreported, Reporter.warningsEnabled_reportAll]
          refine ⟨?_, hafter⟩
          rw [hreporter, hwarns, hreported]
          simp only [List.flatMap_append, List.flatMap_cons, hverdict, List.append_assoc,
            Reporter.reportAll_append]

theorem discard_reporter (wf : program.arena.WellFormed) (root : NodeId) (checking : Checking)
    (hmemo : checking.memo.Sound program.types) :
    ((program.discard root).run checking).2.reporter =
      checking.reporter.reportAll
        (program.verdict wf checking.reporter.warningsEnabled root) := by
  have hsteps : ([root].map program.treeSize).sum ≤ root.index + 1 := by
    have hlength := wf.length_postorder_le root
    simpa [treeSize] using hlength
  have hrun := (discardWithin_eq wf (root.index + 1) [root] checking hmemo hsteps).1
  rwa [List.flatMap_cons, List.flatMap_nil, List.append_nil] at hrun

-- The reporter grows by exactly the verdict, in its order. Under a gag the reports stay as they
-- are and the errors of the verdict are counted.
theorem discard_reports_verdict (program : Program) (wf : program.arena.WellFormed)
    (root : NodeId) (checking : Checking) (hmemo : checking.memo.Sound program.types) :
    let found := program.verdict wf checking.reporter.warningsEnabled root
    ((program.discard root).run checking).2.reporter =
      if checking.reporter.isGagged then
        { checking.reporter with
          swallowed := checking.reporter.swallowed + Diagnostics.errorCount found }
      else
        { checking.reporter with
          diagnostics := checking.reporter.diagnostics ++ found.toArray } := by
  intro found
  rw [discard_reporter wf root checking hmemo]
  cases hgag : checking.reporter.isGagged with
  | true => rw [if_pos rfl, Reporter.reportAll_of_gagged hgag]
  | false =>
      rw [if_neg Bool.false_ne_true, Reporter.reportAll_of_not_gagged hgag]

-- `true ? 1 : null`
def choice : Program :=
  let condition := (Arena.empty.add ⟨.Boolean true, some .bool, ⟨0, 4⟩⟩).2
  let yes := (condition.add ⟨.Integer 1, some .int, ⟨7, 8⟩⟩).2
  let no := (yes.add ⟨.Null, some .null, ⟨11, 15⟩⟩).2
  { empty with arena := (no.add ⟨.Conditional ⟨0⟩ ⟨1⟩ ⟨2⟩, some .int, ⟨0, 15⟩⟩).2 }

theorem choice_wellFormed : choice.arena.WellFormed :=
  (((Arena.wellFormed_empty.add _ (by decide) (by decide)).add _ (by decide) (by decide)).add _
    (by decide) (by decide)).add _ (by decide) (by decide)

-- Both branches are judged, the first one first.
theorem discard_reports_both_branches :
    choice.arena.WellFormed ∧ PurityMemo.empty.Sound choice.types ∧
      ((choice.discard ⟨3⟩).run ⟨.start .Informational #[], .empty⟩).2.reporter =
        .start .Informational #[
          ⟨.NoEffect, .Error, ⟨7, 8⟩, "`literal` has no effect in expression (1)", none, []⟩,
          ⟨.NoEffect, .Error, ⟨11, 15⟩, "`null` has no effect in expression (null)", none, []⟩] := by
  have hmemo := PurityMemo.sound_empty choice.types
  refine ⟨choice_wellFormed, hmemo, ?_⟩
  rw [discard_reports_verdict choice choice_wellFormed ⟨3⟩ ⟨.start .Informational #[], .empty⟩ hmemo]
  have hyes : choice.verdict choice_wellFormed true ⟨1⟩ = [choice.withoutEffect ⟨1⟩] :=
    @verdict_of_kind choice choice_wellFormed true ⟨1⟩ (.Integer 1) rfl rfl
  have hno : choice.verdict choice_wellFormed true ⟨2⟩ = [choice.withoutEffect ⟨2⟩] :=
    @verdict_of_kind choice choice_wellFormed true ⟨2⟩ .Null rfl rfl
  have hroot : choice.verdict choice_wellFormed
      (Reporter.start .Informational #[]).warningsEnabled ⟨3⟩ =
        [choice.withoutEffect ⟨1⟩, choice.withoutEffect ⟨2⟩] := by
    have hkind := @verdict_of_kind choice choice_wellFormed true ⟨3⟩
      (.Conditional ⟨0⟩ ⟨1⟩ ⟨2⟩) rfl rfl
    simp only [hyes, hno] at hkind
    exact hkind
  have hyesSaid : choice.withoutEffect ⟨1⟩ =
      ⟨.NoEffect, .Error, ⟨7, 8⟩, "`literal` has no effect in expression (1)", none, []⟩ := by decide
  have hnoSaid : choice.withoutEffect ⟨2⟩ =
      ⟨.NoEffect, .Error, ⟨11, 15⟩, "`null` has no effect in expression (null)", none, []⟩ := by decide
  simp only [hroot, hyesSaid, hnoSaid]
  rfl

end Program

namespace Check

-- A computation that reports some more and leaves the reporter alone otherwise.
def Adds {α : Type} (body : Check α) : Prop :=
  ∀ checking, ∃ found, (body checking).2.reporter = checking.reporter.reportAll found

namespace Adds

variable {α β : Type}

theorem pure (answer : α) : Adds (Pure.pure answer) :=
  fun _ => ⟨[], rfl⟩

theorem bind {first : Check α} {next : α → Check β} (hfirst : Adds first)
    (hnext : ∀ answer, Adds (next answer)) : Adds (first >>= next) := by
  intro checking
  obtain ⟨found, hfound⟩ := hfirst checking
  obtain ⟨more, hmore⟩ := hnext (first checking).1 (first checking).2
  refine ⟨found ++ more, ?_⟩
  rw [Check.bind_apply, hmore, hfound, Reporter.reportAll_append]

theorem ask (question : Remembering α) : Adds (ask question) :=
  fun _ => ⟨[], rfl⟩

theorem report (diagnostic : Diagnostic) : Adds (report diagnostic) :=
  fun _ => ⟨[diagnostic], rfl⟩

theorem forM {step : α → Check Unit} (hstep : ∀ item, Adds (step item)) (items : List α) :
    Adds (items.forM step) := by
  induction items with
  | nil => exact .pure ()
  | cons first rest ih =>
      rw [List.forM_eq_forM, List.forM_cons]
      exact (hstep first).bind fun _ => ih

end Adds

end Check

namespace Program

open Check

variable (program : Program)

theorem warnOfCall_adds (id callee : NodeId) (function : Option FunctionId) :
    Adds (program.warnOfCall id callee function) := by
  have hget : Adds (get : Check Checking) := fun _ => ⟨[], rfl⟩
  refine hget.bind fun checking => ?_
  split
  · split
    · split
      · exact .pure ()
      · exact .report _
    · exact .pure ()
  · exact .pure ()

theorem judge_adds (id : NodeId) : Adds (program.judge id) := by
  have hreport : ∀ diagnostic, Adds (do report diagnostic; return ([] : List NodeId)) :=
    fun diagnostic => (Adds.report diagnostic).bind fun _ => .pure _
  refine (Adds.ask _).bind fun effectful => ?_
  split
  · exact .pure _
  · cases program.arena.kind id with
    | Cast type operand =>
        dsimp only
        split
        · exact .pure _
        · exact hreport _
    | Call callee arguments function =>
        exact (program.warnOfCall_adds id callee function).bind fun _ => .pure _
    | Tuple elements =>
        refine (Adds.ask _).bind fun deep => ?_
        split
        · exact .pure _
        · exact hreport _
    | Error | Logical | Conditional | Comma => exact .pure _
    | _ => exact hreport _

theorem discardWithin_adds (steps : Nat) (pending : List NodeId) :
    Adds (program.discardWithin steps pending) := by
  induction steps generalizing pending with
  | zero => exact .pure ()
  | succ steps ih =>
      cases pending with
      | nil => exact .pure ()
      | cons id rest => exact (program.judge_adds id).bind fun next => ih (next ++ rest)

theorem checkDiscards_adds : Adds program.checkDiscards :=
  .forM (fun _ => program.discardWithin_adds _ _) _

end Program

namespace Check

-- What is answered and remembered is the same whoever is told.
def AsksAlike {α : Type} (body : Check α) : Prop :=
  ∀ checking checking', checking.memo = checking'.memo →
    (body checking).1 = (body checking').1 ∧ (body checking).2.memo = (body checking').2.memo

namespace AsksAlike

variable {α β : Type}

theorem pure (answer : α) : AsksAlike (Pure.pure answer) :=
  fun _ _ h => ⟨rfl, h⟩

theorem bind {first : Check α} {next : α → Check β} (hfirst : AsksAlike first)
    (hnext : ∀ answer, AsksAlike (next answer)) : AsksAlike (first >>= next) := by
  intro checking checking' h
  obtain ⟨hanswer, hmemo⟩ := hfirst checking checking' h
  rw [Check.bind_apply, Check.bind_apply, hanswer]
  exact hnext _ _ _ hmemo

theorem ask (question : Remembering α) : AsksAlike (ask question) := by
  intro checking checking' h
  simp only [Check.ask]
  rw [h]
  exact ⟨rfl, rfl⟩

theorem report (diagnostic : Diagnostic) : AsksAlike (report diagnostic) :=
  fun _ _ h => ⟨rfl, h⟩

theorem forM {step : α → Check Unit} (hstep : ∀ item, AsksAlike (step item)) (items : List α) :
    AsksAlike (items.forM step) := by
  induction items with
  | nil => exact .pure ()
  | cons first rest ih =>
      rw [List.forM_eq_forM, List.forM_cons]
      exact (hstep first).bind fun _ => ih

end AsksAlike

end Check

namespace Program

open Check

variable (program : Program)

theorem warnOfCall_asksAlike (id callee : NodeId) (function : Option FunctionId) :
    AsksAlike (program.warnOfCall id callee function) := by
  have hmemo : ∀ checking, (program.warnOfCall id callee function checking).2.memo =
      checking.memo := by
    intro checking
    have hget : (get : Check Checking) checking = (checking, checking) := rfl
    simp only [warnOfCall, bind_apply, hget]
    split
    · cases program.arena.type? id with
      | none => rfl
      | some result => cases hvoid : program.types.isVoid result <;> simp only [hvoid] <;> rfl
    · rfl
  exact fun checking checking' h => ⟨rfl, ((hmemo _).trans h).trans (hmemo _).symm⟩

theorem judge_asksAlike (id : NodeId) : AsksAlike (program.judge id) := by
  have hreport : ∀ diagnostic, AsksAlike (do report diagnostic; return ([] : List NodeId)) :=
    fun diagnostic => (AsksAlike.report diagnostic).bind fun _ => .pure _
  refine (AsksAlike.ask _).bind fun effectful => ?_
  split
  · exact .pure _
  · cases program.arena.kind id with
    | Cast type operand =>
        dsimp only
        split
        · exact .pure _
        · exact hreport _
    | Call callee arguments function =>
        exact (program.warnOfCall_asksAlike id callee function).bind fun _ => .pure _
    | Tuple elements =>
        refine (AsksAlike.ask _).bind fun deep => ?_
        split
        · exact .pure _
        · exact hreport _
    | Error | Logical | Conditional | Comma => exact .pure _
    | _ => exact hreport _

theorem discardWithin_asksAlike (steps : Nat) (pending : List NodeId) :
    AsksAlike (program.discardWithin steps pending) := by
  induction steps generalizing pending with
  | zero => exact .pure ()
  | succ steps ih =>
      cases pending with
      | nil => exact .pure ()
      | cons id rest => exact (program.judge_asksAlike id).bind fun next => ih (next ++ rest)

theorem checkDiscards_asksAlike : AsksAlike program.checkDiscards :=
  .forM (fun _ => program.discardWithin_asksAlike _ _) _

end Program

namespace Program

variable {program : Program}

-- The verdicts on all values that are thrown away.
def verdicts (program : Program) (wf : program.arena.WellFormed) (warns : Bool) : List Diagnostic :=
  program.discards.flatMap fun discarded => program.verdict wf warns discarded.value

theorem discard_memo (wf : program.arena.WellFormed) (root : NodeId) (checking : Checking)
    (hmemo : checking.memo.Sound program.types) :
    (program.discard root checking).2.memo.Sound program.types := by
  have hsteps : ([root].map program.treeSize).sum ≤ root.index + 1 := by
    have hlength := wf.length_postorder_le root
    simpa [treeSize] using hlength
  exact (discardWithin_eq wf (root.index + 1) [root] checking hmemo hsteps).2

theorem forM_discard_reporter (wf : program.arena.WellFormed) (values : List Discard)
    (checking : Checking) (hmemo : checking.memo.Sound program.types) :
    (values.forM (fun discarded => program.discard discarded.value) checking).2.reporter =
      checking.reporter.reportAll (values.flatMap fun discarded =>
        program.verdict wf checking.reporter.warningsEnabled discarded.value) := by
  induction values generalizing checking with
  | nil => rfl
  | cons first rest ih =>
      have hfirst : (program.discard first.value checking).2.reporter = _ :=
        discard_reporter wf first.value checking hmemo
      rw [List.forM_eq_forM, List.forM_cons, Check.bind_apply, ← List.forM_eq_forM,
        ih _ (discard_memo wf first.value checking hmemo), hfirst,
        Reporter.warningsEnabled_reportAll, List.flatMap_cons, Reporter.reportAll_append]

theorem checkDiscards_reporter (wf : program.arena.WellFormed) (checking : Checking)
    (hmemo : checking.memo.Sound program.types) :
    (program.checkDiscards checking).2.reporter =
      checking.reporter.reportAll (program.verdicts wf checking.reporter.warningsEnabled) :=
  forM_discard_reporter wf program.discards checking hmemo

-- Whether a call without an effect is reported is all that the wish for warnings decides.
theorem verdict_without_warnings (wf : program.arena.WellFormed) (id : NodeId) :
    program.verdict wf false id = (program.verdict wf true id).filter Diagnostic.isError := by
  induction hindex : id.index using Nat.strongRecOn generalizing id with
  | ind index ih =>
      subst hindex
      cases heffect : program.isEffectful id with
      | true => rw [verdict, verdict, if_pos heffect, if_pos heffect, List.filter_nil]
      | false =>
          have hlt : ∀ {operand}, operand ∈ (program.arena.kind id).operands →
              operand.index < id.index := fun hmem => wf.operand_lt hmem
          have hoff : ∀ {kind}, program.arena.kind id = kind → _ :=
            verdict_of_kind wf false heffect
          have hon : ∀ {kind}, program.arena.kind id = kind → _ :=
            verdict_of_kind wf true heffect
          cases hkind : program.arena.kind id with
          | Logical op left right =>
              rw [hoff hkind, hon hkind]
              exact ih _ (hlt (by simp [hkind, NodeKind.operands])) right rfl
          | Conditional condition yes no =>
              rw [hoff hkind, hon hkind]
              dsimp only
              rw [List.filter_append, ih _ (hlt (by simp [hkind, NodeKind.operands])) yes rfl,
                ih _ (hlt (by simp [hkind, NodeKind.operands])) no rfl]
          | Comma first second =>
              rw [hoff hkind, hon hkind]
              dsimp only
              split
              · rfl
              · exact ih _ (hlt (by simp [hkind, NodeKind.operands])) second rfl
          | Call callee arguments function =>
              have hwarning : ∀ result, (program.discardedCall id callee function result).isError =
                  false := fun _ => rfl
              rw [hoff hkind, hon hkind]
              dsimp only
              cases program.arena.type? id with
              | none => rfl
              | some result => cases program.types.isVoid result <;> simp [hwarning]
          | Cast type operand =>
              rw [hoff hkind, hon hkind]
              dsimp only
              split <;> rfl
          | Tuple elements =>
              rw [hoff hkind, hon hkind]
              dsimp only
              split <;> rfl
          | _ =>
              rw [hoff hkind, hon hkind]
              rfl

theorem verdicts_without_warnings (wf : program.arena.WellFormed) :
    program.verdicts wf false = (program.verdicts wf true).filter Diagnostic.isError := by
  rw [verdicts, verdicts, List.filter_flatMap]
  simp only [verdict_without_warnings wf]

end Program

end EffectLint
