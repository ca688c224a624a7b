import EffectLint.Discard.Check
import EffectLint.Proofs.Effect.Declared
import Mathlib.Algebra.Order.BigOperators.Group.List
import Mathlib.Algebra.Order.Group.Nat

/-!
The policy on values that are thrown away, as a recursion over the tree of an expression. The
check, which keeps what is to be judged on a list, reports exactly what the policy finds and in
the order in which the policy finds it.
-/

namespace EffectLint

namespace Reporter

def reportAll (reporter : Reporter) (found : List Diagnostic) : Reporter :=
  found.foldl Reporter.report reporter

theorem reportAll_append (reporter : Reporter) (left right : List Diagnostic) :
    reporter.reportAll (left ++ right) = (reporter.reportAll left).reportAll right :=
  List.foldl_append

theorem isGagged_report (reporter : Reporter) (diagnostic : Diagnostic) :
    (reporter.report diagnostic).isGagged = reporter.isGagged := by
  unfold report
  split
  · split <;> rfl
  · rfl

theorem warningsEnabled_report (reporter : Reporter) (diagnostic : Diagnostic) :
    (reporter.report diagnostic).warningsEnabled = reporter.warningsEnabled := by
  unfold report
  split
  · split <;> rfl
  · rfl

theorem warningsEnabled_reportAll (reporter : Reporter) (found : List Diagnostic) :
    (reporter.reportAll found).warningsEnabled = reporter.warningsEnabled := by
  induction found generalizing reporter with
  | nil => rfl
  | cons first rest ih => exact (ih _).trans (warningsEnabled_report reporter first)

theorem reportAll_of_not_gagged {reporter : Reporter} (hgag : reporter.isGagged = false)
    (found : List Diagnostic) :
    reporter.reportAll found =
      { reporter with diagnostics := reporter.diagnostics ++ found.toArray } := by
  induction found generalizing reporter with
  | nil => simp [reportAll]
  | cons first rest ih =>
      have hnext := (isGagged_report reporter first).trans hgag
      calc
        reporter.reportAll (first :: rest) = (reporter.report first).reportAll rest := rfl
        _ = { reporter.report first with
              diagnostics := (reporter.report first).diagnostics ++ rest.toArray } := ih hnext
        _ = { reporter with diagnostics := reporter.diagnostics ++ (first :: rest).toArray } := by
          simp [report, hgag]

theorem reportAll_of_gagged {reporter : Reporter} (hgag : reporter.isGagged = true)
    (found : List Diagnostic) :
    reporter.reportAll found =
      { reporter with swallowed := reporter.swallowed + Diagnostics.errorCount found } := by
  induction found generalizing reporter with
  | nil => simp [reportAll, Diagnostics.errorCount]
  | cons first rest ih =>
      have hnext := (isGagged_report reporter first).trans hgag
      calc
        reporter.reportAll (first :: rest) = (reporter.report first).reportAll rest := rfl
        _ = { reporter.report first with
              swallowed := (reporter.report first).swallowed + Diagnostics.errorCount rest } :=
          ih hnext
        _ = { reporter with
              swallowed := reporter.swallowed + Diagnostics.errorCount (first :: rest) } := by
          cases herror : first.isError with
          | true => simp [report, hgag, herror, Diagnostics.errorCount, Nat.add_comm, Nat.add_left_comm]
          | false => simp [report, hgag, herror, Diagnostics.errorCount]

end Reporter

namespace Program

variable (program : Program)

-- The operand that a chain of commas starts with.
def leftmost (wf : program.arena.WellFormed) (id : NodeId) : NodeId :=
  match _hkind : program.arena.kind id with
  | .Comma first _ => leftmost wf first
  | _ => id
termination_by id.index
decreasing_by exact wf.operand_lt (by simp [Arena.operands, _hkind, NodeKind.operands])

-- Whether the chain yields just the variable that it starts by declaring.
def isTemporary (wf : program.arena.WellFormed) (first second : NodeId) : Bool :=
  match program.arena.kind (program.leftmost wf first), program.arena.kind second with
  | .Declare declared _, .Variable yielded => declared == yielded
  | _, _ => false

-- What is to be said about a value that is thrown away, where `warns` tells whether warnings
-- are wanted.
def verdict (wf : program.arena.WellFormed) (warns : Bool) (id : NodeId) : List Diagnostic :=
  if program.isEffectful id then []
  else
    match _hkind : program.arena.kind id with
    | .Cast type _ => if program.types.isVoid type then [] else [program.withoutEffect id]
    | .Error => []
    | .Call callee _ function =>
        match program.arena.type? id with
        | some result =>
            if warns && !program.types.isVoid result then
              [program.discardedCall id callee function result]
            else []
        | none => []
    | .Module module => [program.moduleWithoutEffect id module]
    | .Logical _ _ right => verdict wf warns right
    | .Conditional _ yes no => verdict wf warns yes ++ verdict wf warns no
    | .Comma first second =>
        if program.isTemporary wf first second then [] else verdict wf warns second
    | .Tuple _ =>
        if (program.arena.postorder id).any program.isEffectful then []
        else [program.withoutEffect id]
    | _ => [program.withoutEffect id]
termination_by id.index
decreasing_by all_goals exact wf.operand_lt (by simp [Arena.operands, _hkind, NodeKind.operands])

variable {program}

theorem firstOfCommasWithin_eq (wf : program.arena.WellFormed) (depth : Nat) (id : NodeId)
    (hdepth : id.index < depth) : program.firstOfCommasWithin depth id = program.leftmost wf id := by
  induction depth generalizing id with
  | zero => omega
  | succ depth ih =>
      rw [firstOfCommasWithin, leftmost]
      cases hkind : program.arena.kind id with
      | Comma first second =>
          have hlt : first.index < id.index :=
            wf.operand_lt (by simp [Arena.operands, hkind, NodeKind.operands])
          exact ih first (by omega)
      | _ => rfl

theorem yieldsTemporary_eq (wf : program.arena.WellFormed) (first second : NodeId) :
    program.yieldsTemporary first second = program.isTemporary wf first second := by
  have hfirst : program.firstOfCommas first = program.leftmost wf first :=
    firstOfCommasWithin_eq wf _ first (Nat.lt_succ_self _)
  rw [isTemporary, ← hfirst]
  rfl

end Program

namespace Check

theorem bind_apply {α β : Type} (first : Check α) (next : α → Check β) (checking : Checking) :
    (first >>= next) checking = next (first checking).1 (first checking).2 := rfl

theorem pure_apply {α : Type} (answer : α) (checking : Checking) :
    (pure answer : Check α) checking = (answer, checking) := rfl

theorem ask_apply {α : Type} {table : TypeTable} {question : Remembering α} {answer : α}
    (hanswers : Remembering.Answers table question answer) (checking : Checking)
    (hmemo : checking.memo.Sound table) :
    ∃ memo, memo.Sound table ∧ ask question checking = (answer, { checking with memo }) := by
  obtain ⟨hanswer, hafter⟩ := hanswers checking.memo hmemo
  refine ⟨(question checking.memo).2, hafter, ?_⟩
  rw [← hanswer]
  rfl

end Check

namespace Program

variable {program : Program}

-- The number of nodes in the tree of an expression bounds the judgements that it takes.
def treeSize (program : Program) (id : NodeId) : Nat :=
  (program.arena.postorder id).length

theorem treeSize_eq (wf : program.arena.WellFormed) (id : NodeId) :
    program.treeSize id = ((program.arena.operands id).map program.treeSize).sum + 1 := by
  unfold treeSize
  rw [wf.postorder_eq, List.length_append, List.length_flatMap, List.length_singleton]

-- What one judgement reports and what it passes on make up the verdict, and the trees that are
-- passed on are smaller together.
structure Judged (wf : program.arena.WellFormed) (checking : Checking) (id : NodeId)
    (next : List NodeId) (after : Checking) : Prop where
  sound : after.memo.Sound program.types
  reported : ∃ found, after.reporter = checking.reporter.reportAll found ∧
    program.verdict wf checking.reporter.warningsEnabled id =
      found ++ next.flatMap (program.verdict wf checking.reporter.warningsEnabled)
  smaller : (next.map program.treeSize).sum < program.treeSize id

theorem Judged.nothing {wf : program.arena.WellFormed} {checking : Checking} {id : NodeId}
    {memo : PurityMemo} (hmemo : memo.Sound program.types)
    (hverdict : program.verdict wf checking.reporter.warningsEnabled id = []) :
    Judged wf checking id [] { checking with memo } where
  sound := hmemo
  reported := ⟨[], rfl, hverdict⟩
  smaller := by simp [treeSize_eq wf id]

theorem Judged.one {wf : program.arena.WellFormed} {checking : Checking} {id : NodeId}
    {memo : PurityMemo} {diagnostic : Diagnostic} (hmemo : memo.Sound program.types)
    (hverdict : program.verdict wf checking.reporter.warningsEnabled id = [diagnostic]) :
    Judged wf checking id [] ⟨checking.reporter.report diagnostic, memo⟩ where
  sound := hmemo
  reported := ⟨[diagnostic], rfl, hverdict⟩
  smaller := by simp [treeSize_eq wf id]

theorem Judged.passedOn {wf : program.arena.WellFormed} {checking : Checking} {id : NodeId}
    {memo : PurityMemo} {next : List NodeId} (hmemo : memo.Sound program.types)
    (hnext : next.Sublist (program.arena.operands id))
    (hverdict : program.verdict wf checking.reporter.warningsEnabled id =
      next.flatMap (program.verdict wf checking.reporter.warningsEnabled)) :
    Judged wf checking id next { checking with memo } where
  sound := hmemo
  reported := ⟨[], rfl, hverdict⟩
  smaller := by
    have hsum := (hnext.map program.treeSize).sum_le_sum (fun _ _ => Nat.zero_le _)
    rw [treeSize_eq wf id]
    omega

-- The verdict on a node whose evaluation has no effect, by its kind.
theorem verdict_of_kind (wf : program.arena.WellFormed) (warns : Bool) {id : NodeId}
    {kind : NodeKind} (heffect : program.isEffectful id = false) :
    program.arena.kind id = kind → program.verdict wf warns id =
      match kind with
      | .Cast type _ => if program.types.isVoid type then [] else [program.withoutEffect id]
      | .Error => []
      | .Call callee _ function =>
          match program.arena.type? id with
          | some result =>
              if warns && !program.types.isVoid result then
                [program.discardedCall id callee function result]
              else []
          | none => []
      | .Module module => [program.moduleWithoutEffect id module]
      | .Logical _ _ right => program.verdict wf warns right
      | .Conditional _ yes no => program.verdict wf warns yes ++ program.verdict wf warns no
      | .Comma first second =>
          if program.isTemporary wf first second then [] else program.verdict wf warns second
      | .Tuple _ =>
          if (program.arena.postorder id).any program.isEffectful then []
          else [program.withoutEffect id]
      | _ => [program.withoutEffect id] := by
  rintro rfl
  rw [verdict]
  simp only [heffect, Bool.false_eq_true, if_false]
  split <;> simp_all

-- What can be said of a node, by its kind, and how grave it is.
def remark : NodeKind → DiagnosticKind × Severity
  | .Call _ _ _ => (.DiscardedPureCall, .Warning)
  | .Module _ => (.ModuleHasNoEffect, .Error)
  | _ => (.NoEffect, .Error)

structure Remarks (program : Program) (id : NodeId) (diagnostic : Diagnostic) : Prop where
  span : diagnostic.span = (program.arena.node id).span
  remark : (diagnostic.kind, diagnostic.severity) = remark (program.arena.kind id)

-- Everything that is said of a value is said of a node in its tree.
theorem verdict_remarks (wf : program.arena.WellFormed) (warns : Bool) (id : NodeId) :
    ∀ diagnostic ∈ program.verdict wf warns id,
      ∃ judged, program.arena.Below id judged ∧ program.Remarks judged diagnostic := by
  induction hindex : id.index using Nat.strongRecOn generalizing id with
  | ind index ih =>
      subst hindex
      intro diagnostic hmem
      have heffect : program.isEffectful id = false := by
        refine Bool.eq_false_iff.mpr fun heffect => ?_
        rw [verdict, if_pos heffect] at hmem
        exact List.not_mem_nil hmem
      -- what is passed on is said of a node below an operand
      have hpassed : ∀ {operand}, operand ∈ (program.arena.kind id).operands →
          diagnostic ∈ program.verdict wf warns operand →
          ∃ judged, program.arena.Below id judged ∧ program.Remarks judged diagnostic := by
        intro operand hoperand hmem
        obtain ⟨judged, hbelow, hremarks⟩ := ih _ (wf.operand_lt hoperand) operand rfl _ hmem
        exact ⟨judged, .head hoperand hbelow, hremarks⟩
      have hsaid : ∀ {said}, program.Remarks id said → diagnostic ∈ [said] →
          ∃ judged, program.arena.Below id judged ∧ program.Remarks judged diagnostic := by
        rintro said hremarks hmem
        exact ⟨id, .refl, List.mem_singleton.mp hmem ▸ hremarks⟩
      have hverdict : ∀ {kind}, program.arena.kind id = kind → _ :=
        verdict_of_kind wf warns heffect
      cases hkind : program.arena.kind id with
      | Logical op left right =>
          rw [hverdict hkind] at hmem
          exact hpassed (by simp [hkind, NodeKind.operands]) hmem
      | Conditional condition yes no =>
          rw [hverdict hkind] at hmem
          rcases List.mem_append.mp hmem with hmem | hmem
          · exact hpassed (by simp [hkind, NodeKind.operands]) hmem
          · exact hpassed (by simp [hkind, NodeKind.operands]) hmem
      | Comma first second =>
          rw [hverdict hkind] at hmem
          dsimp only at hmem
          split at hmem
          · exact absurd hmem List.not_mem_nil
          · exact hpassed (by simp [hkind, NodeKind.operands]) hmem
      | Call callee arguments function =>
          rw [hverdict hkind] at hmem
          dsimp only at hmem
          split at hmem
          · split at hmem
            · exact hsaid ⟨rfl, by rw [hkind]; rfl⟩ hmem
            · exact absurd hmem List.not_mem_nil
          · exact absurd hmem List.not_mem_nil
      | Error =>
          rw [hverdict hkind] at hmem
          exact absurd hmem List.not_mem_nil
      | Cast type operand =>
          rw [hverdict hkind] at hmem
          dsimp only at hmem
          split at hmem
          · exact absurd hmem List.not_mem_nil
          · exact hsaid ⟨rfl, by rw [hkind]; rfl⟩ hmem
      | Tuple elements =>
          rw [hverdict hkind] at hmem
          dsimp only at hmem
          split at hmem
          · exact absurd hmem List.not_mem_nil
          · exact hsaid ⟨rfl, by rw [hkind]; rfl⟩ hmem
      | _ =>
          rw [hverdict hkind] at hmem
          exact hsaid ⟨rfl, by rw [hkind]; rfl⟩ hmem

-- A call is reported at most once, and not at all if it returns nothing.
theorem warnOfCall_judged (wf : program.arena.WellFormed) {checking : Checking}
    {id callee : NodeId} {arguments : List NodeId} {function : Option FunctionId}
    {memo : PurityMemo} (hmemo : memo.Sound program.types)
    (heffect : program.isEffectful id = false)
    (hkind : program.arena.kind id = .Call callee arguments function) :
    Judged wf checking id []
      (program.warnOfCall id callee function { checking with memo }).2 := by
  have hverdict := verdict_of_kind wf checking.reporter.warningsEnabled heffect hkind
  simp only at hverdict
  have hget : (get : Check Checking) { checking with memo } =
      ({ checking with memo }, { checking with memo }) := rfl
  unfold warnOfCall
  simp only [Check.bind_apply, hget]
  split
  · next hwarns =>
    cases htype : program.arena.type? id with
    | none => exact .nothing hmemo (by rw [hverdict, htype])
    | some result =>
        cases hvoid : program.types.isVoid result with
        | true =>
            simp only [hvoid, if_true]
            exact .nothing hmemo (by simp [hverdict, htype, hvoid])
        | false =>
            simp only [hvoid, Bool.false_eq_true, if_false]
            exact .one hmemo (by rw [hverdict]; simp [htype, hvoid, hwarns])
  · next hwarns =>
    refine .nothing hmemo ?_
    rw [hverdict]
    cases program.arena.type? id <;> simp [hwarns]

theorem judge_judged (wf : program.arena.WellFormed) (checking : Checking) (id : NodeId)
    (hmemo : checking.memo.Sound program.types) :
    Judged wf checking id (program.judge id checking).1 (program.judge id checking).2 := by
  obtain ⟨memo, hsound, hask⟩ := Check.ask_apply (answers_hasShallowEffect id) checking hmemo
  cases heffect : program.isEffectful id with
  | true =>
      simp only [judge, Check.bind_apply, hask, heffect, if_true]
      exact .nothing hsound (by rw [verdict, if_pos heffect])
  | false =>
      simp only [judge, Check.bind_apply, hask, heffect, Bool.false_eq_true, if_false]
      have hoperands : program.arena.operands id = (program.arena.kind id).operands := rfl
      have hverdict : ∀ {kind}, program.arena.kind id = kind → _ :=
        verdict_of_kind wf checking.reporter.warningsEnabled heffect
      cases hkind : program.arena.kind id with
      | Call callee arguments function => exact warnOfCall_judged wf hsound heffect hkind
      | Error => exact .nothing hsound (hverdict hkind)
      | Module module => exact .one hsound (hverdict hkind)
      | Cast type operand =>
          cases hvoid : program.types.isVoid type with
          | true =>
              simp only [hvoid, if_true]
              exact .nothing hsound (by simp [hverdict hkind, hvoid])
          | false =>
              simp only [hvoid, Bool.false_eq_true, if_false]
              exact .one hsound (by simp [hverdict hkind, hvoid])
      | Logical op left right =>
          refine .passedOn hsound ?_ (by simp [hverdict hkind, Check.pure_apply])
          rw [hoperands, hkind]
          exact .cons _ (.refl _)
      | Conditional condition yes no =>
          refine .passedOn hsound ?_ (by simp [hverdict hkind, Check.pure_apply])
          rw [hoperands, hkind]
          exact .cons _ (.refl _)
      | Comma first second =>
          have htemporary := yieldsTemporary_eq wf first second
          cases hyields : program.isTemporary wf first second with
          | true =>
              simp only [htemporary, hyields, if_true]
              exact .nothing hsound (by simp [hverdict hkind, hyields])
          | false =>
              simp only [htemporary, hyields, Bool.false_eq_true, if_false]
              refine .passedOn hsound ?_ (by simp [hverdict hkind, hyields, Check.pure_apply])
              rw [hoperands, hkind]
              exact .cons _ (.refl _)
      | Tuple elements =>
          obtain ⟨later, hlater, hdeep⟩ := Check.ask_apply (answers_hasEffect wf id)
            { checking with memo } hsound
          simp only [Check.bind_apply, hdeep]
          cases hinside : (program.arena.postorder id).any program.isEffectful with
          | true =>
              simp only [if_true]
              exact .nothing hlater (by simp [hverdict hkind, hinside])
          | false =>
              simp only [Bool.false_eq_true, if_false]
              exact .one hlater (by simp [hverdict hkind, hinside])
      | _ => exact .one hsound (hverdict hkind)

end Program

end EffectLint
