import EffectLint.Report.Reporter
import Mathlib.Data.List.Basic

/-!
Regions in which a reporter is gagged, one inside another to any depth. A reporter keeps exactly what
it is told outside of all regions, and counts the errors among the rest. What a region answers when it
ends depends on nothing but what was reported in it, and leaves the reporter as loud as it was before.
-/

namespace EffectLint

namespace Reporter

-- A diagnostic is reported as it was made in the end: with any severity, whatever its kind has.
inductive Action where
  | StartGag
  | EndGag
  | Report (diagnostic : Diagnostic)

def Action.isError : Action → Bool
  | .Report diagnostic => diagnostic.isError
  | .StartGag | .EndGag => false

-- Every gag that starts ends, and none ends that has not started.
inductive Balanced : List Action → Prop where
  | Nil : Balanced []
  | Report (diagnostic : Diagnostic) : Balanced [.Report diagnostic]
  | Append {first second} : Balanced first → Balanced second → Balanced (first ++ second)
  | Region {inside} : Balanced inside → Balanced (.StartGag :: inside ++ [.EndGag])

-- A reporter with the gags that are open, the innermost first, and the answers of those that have
-- ended, the latest first.
structure Gagging where
  reporter : Reporter
  gags : List Gag
  answers : List Bool

namespace Gagging

def start (mode : WarningMode) (diagnostics : Array Diagnostic) : Gagging :=
  ⟨.start mode diagnostics, [], []⟩

-- The gag that ends is the innermost one.
def act (gagging : Gagging) : Action → Gagging
  | .StartGag =>
      let (gag, reporter) := gagging.reporter.startGag
      ⟨reporter, gag :: gagging.gags, gagging.answers⟩
  | .EndGag =>
      match gagging.gags with
      | [] => gagging
      | gag :: gags =>
          let (answer, reporter) := gagging.reporter.endGag gag
          ⟨reporter, gags, answer :: gagging.answers⟩
  | .Report diagnostic => { gagging with reporter := gagging.reporter.report diagnostic }

def perform (gagging : Gagging) (actions : List Action) : Gagging :=
  actions.foldl act gagging

end Gagging

-- What is reported, with the number of gags around it.
def reportsFrom : Nat → List Action → List (Nat × Diagnostic)
  | _, [] => []
  | depth, .StartGag :: rest => reportsFrom (depth + 1) rest
  | depth, .EndGag :: rest => reportsFrom (depth - 1) rest
  | depth, .Report diagnostic :: rest => (depth, diagnostic) :: reportsFrom depth rest

-- Of what is reported, that which stands outside of all gags, and the rest.
def heard (reports : List (Nat × Diagnostic)) : List Diagnostic :=
  (reports.filter (·.1 = 0)).map Prod.snd

def hushed (reports : List (Nat × Diagnostic)) : List Diagnostic :=
  (reports.filter (0 < ·.1)).map Prod.snd

theorem heard_cons (depth : Nat) (diagnostic : Diagnostic) (rest : List (Nat × Diagnostic)) :
    heard ((depth, diagnostic) :: rest) =
      if depth = 0 then diagnostic :: heard rest else heard rest := by
  by_cases hdepth : depth = 0 <;> simp [heard, hdepth]

theorem hushed_cons (depth : Nat) (diagnostic : Diagnostic) (rest : List (Nat × Diagnostic)) :
    hushed ((depth, diagnostic) :: rest) =
      if depth = 0 then hushed rest else diagnostic :: hushed rest := by
  by_cases hdepth : depth = 0
  · simp [hushed, hdepth]
  · simp [hushed, hdepth, Nat.pos_of_ne_zero hdepth]

theorem errorCount_cons (diagnostic : Diagnostic) (rest : List Diagnostic) :
    Diagnostics.errorCount (diagnostic :: rest) =
      Diagnostics.errorCount [diagnostic] + Diagnostics.errorCount rest :=
  @List.countP_append _ _ [diagnostic] rest

section Report

variable (reporter : Reporter) (diagnostic : Diagnostic)

@[simp] theorem report_depth : (reporter.report diagnostic).depth = reporter.depth := by
  unfold report
  split
  · split <;> rfl
  · rfl

@[simp] theorem report_mode : (reporter.report diagnostic).mode = reporter.mode := by
  unfold report
  split
  · split <;> rfl
  · rfl

theorem report_diagnostics : (reporter.report diagnostic).diagnostics.toList =
    reporter.diagnostics.toList ++ if reporter.depth = 0 then [diagnostic] else [] := by
  unfold report isGagged
  by_cases hdepth : reporter.depth = 0
  · simp [hdepth]
  · cases diagnostic.isError <;> simp [hdepth, Nat.pos_of_ne_zero hdepth]

theorem report_swallowed : (reporter.report diagnostic).swallowed =
    reporter.swallowed + if reporter.depth = 0 then 0 else Diagnostics.errorCount [diagnostic] := by
  unfold report isGagged
  by_cases hdepth : reporter.depth = 0
  · simp [hdepth]
  · cases herror : diagnostic.isError <;>
      simp [hdepth, herror, Nat.pos_of_ne_zero hdepth, Diagnostics.errorCount]

end Report

namespace Gagging

variable {gagging : Gagging} {actions inside : List Action}

theorem perform_cons (action : Action) (rest : List Action) :
    gagging.perform (action :: rest) = (gagging.act action).perform rest :=
  rfl

theorem perform_append (first second : List Action) :
    gagging.perform (first ++ second) = (gagging.perform first).perform second :=
  List.foldl_append

-- Where no gag is open, none can end.
theorem act_endGag_none (hgags : gagging.gags = []) : gagging.act .EndGag = gagging := by
  rw [act, hgags]

theorem act_endGag {gag : Gag} {gags : List Gag} (hgags : gagging.gags = gag :: gags) :
    gagging.act .EndGag = ⟨(gagging.reporter.endGag gag).2, gags,
      (gagging.reporter.endGag gag).1 :: gagging.answers⟩ := by
  rw [act, hgags]

-- What a reporter keeps and what it counts, while it counts as many gags as are open.
theorem perform_accounts (actions : List Action)
    (hdepth : gagging.reporter.depth = gagging.gags.length) :
    (gagging.perform actions).reporter.diagnostics.toList =
      gagging.reporter.diagnostics.toList ++ heard (reportsFrom gagging.reporter.depth actions) ∧
    (gagging.perform actions).reporter.swallowed = gagging.reporter.swallowed +
      Diagnostics.errorCount (hushed (reportsFrom gagging.reporter.depth actions)) := by
  induction actions generalizing gagging with
  | nil => exact ⟨(List.append_nil _).symm, rfl⟩
  | cons action rest ih =>
      rw [perform_cons]
      cases action with
      | StartGag => exact @ih (gagging.act .StartGag) (congrArg (· + 1) hdepth)
      | EndGag =>
          cases hgags : gagging.gags with
          | nil =>
              have hnone : gagging.reporter.depth = 0 := by rw [hdepth, hgags]; rfl
              have hrest := ih hdepth
              rw [act_endGag_none hgags, reportsFrom]
              rwa [hnone] at hrest ⊢
          | cons gag gags =>
              have hopen : gagging.reporter.depth - 1 = gags.length := by rw [hdepth, hgags]; rfl
              rw [act_endGag hgags]
              exact ih hopen
      | Report diagnostic =>
          have hsame : (gagging.act (.Report diagnostic)).reporter.depth = gagging.reporter.depth :=
            report_depth _ diagnostic
          obtain ⟨hkept, hcounted⟩ := ih (hsame.trans hdepth)
          rw [hsame, act, report_diagnostics] at hkept
          rw [hsame, act, report_swallowed] at hcounted
          rw [reportsFrom, heard_cons, hushed_cons]
          refine ⟨hkept.trans ?_, hcounted.trans ?_⟩
          · split <;> simp
          · split
            · rfl
            · rw [Nat.add_assoc, ← errorCount_cons]

-- A gag that starts and ends around what leaves the gags that are open as they are.
theorem perform_region (hgags : ((gagging.act .StartGag).perform inside).gags =
    (gagging.act .StartGag).gags) :
    gagging.perform (.StartGag :: inside ++ [.EndGag]) =
      let last := (gagging.act .StartGag).perform inside
      ⟨{ last.reporter with depth := last.reporter.depth - 1 }, gagging.gags,
        (last.reporter.swallowed != gagging.reporter.swallowed) :: last.answers⟩ := by
  rw [List.cons_append, perform_cons, perform_append]
  exact act_endGag hgags

-- What is balanced leaves the open gags as they are and the reporter as deep in them as it was.
theorem perform_balanced (h : Balanced inside) (gagging : Gagging) :
    (gagging.perform inside).gags = gagging.gags ∧
    (gagging.perform inside).reporter.depth = gagging.reporter.depth ∧
    (gagging.perform inside).reporter.mode = gagging.reporter.mode := by
  induction h generalizing gagging with
  | Nil => exact ⟨rfl, rfl, rfl⟩
  | Report diagnostic => exact ⟨rfl, report_depth _ diagnostic, report_mode _ diagnostic⟩
  | Append _ _ ihfirst ihsecond =>
      obtain ⟨hgags, hdepth, hmode⟩ := ihfirst gagging
      obtain ⟨hgags', hdepth', hmode'⟩ := ihsecond (gagging.perform _)
      rw [perform_append]
      exact ⟨hgags'.trans hgags, hdepth'.trans hdepth, hmode'.trans hmode⟩
  | Region _ ih =>
      obtain ⟨hgags, hdepth, hmode⟩ := ih (gagging.act .StartGag)
      rw [perform_region hgags]
      exact ⟨rfl, congrArg (· - 1) hdepth, hmode⟩

-- Under a gag all errors are counted, however deep they stand in further regions.
theorem swallowed_balanced (h : Balanced inside) (gagging : Gagging)
    (hgagged : 0 < gagging.reporter.depth) :
    (gagging.perform inside).reporter.swallowed =
      gagging.reporter.swallowed + inside.countP Action.isError := by
  induction h generalizing gagging with
  | Nil => rfl
  | Report diagnostic =>
      have hcount := report_swallowed gagging.reporter diagnostic
      rw [if_neg (Nat.ne_of_gt hgagged)] at hcount
      rw [Diagnostics.errorCount, List.countP_singleton] at hcount
      rw [List.countP_singleton]
      exact hcount
  | Append hfirst _ ihfirst ihsecond =>
      have hdepth := (perform_balanced hfirst gagging).2.1
      rw [perform_append, ihsecond _ (hdepth ▸ hgagged), ihfirst gagging hgagged, List.countP_append,
        Nat.add_assoc]
  | @Region inside hinside ih =>
      have hcount : (Action.StartGag :: inside ++ [Action.EndGag]).countP Action.isError =
          inside.countP Action.isError := by
        simp [Action.isError]
      rw [perform_region (perform_balanced hinside _).1, hcount]
      exact ih (gagging.act .StartGag) (Nat.succ_pos _)

-- A region answers whether an error was reported in it.
theorem answers_region (h : Balanced inside) (gagging : Gagging) :
    (gagging.perform (.StartGag :: inside ++ [.EndGag])).answers =
      inside.any Action.isError :: ((gagging.act .StartGag).perform inside).answers := by
  have hcount := swallowed_balanced h (gagging.act .StartGag) (Nat.succ_pos _)
  have hchanged : (((gagging.act .StartGag).perform inside).reporter.swallowed !=
      gagging.reporter.swallowed) = inside.any Action.isError := by
    rw [hcount, Bool.eq_iff_iff, bne_iff_ne, List.any_eq_true, ← List.countP_pos_iff]
    change gagging.reporter.swallowed + _ ≠ gagging.reporter.swallowed ↔ _
    omega
  rw [perform_region (perform_balanced h _).1, ← hchanged]

end Gagging

-- An element of two lists joined stands in one of them.
theorem split_append {α : Type} {first second front back : List α} {element : α}
    (h : first ++ second = front ++ element :: back) :
    (∃ rest, first = front ++ element :: rest) ∨
      ∃ more, front = first ++ more ∧ second = more ++ element :: back := by
  rcases List.append_eq_append_iff.mp h with ⟨more, hfront, hsecond⟩ | ⟨rest, hfirst, hback⟩
  · exact .inr ⟨more, hfront, hsecond⟩
  · rcases List.cons_eq_append_iff.mp hback with ⟨rfl, hsecond⟩ | ⟨others, rfl, -⟩
    · exact .inr ⟨[], by rw [hfirst, List.append_nil, List.append_nil], hsecond⟩
    · exact .inl ⟨others, hfirst⟩

-- Whatever gag ends, it is the one whose start stands in front of what is balanced.
theorem Balanced.exists_start {actions front back : List Action} (h : Balanced actions)
    (hactions : actions = front ++ .EndGag :: back) :
    ∃ before inside, front = before ++ .StartGag :: inside ∧ Balanced inside := by
  induction h generalizing front back with
  | Nil => simp at hactions
  | Report diagnostic => cases front <;> simp at hactions
  | @Append first second _ _ ihfirst ihsecond =>
      rcases split_append hactions with ⟨rest, hfirst⟩ | ⟨more, rfl, hsecond⟩
      · exact ihfirst hfirst
      · obtain ⟨before, inside, rfl, hinside⟩ := ihsecond hsecond
        exact ⟨first ++ before, inside, (List.append_assoc _ _ _).symm, hinside⟩
  | @Region inside hinside ih =>
      rcases split_append hactions with ⟨rest, hrest⟩ | ⟨more, rfl, hlast⟩
      · cases front with
        | nil => cases hrest
        | cons first front =>
            simp only [List.cons_append, List.cons.injEq] at hrest
            obtain ⟨rfl, hrest⟩ := hrest
            obtain ⟨before, inner, rfl, hinner⟩ := ih hrest
            exact ⟨.StartGag :: before, inner, rfl, hinner⟩
      · cases more with
        | nil => exact ⟨[], inside, List.append_nil _, hinside⟩
        | cons first more => simp at hlast

-- What gags do to the reports of a balanced run, at every moment of it. Outside of all gags everything
-- is kept, and inside the errors are counted. What a gag answers at its end depends on the reports
-- since its own start, and a balanced part of the run changes neither the depth nor whether warnings
-- are wanted.
theorem gags_account (mode : WarningMode) (diagnostics : Array Diagnostic) {actions : List Action}
    (h : Balanced actions) :
    let during (front : List Action) := (Gagging.start mode diagnostics).perform front
    (∀ front, front <+: actions →
      (during front).reporter.diagnostics.toList =
        diagnostics.toList ++ heard (reportsFrom 0 front) ∧
      (during front).reporter.swallowed = Diagnostics.errorCount (hushed (reportsFrom 0 front))) ∧
    (∀ front back, actions = front ++ .EndGag :: back →
      ∃ before inside, front = before ++ .StartGag :: inside ∧ Balanced inside ∧
        (during (front ++ [.EndGag])).answers = inside.any Action.isError :: (during front).answers) ∧
    ∀ before inside back, actions = before ++ inside ++ back → Balanced inside →
      (during (before ++ inside)).reporter.depth = (during before).reporter.depth ∧
      (during (before ++ inside)).reporter.warningsEnabled =
        (during before).reporter.warningsEnabled := by
  intro during
  refine ⟨fun front _ => ?_, fun front back hactions => ?_, fun before inside back _ hinside => ?_⟩
  · obtain ⟨hkept, hcounted⟩ := @Gagging.perform_accounts (.start mode diagnostics) front rfl
    exact ⟨hkept, hcounted.trans (Nat.zero_add _)⟩
  · obtain ⟨before, inside, rfl, hinside⟩ := h.exists_start hactions
    refine ⟨before, inside, rfl, hinside, ?_⟩
    have hregion := Gagging.answers_region hinside (during before)
    rw [← Gagging.perform_cons, ← Gagging.perform_append, ← Gagging.perform_append,
      ← List.append_assoc] at hregion
    exact hregion
  · obtain ⟨-, hdepth, hmode⟩ := Gagging.perform_balanced hinside (during before)
    rw [← Gagging.perform_append] at hdepth hmode
    refine ⟨hdepth, ?_⟩
    rw [warningsEnabled, warningsEnabled, isGagged, isGagged, hdepth, hmode]

-- A warning that is raised to an error under a gag, an error that is lowered to a warning under a
-- second one, and a name that is unknown behind both.
def raisedAndLowered : List Action :=
  [.StartGag, .Report { Diagnostic.plain .DiscardedPureCall ⟨0, 1⟩ with severity := .Error },
    .StartGag, .Report { Diagnostic.plain .NoEffect ⟨2, 3⟩ with severity := .Warning }, .EndGag,
    .EndGag, .Report (.about .UndefinedIdentifier ⟨4, 5⟩ "x")]

theorem gags_account_raisedAndLowered :
    Balanced raisedAndLowered ∧
    let after := (Gagging.start .Informational #[]).perform raisedAndLowered
    after.reporter.diagnostics.toList = [.about .UndefinedIdentifier ⟨4, 5⟩ "x"] ∧
      after.reporter.swallowed = 1 ∧ after.answers = [true, false] := by
  have hinner : ∀ diagnostic, Balanced [.StartGag, .Report diagnostic, .EndGag] :=
    fun diagnostic => .Region (.Report diagnostic)
  have hbalanced : Balanced raisedAndLowered :=
    .Append (.Region (.Append (.Report _) (hinner _))) (.Report _)
  obtain ⟨haccount, -, -⟩ := gags_account .Informational #[] hbalanced
  obtain ⟨hkept, hcounted⟩ := haccount raisedAndLowered (List.prefix_refl _)
  exact ⟨hbalanced, hkept, hcounted, rfl⟩

end Reporter

end EffectLint
