import EffectLint.Proofs.Grammar.Stepwise

/-!
What is reported while a text is read. Nothing but errors is: there are no warnings about how a text
is written.
-/

namespace EffectLint

def Diagnostics.AllErrors (diagnostics : Array Diagnostic) : Prop :=
  ∀ diagnostic ∈ diagnostics, diagnostic.isError = true

theorem Diagnostics.AllErrors.push {diagnostics : Array Diagnostic} {diagnostic : Diagnostic}
    (h : AllErrors diagnostics) (herror : diagnostic.isError = true) :
    AllErrors (diagnostics.push diagnostic) := by
  intro other hother
  rcases Array.mem_push.mp hother with hother | rfl
  · exact h other hother
  · exact herror

namespace Parse

open Diagnostics

def ReportsErrors {α : Type} (body : Parse α) : Prop :=
  ∀ limits state result last, body limits state = .ok (result, last) →
    AllErrors state.diagnostics → AllErrors last.diagnostics

namespace ReportsErrors

variable {α β σ : Type}

theorem bind {first : Parse α} {next : α → Parse β} (hfirst : ReportsErrors first)
    (hnext : ∀ found, ReportsErrors (next found)) : ReportsErrors (first >>= next) := by
  intro limits state result last hrun h
  obtain ⟨found, middle, hfound, hlast⟩ := of_bind hrun
  exact hnext found limits middle result last hlast (hfirst limits state found middle hfound h)

theorem inspect : ReportsErrors inspect := by
  intro limits state result last hrun h
  obtain ⟨fuel, _, _, rfl⟩ := of_inspect hrun
  exact h

theorem take : ReportsErrors take := by
  intro limits state result last hrun h
  rcases of_take hrun with ⟨_, _, rfl⟩ | ⟨token, rest, _, _, rfl⟩ <;> exact h

theorem complain {diagnostic : Diagnostic} (herror : diagnostic.isError = true) :
    ReportsErrors (complain diagnostic) := by
  intro limits state result last hrun h
  rcases of_complain hrun with ⟨_, rfl⟩ | ⟨_, rfl⟩
  · exact h
  · exact h.push herror

theorem enter : ReportsErrors enter := by
  intro limits state result last hrun h
  obtain ⟨_, rfl⟩ := of_enter hrun
  exact h

theorem restoringDepth {body : Parse α} (hbody : ReportsErrors body) :
    ReportsErrors (restoringDepth body) := by
  intro limits state result last hrun h
  obtain ⟨middle, hfound, rfl⟩ := of_restoringDepth hrun
  exact hbody limits state result middle hfound h

theorem rounds (first : σ) {round : σ → Parse (Round σ α)}
    (hround : ∀ state, ReportsErrors (round state)) : ReportsErrors (rounds first round) := by
  have hrounds : ∀ bound first, ReportsErrors (roundsAtMost round bound first) := by
    intro bound
    induction bound with
    | zero => exact fun first _ _ _ _ hrun => nomatch hrun
    | succ bound ih =>
        intro first
        refine (hround first).bind fun found => ?_
        cases found with
        | Again next => exact ih next
        | Done result => exact fun _ _ _ _ hrun h => by cases hrun; exact h
  exact fun limits state => hrounds (state.fuel + 1) first limits state

end ReportsErrors

theorem stepwise_reportsErrors : Stepwise (fun {_} body _ => ReportsErrors body) where
  pure _ _ _ _ _ hrun h := by cases hrun; exact h
  bind := .bind
  glance _ _ _ _ _ hrun h := by cases hrun; exact h
  inspect := .inspect
  take := .take
  report _ herror _ _ _ _ hrun h := by cases hrun; exact h.push herror
  complain _ := .complain
  enter := .enter
  leave _ _ _ _ hrun h := by cases hrun; exact h
  restoringDepth := .restoringDepth
  rounds first _ _ hround := .rounds first hround

end Parse

open Parse

theorem Grammar.read_reportsErrors (nonterminal : Nonterminal) :
    ReportsErrors (Grammar.read nonterminal) := fun limits state =>
  stepwise_reportsErrors.readWithin (fun _ _ _ _ _ hrun => nomatch hrun)
    (Nat.le_refl (Grammar.nesting state.fuel)) nonterminal limits state

theorem parse_reports_errors {text : List Char} {fuel depth : Nat} {parsed : Parsed}
    (hparse : parse text fuel depth = .ok parsed) : Diagnostics.AllErrors parsed.diagnostics := by
  have hitems := stepwise_reportsErrors.readItems Grammar.read_reportsErrors
  unfold parse parseTokens at hparse
  cases hrun : Grammar.readItems ⟨Text.width text, depth⟩ (.start (lex text) fuel) with
  | error reason =>
      rw [hrun] at hparse
      cases hparse
  | ok found =>
      rw [hrun] at hparse
      cases hparse
      exact hitems _ _ found.1 found.2 hrun fun _ hmem => absurd hmem (Array.not_mem_empty _)

end EffectLint
