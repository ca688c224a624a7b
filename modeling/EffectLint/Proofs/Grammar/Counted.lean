import EffectLint.Proofs.Grammar.Stepwise

/-!
Tokens are taken one by one, so the number of those taken tells how many are left.
-/

namespace EffectLint

namespace Parse

-- A token is either taken or left.
def Counted {α : Type} (body : Parse α) : Prop :=
  ∀ limits state result state', body limits state = .ok (result, state') →
    state'.taken + state'.rest.length = state.taken + state.rest.length

namespace Counted

variable {α β σ : Type}

theorem bind {first : Parse α} {next : α → Parse β} (hfirst : Counted first)
    (hnext : ∀ found, Counted (next found)) : Counted (first >>= next) := by
  intro limits state result last hrun
  obtain ⟨found, middle, hfound, hlast⟩ := of_bind hrun
  exact (hnext found limits middle result last hlast).trans (hfirst limits state found middle hfound)

theorem inspect : Counted inspect := by
  intro limits state result last hrun
  obtain ⟨fuel, _, _, rfl⟩ := of_inspect hrun
  rfl

theorem take : Counted take := by
  intro limits state result last hrun
  rcases of_take hrun with ⟨_, _, rfl⟩ | ⟨token, rest, hrest, _, rfl⟩
  · rfl
  · simp only [hrest, List.length_cons]
    omega

theorem complain (diagnostic : Diagnostic) : Counted (complain diagnostic) := by
  intro limits state result last hrun
  rcases of_complain hrun with ⟨_, rfl⟩ | ⟨_, rfl⟩ <;> rfl

theorem enter : Counted enter := by
  intro limits state result last hrun
  obtain ⟨_, rfl⟩ := of_enter hrun
  rfl

theorem restoringDepth {body : Parse α} (h : Counted body) : Counted (restoringDepth body) := by
  intro limits state result last hrun
  obtain ⟨middle, hbody, rfl⟩ := of_restoringDepth hrun
  exact h limits state result middle hbody

theorem rounds (first : σ) {round : σ → Parse (Round σ α)} (hround : ∀ state, Counted (round state)) :
    Counted (rounds first round) := by
  have hrounds : ∀ bound first, Counted (roundsAtMost round bound first) := by
    intro bound
    induction bound with
    | zero => exact fun first _ _ _ _ hrun => nomatch hrun
    | succ bound ih =>
        intro first
        refine (hround first).bind fun found => ?_
        cases found with
        | Again next => exact ih next
        | Done result => exact fun _ _ _ _ hrun => by cases hrun; rfl
  exact fun limits state => hrounds (state.fuel + 1) first limits state

end Counted

theorem stepwise_counted : Stepwise (fun {_} body _ => Counted body) where
  pure _ _ _ _ _ hrun := by cases hrun; rfl
  bind := .bind
  glance _ _ _ _ _ hrun := by cases hrun; rfl
  inspect := .inspect
  take := .take
  report _ _ _ _ _ _ hrun := by cases hrun; rfl
  complain diagnostic _ := .complain diagnostic
  enter := .enter
  leave _ _ _ _ hrun := by cases hrun; rfl
  restoringDepth := .restoringDepth
  rounds first _ _ hround := .rounds first hround

-- A round that has to take something: where its reading took nothing, a token is passed over.
theorem taking_apply {α β : Type} (body : Parse α) (behind : α → Parse β) (limits : Limits)
    (state : ParseState) :
    (do
      let count ← taken
      let result ← body
      if (← taken) = count then
        skip
      behind result : Parse β) limits state = (body limits state >>= fun found =>
        (if found.2.taken = state.taken then skip >>= fun _ => behind found.1
          else behind found.1) limits found.2) :=
  rfl

end Parse

namespace Grammar

open Parse

theorem readWithin_counted (levels : Nat) (nonterminal : Nonterminal) :
    Counted (readWithin levels nonterminal) :=
  stepwise_counted.readWithin (fun _ _ _ _ _ hrun => nomatch hrun) (Nat.le_refl levels) nonterminal

theorem read_counted (nonterminal : Nonterminal) : Counted (read nonterminal) :=
  fun limits state => readWithin_counted (nesting state.fuel) nonterminal limits state

end Grammar

end EffectLint
