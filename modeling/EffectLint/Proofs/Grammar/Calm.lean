import EffectLint.Proofs.Grammar.Finished

/-!
Reading in other surroundings. What is read without a complaint is read in the same way deeper
inside other constructs and behind complaints about what came before.
-/

namespace EffectLint

-- The same tokens, read elsewhere: at another depth, and with something said before.
def ParseState.amid (state : ParseState) (depth : Nat) (lastComplaint : Option Nat)
    (diagnostics : Array Diagnostic) : ParseState :=
  { state with depth, lastComplaint, diagnostics }

namespace Parse

-- Nothing said, nothing disturbed: with as much room below as before, the result stays the same.
structure Calm {α : Type} (extra : Nat) (body : Parse α) : Prop where
  candid : Candid body
  amid : ∀ limits state result after, Quiet state → body limits state = .ok (result, after) →
    ¬Noisy after → ∀ room depth lastComplaint diagnostics, limits.depth + extra ≤ room →
      depth ≤ state.depth + extra → ∃ depth' ≤ after.depth + extra,
        body ⟨limits.textEnd, room⟩ (state.amid depth lastComplaint diagnostics) =
          .ok (result, after.amid depth' lastComplaint diagnostics)

namespace Calm

variable {α β σ : Type} {extra : Nat}

-- What stays at its depth and has nothing to say.
theorem look {body : Parse α} (hcandid : Candid body)
    (hsame : ∀ limits state result after, body limits state = .ok (result, after) →
      after.depth = state.depth ∧ ∀ room depth lastComplaint diagnostics,
        body ⟨limits.textEnd, room⟩ (state.amid depth lastComplaint diagnostics) =
          .ok (result, after.amid depth lastComplaint diagnostics)) : Calm extra body := by
  refine ⟨hcandid, ?_⟩
  intro limits state result after _ hrun _ room depth lastComplaint diagnostics _ hdepth
  obtain ⟨hstill, hamid⟩ := hsame limits state result after hrun
  exact ⟨depth, hstill ▸ hdepth, hamid room depth lastComplaint diagnostics⟩

-- Nothing is claimed where there is a complaint.
theorem complaining {body : Parse α} (h : Ensures Anywhere body fun _ _ => False) :
    Calm extra body := by
  refine ⟨h.weaken (fun _ h => h) fun _ _ h => h.elim, ?_⟩
  intro limits state result after hquiet hrun hnoisy
  rcases (h limits state result after hrun).2 hquiet trivial with hloud | ⟨_, hfalse⟩
  · exact absurd hloud hnoisy
  · exact hfalse.elim

theorem failing : Calm extra (fun _ _ => .error .Fuel : Parse α) :=
  complaining fun _ _ _ _ hrun => nomatch hrun

theorem pure (result : α) : Calm extra (Pure.pure result) := by
  refine look (.pure fun _ h => h) ?_
  intro limits state found after hrun
  cases hrun
  exact ⟨rfl, fun _ _ _ _ => rfl⟩

theorem glance (found : Nat → List Token → Nat → Nat → α) : Calm extra (glance found) := by
  refine look (.unchanged fun _ _ => ⟨_, rfl⟩) ?_
  intro limits state result after hrun
  cases hrun
  exact ⟨rfl, fun _ _ _ _ => rfl⟩

theorem bind {first : Parse α} {next : α → Parse β} (hfirst : Calm extra first)
    (hnext : ∀ found, Calm extra (next found)) : Calm extra (first >>= next) := by
  refine ⟨hfirst.candid.bind fun found => (hnext found).candid, ?_⟩
  intro limits state result after hquiet hrun hnoisy room depth lastComplaint diagnostics hroom hdepth
  obtain ⟨found, middle, hfound, hlast⟩ := of_bind hrun
  have hkept := ((hnext found).candid limits middle result after hlast).1
  rcases (hfirst.candid limits state found middle hfound).2 hquiet trivial with hloud | ⟨hquiet', _⟩
  · exact absurd (hkept hloud) hnoisy
  · obtain ⟨between, hbetween, hfirst'⟩ := hfirst.amid limits state found middle hquiet hfound
      (fun hloud => hnoisy (hkept hloud)) room depth lastComplaint diagnostics hroom hdepth
    obtain ⟨depth', hdepth', hnext'⟩ := (hnext found).amid limits middle result after hquiet' hlast
      hnoisy room between lastComplaint diagnostics hroom hbetween
    exact ⟨depth', hdepth', (bind_of_ok hfirst').trans hnext'⟩

theorem inspect : Calm extra inspect := by
  refine look stepwise_candid.inspect ?_
  intro limits state result after hrun
  obtain ⟨fuel, hfuel, rfl, rfl⟩ := of_inspect hrun
  exact ⟨rfl, fun room depth lastComplaint diagnostics => inspect_of_fuel hfuel⟩

theorem take : Calm extra take := by
  refine look stepwise_candid.take ?_
  intro limits state result after hrun
  rcases of_take hrun with ⟨hend, rfl, rfl⟩ | ⟨token, rest, hrest, rfl, rfl⟩
  · refine ⟨rfl, fun room depth lastComplaint diagnostics => ?_⟩
    unfold Parse.take
    simp only [ParseState.amid, hend]
  · exact ⟨rfl, fun room depth lastComplaint diagnostics => take_of_cons hrest⟩

theorem enter : Calm extra enter := by
  refine ⟨.enter, ?_⟩
  intro limits state result after _ hrun _ room depth lastComplaint diagnostics hroom hdepth
  obtain ⟨hlimit, rfl⟩ := of_enter hrun
  refine ⟨depth + 1, ?_, if_neg ?_⟩
  · show depth + 1 ≤ state.depth + 1 + extra
    omega
  · show ¬room ≤ depth
    omega

theorem leave : Calm extra leave := by
  refine ⟨.leave, ?_⟩
  intro limits state result after _ hrun _ room depth lastComplaint diagnostics _ hdepth
  cases hrun
  refine ⟨depth - 1, ?_, rfl⟩
  show depth - 1 ≤ state.depth - 1 + extra
  omega

theorem restoringDepth {body : Parse α} (h : Calm extra body) : Calm extra (restoringDepth body) := by
  refine ⟨h.candid.restoringDepth, ?_⟩
  intro limits state result after hquiet hrun hnoisy room depth lastComplaint diagnostics hroom hdepth
  obtain ⟨middle, hbody, rfl⟩ := of_restoringDepth hrun
  obtain ⟨depth', _, hbody'⟩ :=
    h.amid limits state result middle hquiet hbody hnoisy room depth lastComplaint diagnostics hroom
      hdepth
  exact ⟨depth, hdepth, restoringDepth_of_ok hbody'⟩

theorem rounds (first : σ) {round : σ → Parse (Round σ α)}
    (hround : ∀ state, Calm extra (round state)) : Calm extra (rounds first round) := by
  have hrounds : ∀ bound first, Calm extra (roundsAtMost round bound first) := by
    intro bound
    induction bound with
    | zero => exact fun _ => .failing
    | succ bound ih =>
        intro first
        refine (hround first).bind fun found => ?_
        cases found with
        | Again next => exact ih next
        | Done result => exact .pure result
  exact ⟨.rounds first fun state => (hround state).candid,
    fun limits state => (hrounds (state.fuel + 1) first).amid limits state⟩

end Calm

theorem stepwise_calm (extra : Nat) : Stepwise (fun {_} body _ => Calm extra body) where
  pure := .pure
  bind := .bind
  glance := .glance
  inspect := .inspect
  take := .take
  report _ herror := .complaining (.report herror)
  complain _ herror := .complaining (.complain herror)
  enter := .enter
  leave := .leave
  restoringDepth := .restoringDepth
  rounds first _ _ := .rounds first

end Parse

open Parse

theorem Grammar.readWithin_calm (extra levels : Nat) (nonterminal : Nonterminal) :
    Calm extra (Grammar.readWithin levels nonterminal) :=
  (stepwise_calm extra).readWithin (fun _ => .failing) (Nat.le_refl levels) nonterminal

end EffectLint
