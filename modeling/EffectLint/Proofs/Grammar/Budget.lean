import EffectLint.Proofs.Grammar.Stepwise

/-!
What the budgets are for. They end a reading that would take too long or nest too deep, and they
decide nothing else: a reading that comes to its end is the same on any larger budgets.
-/

namespace EffectLint

namespace Parse

-- What is read within some limits is read in the same way on more fuel and in deeper limits.
def Steady {α : Type} (body body' : Parse α) : Prop :=
  ∀ limits state result state', body limits state = .ok (result, state') →
    ∀ more depth, limits.depth ≤ depth →
      body' ⟨limits.textEnd, depth⟩ { state with fuel := state.fuel + more } =
        .ok (result, { state' with fuel := state'.fuel + more })

namespace Steady

variable {α β σ : Type}

theorem bind {first first' : Parse α} {next next' : α → Parse β} (hfirst : Steady first first')
    (hnext : ∀ found, Steady (next found) (next' found)) :
    Steady (first >>= next) (first' >>= next') := by
  intro limits state result last hrun more depth hdepth
  obtain ⟨found, middle, hfound, hlast⟩ := of_bind hrun
  calc
    (first' >>= next') ⟨limits.textEnd, depth⟩ { state with fuel := state.fuel + more } =
        next' found ⟨limits.textEnd, depth⟩ { middle with fuel := middle.fuel + more } :=
      bind_of_ok (hfirst limits state found middle hfound more depth hdepth)
    _ = _ := hnext found limits middle result last hlast more depth hdepth

theorem inspect : Steady inspect inspect := by
  intro limits state result last hrun more depth _
  obtain ⟨fuel, hfuel, rfl, rfl⟩ := of_inspect hrun
  apply inspect_of_fuel
  show state.fuel + more = fuel + more + 1
  omega

theorem take : Steady take take := by
  intro limits state result last hrun more depth _
  rcases of_take hrun with ⟨hend, rfl, rfl⟩ | ⟨token, rest, hrest, rfl, rfl⟩
  · unfold Parse.take
    simp only [hend]
  · exact take_of_cons hrest

theorem complain (diagnostic : Diagnostic) : Steady (complain diagnostic) (complain diagnostic) := by
  intro limits state result last hrun more depth _
  rcases of_complain hrun with ⟨hsame, rfl⟩ | ⟨hother, rfl⟩
  · exact if_pos hsame
  · exact if_neg hother

theorem enter : Steady enter enter := by
  intro limits state result last hrun more depth hdepth
  obtain ⟨hroom, rfl⟩ := of_enter hrun
  have hdeeper : ¬depth ≤ state.depth := by omega
  exact if_neg hdeeper

theorem restoringDepth {body body' : Parse α} (h : Steady body body') :
    Steady (restoringDepth body) (restoringDepth body') := by
  intro limits state result last hrun more depth hdepth
  obtain ⟨middle, hbody, rfl⟩ := of_restoringDepth hrun
  exact restoringDepth_of_ok (h limits state result middle hbody more depth hdepth)

-- A loop that has room for more rounds takes the same ones.
theorem roundsAtMost {round round' : σ → Parse (Round σ α)}
    (hround : ∀ state, Steady (round state) (round' state)) {low high : Nat} (hbound : low ≤ high)
    (first : σ) : Steady (roundsAtMost round low first) (roundsAtMost round' high first) := by
  induction low generalizing high first with
  | zero =>
      intro limits state result last hrun
      cases hrun
  | succ low ih =>
      obtain ⟨high, rfl⟩ : ∃ fewer, high = fewer + 1 := ⟨high - 1, by omega⟩
      refine (hround first).bind fun found => ?_
      cases found with
      | Again next => exact ih (by omega) next
      | Done result =>
          intro limits state result last hrun more depth _
          cases hrun
          rfl

theorem rounds (first : σ) {round round' : σ → Parse (Round σ α)}
    (hround : ∀ state, Steady (round state) (round' state)) :
    Steady (rounds first round) (rounds first round') := by
  intro limits state result last hrun
  have hbound : ∀ more, state.fuel + 1 ≤ state.fuel + more + 1 := fun more => by omega
  exact fun more => roundsAtMost hround (hbound more) first limits state result last hrun more

end Steady

theorem stepwise_steady : Stepwise (fun {_} body body' => Steady body body') where
  pure result _ _ _ _ hrun _ _ _ := by cases hrun; rfl
  bind := .bind
  glance found _ _ _ _ hrun _ _ _ := by cases hrun; rfl
  inspect := .inspect
  take := .take
  report _ _ _ _ _ _ hrun _ _ _ := by cases hrun; rfl
  complain diagnostic _ := .complain diagnostic
  enter := .enter
  leave _ _ _ _ hrun _ _ _ := by cases hrun; rfl
  restoringDepth := .restoringDepth
  rounds := .rounds

end Parse

namespace Grammar

open Parse

theorem readWithin_steady {low high : Nat} (hlevels : low ≤ high) (nonterminal : Nonterminal) :
    Steady (readWithin low nonterminal) (readWithin high nonterminal) :=
  stepwise_steady.readWithin (fun _ _ _ _ _ hrun => nomatch hrun) hlevels nonterminal

-- More fuel leaves room for more nonterminals inside each other.
theorem read_steady (nonterminal : Nonterminal) :
    Steady (read nonterminal) (read nonterminal) := by
  intro limits state result last hrun more
  have hlevels : nesting state.fuel ≤ nesting (state.fuel + more) := by
    unfold nesting
    omega
  exact readWithin_steady hlevels nonterminal limits state result last hrun more

theorem readItems_steady : Steady readItems readItems :=
  stepwise_steady.readItems read_steady

end Grammar

theorem parse_steady {text : List Char} {fuel depth depth' : Nat} {parsed : Parsed}
    (h : parse text fuel depth = .ok parsed) (more : Nat) (hdepth : depth ≤ depth') :
    parse text (fuel + more) depth' = .ok parsed := by
  unfold parse parseTokens at h ⊢
  cases hread : Grammar.readItems ⟨Text.width text, depth⟩ (.start (lex text) fuel) with
  | error reason =>
      rw [hread] at h
      cases h
  | ok found =>
      have hmore : Grammar.readItems ⟨Text.width text, depth'⟩ (.start (lex text) (fuel + more)) = _ :=
        Grammar.readItems_steady _ _ found.1 found.2 hread more depth' hdepth
      rw [hread] at h
      rw [hmore]
      exact h

-- What a text is read as does not depend on the budgets.
theorem parse_unique {text : List Char} {fuel fuel' depth depth' : Nat} {parsed parsed' : Parsed}
    (h : parse text fuel depth = .ok parsed) (h' : parse text fuel' depth' = .ok parsed') :
    parsed = parsed' := by
  have hmore := parse_steady h fuel' (Nat.le_max_left depth depth')
  rw [Nat.add_comm, parse_steady h' fuel (Nat.le_max_right depth depth')] at hmore
  exact (Except.ok.inj hmore).symm

theorem parse_of_larger_budgets {text : List Char} {fuel fuel' depth depth' : Nat} {parsed : Parsed}
    (h : parse text fuel depth = .ok parsed) (hfuel : fuel ≤ fuel') (hdepth : depth ≤ depth') :
    parse text fuel' depth' = .ok parsed := by
  obtain ⟨more, rfl⟩ := Nat.exists_eq_add_of_le hfuel
  exact parse_steady h more hdepth

-- Forty looks at a token and four levels of nesting are enough for this function.
theorem function_parsed_on_larger_budgets :
    ∃ parsed, parse "int f(int x) { return -x ^^ 2; }".toList 40 4 = .ok parsed ∧
      parse "int f(int x) { return -x ^^ 2; }".toList 1000000 4096 = .ok parsed := by
  have hends : (parse "int f(int x) { return -x ^^ 2; }".toList 40 4).isOk = true := by
    decide +kernel
  cases hparsed : parse "int f(int x) { return -x ^^ 2; }".toList 40 4 with
  | error reason =>
      rw [hparsed] at hends
      cases hends
  | ok parsed =>
      exact ⟨parsed, rfl, parse_of_larger_budgets hparsed (by decide) (by decide)⟩

end EffectLint
