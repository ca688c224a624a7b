import EffectLint.Proofs.Display.Type
import EffectLint.Proofs.Grammar.Budget
import EffectLint.Proofs.Grammar.CleanStatement
import EffectLint.Proofs.Grammar.LastingModule
import EffectLint.Proofs.Grammar.Type
import EffectLint.Proofs.Lowering.Stages
import EffectLint.Proofs.Lowering.Sound

/-!
The text of a type read and lowered again. Reading it takes all of it without a complaint, and where
the same scopes are open it denotes the type that it was written for.
-/

namespace EffectLint

namespace Parse

-- The limit on nesting is not what ends the reading.
def Flat {α : Type} (body : Parse α) : Prop :=
  ∀ limits state, body limits state ≠ .error .Depth

namespace Flat

variable {α β σ : Type}

theorem bind {body : Parse α} {next : α → Parse β} (hbody : Flat body)
    (hnext : ∀ found, Flat (next found)) : Flat (body >>= next) := by
  intro limits state
  have hreason := hbody limits state
  cases hfound : body limits state with
  | error reason =>
      rw [hfound] at hreason
      rw [bind_of_error hfound]
      intro hrun
      cases hrun
      exact hreason rfl
  | ok found =>
      rw [bind_of_ok hfound]
      exact hnext found.1 limits found.2

theorem restoringDepth {body : Parse α} (hbody : Flat body) : Flat (restoringDepth body) := by
  intro limits state
  have hreason := hbody limits state
  unfold Parse.restoringDepth
  cases hfound : body limits state with
  | error reason =>
      rw [hfound] at hreason
      exact hreason
  | ok found => simp

theorem roundsAtMost {round : σ → Parse (Round σ α)} (hround : ∀ state, Flat (round state))
    (bound : Nat) (first : σ) : Flat (roundsAtMost round bound first) := by
  induction bound generalizing first with
  | zero =>
      intro limits state hrun
      cases hrun
  | succ bound ih =>
      apply (hround first).bind
      intro found
      cases found with
      | Again next => exact ih next
      | Done result =>
          intro limits state hrun
          cases hrun

end Flat

theorem levelwise_flat : Levelwise (fun {_} body _ => Flat body) where
  pure _ _ _ hrun := by cases hrun
  bind := .bind
  glance _ _ _ hrun := by cases hrun
  inspect limits state hrun := by
    unfold Parse.inspect at hrun
    cases hfuel : state.fuel <;> rw [hfuel] at hrun <;> cases hrun
  take limits state hrun := by
    unfold Parse.take at hrun
    cases hrest : state.rest <;> rw [hrest] at hrun <;> cases hrun
  report _ _ _ _ hrun := by cases hrun
  complain _ _ limits state hrun := by
    simp only [Parse.complain] at hrun
    split at hrun <;> cases hrun
  restoringDepth := .restoringDepth
  rounds first _ _ hround limits state :=
    Flat.roundsAtMost hround (state.fuel + 1) first limits state

end Parse

namespace Grammar

open Parse

-- However deep the suffixes of a type nest, no level is opened for them.
theorem flat_read_type : Flat (read .Type) := by
  have hwithin : ∀ levels, Flat (readWithin levels .Type) := by
    intro levels
    induction levels with
    | zero =>
        intro limits state hrun
        cases hrun
    | succ levels ih =>
        exact @Nearsighted.readType _ levelwise_flat.toNearsighted (readWithin levels) (readWithin levels) ih
  exact fun limits state => hwithin (nesting state.fuel) limits state

variable {tree : TypeTree}

-- Fuel for a fixed number of looks at each token is enough, and any limit on nesting will do.
theorem read_type_back (hwritten : tree.WellWritten) (state : ParseState)
    (htokens : state.rest.map Token.lexeme = tree.lexemes)
    (hfuel : 128 * state.rest.length + 4 ≤ state.fuel) (limits : Limits) :
    ∃ again after, read .Type limits state = .ok (again, after) ∧ again.bare = tree.bare ∧
      after.rest = [] ∧ after.diagnostics = state.diagnostics := by
  obtain ⟨need, hreads⟩ := readsType_of_wellWritten hwritten
  have hlasts := (lasting_read state.fuel 128 .Type 0 limits state
    ⟨Nat.le_refl _, by omega, by omega⟩).1
  have hflat := flat_read_type limits state
  cases hrun : read .Type limits state with
  | error reason =>
      rw [hrun] at hlasts hflat
      cases reason with
      | Fuel => exact absurd rfl hlasts
      | Depth => exact absurd rfl hflat
  | ok found =>
      -- on larger budgets the same is read, and those leave room for what the tree needs
      have hsteady := read_steady .Type limits state found.1 found.2 hrun need
        (limits.depth + (state.depth + need)) (by omega)
      have hlevels : need ≤ nesting (state.fuel + need) := by
        unfold nesting
        omega
      have hends : EndsType [] := by simp [EndsType, nextKind]
      obtain ⟨again, last, hlarge, hbare, hrest, -, -, hsilent⟩ :=
        hreads _ hlevels state.rest [] htokens hends
          ⟨limits.textEnd, limits.depth + (state.depth + need)⟩
          { state with fuel := state.fuel + need } (List.append_nil _).symm
          (Nat.le_add_left need state.fuel) (Nat.le_add_left (state.depth + need) limits.depth)
      have hsame : found = (again, { last with fuel := found.2.fuel }) := by
        have heq := Except.ok.inj (hsteady.symm.trans hlarge)
        obtain ⟨rfl, hlast⟩ := Prod.mk.inj heq
        rw [← hlast]
      refine ⟨found.1, found.2, rfl, ?_⟩
      rw [hsame]
      exact ⟨hbare, hrest, hsilent⟩

-- A type that is read without a complaint can be written out again.
theorem wellWritten_of_read {text : List Char} {fuel : Nat} {limits : Limits} {after : ParseState}
    (hread : read .Type limits (.start (lex text) fuel) = .ok (tree, after))
    (hquiet : after.diagnostics = #[]) : tree.WellWritten := by
  have hclean := @clean_read (lex text) .Type (lex text).length [] True limits _ tree after hread
  rcases hclean.2 ⟨rfl, rfl⟩ (Midway.start (lex_sound text)) with hnoisy | ⟨-, hmidway⟩
  · obtain ⟨diagnostic, hmem, -⟩ := hnoisy
    rw [hquiet] at hmem
    exact absurd hmem (Array.not_mem_empty _)
  · exact hmidway.fact.2

end Grammar

-- A reporter that is the same afterwards was told of no error, gagged or not.
theorem Reporter.told_eq_nil {reporter : Reporter} {told : List Diagnostic}
    (herrors : ∀ diagnostic ∈ told, diagnostic.isError = true)
    (hsame : reporter.after told 0 = reporter) : told = [] := by
  cases hgag : reporter.isGagged with
  | true =>
      have hswallowed := congrArg Reporter.swallowed hsame
      have hcount : Diagnostics.errorCount told = told.length := List.countP_eq_length.mpr herrors
      simp only [Reporter.after, hgag, if_true, hcount] at hswallowed
      exact List.length_eq_zero_iff.mp (by omega)
  | false =>
      have hdiagnostics := congrArg Reporter.diagnostics hsame
      simpa [Reporter.after, hgag] using hdiagnostics

namespace Lower

-- A written type that is lowered in silence is right, whoever listens.
theorem type_of_silent {written : TypeTree} (hwritten : written.WellWritten)
    {state : LoweringState} (hsound : state.Sound)
    (hsilent : (type written state).2.reporter = state.reporter) :
    ∃ made, made.Sound state.scopes ∧
      RightType state.scopes made (type written state).1 ∧
      (type written state).2 = ⟨made, state.scopes, state.reporter⟩ := by
  obtain ⟨made, answer, told, -, hmade, -, hright, hrun⟩ :=
    type_enters (fun h : written.WellWritten => h) hsound
  have hstate : type written state =
      (answer, ⟨made, state.scopes, state.reporter.after told 0⟩) := hrun state.reporter
  have herrors : ∀ diagnostic ∈ told, diagnostic.isError = true := by
    have hsays := stepwise_saysErrors.type written
      ⟨state.program, state.scopes, .start .Off #[]⟩ (by simp [Reporter.OnlyErrors, Reporter.start])
    rw [hrun] at hsays
    simpa [Reporter.OnlyErrors, Reporter.after, Reporter.start, Reporter.isGagged] using hsays
  rw [hstate] at hsilent ⊢
  have hnil := Reporter.told_eq_nil herrors hsilent
  exact ⟨made, hmade, hright hnil hwritten, congrArg (LoweringState.mk made state.scopes) hsilent⟩

end Lower

-- The text of a type that was written and lowered in silence is read in silence to its end, and
-- lowering what is read gives the same type and changes nothing.
theorem type_text_denotes_type {written : List Char} {limits : Limits} {fuel : Nat}
    {tree : TypeTree} {after : ParseState}
    (hread : Grammar.read .Type limits (.start (lex written) fuel) = .ok (tree, after))
    (hquiet : after.diagnostics = #[]) {state lowered : LoweringState} {type : TypeId}
    (hsound : state.Sound) (hlowered : Lower.type tree state = (type, lowered))
    (hsilent : lowered.reporter = state.reporter) {text : List Char}
    (htext : (lowered.program.types.text lowered.program.names type).toList = text)
    {fuel' : Nat} (hfuel : 128 * (lex text).length + 4 ≤ fuel') (limits' : Limits) :
    ∃ again after', Grammar.read .Type limits' (.start (lex text) fuel') = .ok (again, after') ∧
      after'.rest = [] ∧ after'.diagnostics = #[] ∧
      Lower.type again lowered = (type, lowered) := by
  have hwritten := Grammar.wellWritten_of_read hread hquiet
  obtain ⟨made, hmade, hright, hstate⟩ := Lower.type_of_silent hwritten hsound (by rwa [hlowered])
  rw [hlowered] at hright hstate
  obtain rfl : lowered = ⟨made, state.scopes, state.reporter⟩ := hstate
  have hspells := Program.spellsType_of_writable hmade.closed hright.1 (type.index + 1)
    (Nat.lt_succ_self _)
  have hwrites := hspells.writes [] (by simp [Lexeme.Stopped])
  have hlexemes := lexemes_of_spells hwrites.spells
  subst htext
  obtain ⟨again, after', hagain, hbare, hrest, hsaid⟩ :=
    Grammar.read_type_back hspells.written (.start _ fuel') hlexemes hfuel limits'
  exact ⟨again, after', hagain, hrest, hsaid,
    hspells.again again hbare made (.refl _) state.reporter⟩

def aliasedFunction : List Char :=
  "class C; alias A = C function(int)*;".toList

def nestedType : List Char :=
  "A * [string] delegate(ref C, int[] names) nothrow pure function(A) []".toList

def nestedTypeText : String :=
  "A*[string] delegate(ref C, int[]) pure nothrow function(A)[]"

-- An array of pointers to functions that return delegates, with a name of its own for a parameter.
theorem nestedType_text_denotes_type : ∃ items tree type lowered again after,
    parse aliasedFunction 200 5 = .ok ⟨items, #[]⟩ ∧
      (Grammar.read .Type ⟨0, 0⟩ (.start (lex nestedType) 200)).map Prod.fst = .ok tree ∧
      Lower.type tree (lower aliasedFunction items (.start .Off #[])) = (type, lowered) ∧
      lowered.program.types.text lowered.program.names type = nestedTypeText ∧
      Grammar.read .Type ⟨0, 0⟩ (.start (lex nestedTypeText.toList) 5000) = .ok (again, after) ∧
      after.rest = [] ∧ after.diagnostics = #[] ∧ Lower.type again lowered = (type, lowered) := by
  have hchecked : (parse aliasedFunction 200 5).toOption.any (fun parsed =>
      (Grammar.read .Type ⟨0, 0⟩ (.start (lex nestedType) 200)).toOption.any fun found =>
        let state := lower aliasedFunction parsed.items (.start .Off #[])
        let lowered := Lower.type found.1 state
        parsed.diagnostics = #[] ∧ found.2.diagnostics = #[] ∧
          lowered.2.reporter = state.reporter ∧
          lowered.2.program.types.text lowered.2.program.names lowered.1 = nestedTypeText) = true := by
    decide +kernel
  have hfuel : 128 * (lex nestedTypeText.toList).length + 4 ≤ 5000 := by decide +kernel
  cases hparse : parse aliasedFunction 200 5 with
  | error reason => simp [hparse, Except.toOption] at hchecked
  | ok parsed =>
      cases hread : Grammar.read .Type ⟨0, 0⟩ (.start (lex nestedType) 200) with
      | error reason => simp [hparse, hread, Except.toOption] at hchecked
      | ok found =>
          rw [hparse, hread] at hchecked
          obtain ⟨hclean, hquiet, hsilent, htext⟩ := of_decide_eq_true hchecked
          obtain ⟨items, diagnostics⟩ := parsed
          obtain rfl : diagnostics = #[] := hclean
          obtain ⟨again, after, hagain⟩ := type_text_denotes_type hread hquiet
            (lower_sound aliasedFunction items (.start .Off #[])) rfl hsilent
            (congrArg String.toList htext) hfuel ⟨0, 0⟩
          exact ⟨items, found.1, _, _, again, after, rfl, rfl, rfl, htext, hagain⟩

end EffectLint
