import EffectLint.Proofs.Grammar.CleanExpression
import EffectLint.Proofs.Grammar.Counted

/-!
A statement that is read in a quiet reading is written of what can be read back, and its delimiters
are closed.
-/

namespace EffectLint

namespace Parse

-- Where something is left a quiet reading takes a token, so none is passed over behind it.
theorem clean_taking {α β : Type} {body : Parse α} {behind : α → Parse β} {tokens : List Token}
    {bound : Nat} {stack : List Delimiter} {fact : Prop} {good : α → Prop}
    {after : β → List Token → Prop} (hcounted : Counted body)
    (hbody : ∀ bound, Ensures (Midway tokens bound stack fact) body fun result =>
      Midway tokens (bound - 1) stack (fact ∧ good result))
    (hbehind : ∀ result, Ensures (Midway tokens bound stack (fact ∧ good result)) (behind result) after) :
    Ensures (fun rest => Midway tokens bound stack fact rest ∧ rest ≠ []) (do
      let count ← taken
      let result ← body
      if (← taken) = count then
        skip
      behind result) after := by
  intro limits state result state' hsplit
  rw [taking_apply] at hsplit
  cases hfound : body limits state with
  | error reason =>
      rw [hfound] at hsplit
      cases hsplit
  | ok found =>
      rw [hfound] at hsplit
      obtain ⟨hkept, hquiet⟩ := hbody state.rest.length limits state found.1 found.2 hfound
      have hcount := hcounted limits state found.1 found.2 hfound
      have hbehind := hbehind found.1
      have hskipped : Ensures (fun _ => False) (skip >>= fun _ => behind found.1) after :=
        (stepwise_kept.skip.ensures fun _ => id).bind fun _ => hbehind
      by_cases htaken : found.2.taken = state.taken
      · have hlast : (skip >>= fun _ => behind found.1) limits found.2 = .ok (result, state') := by
          rw [← hsplit]
          exact (congrFun (congrFun (if_pos htaken) limits) found.2).symm
        refine ⟨fun hstate => (hskipped _ _ _ _ hlast).1 (hkept hstate), fun hstate hrest => ?_⟩
        obtain ⟨hmidway, hsome⟩ := hrest
        rcases hquiet hstate ⟨hmidway.fact, Nat.le_refl _, hmidway.sound, hmidway.closes⟩ with
          hnoisy | ⟨_, hafter⟩
        · exact .inl ((hskipped _ _ _ _ hlast).1 hnoisy)
        · have hshorter := hafter.bound
          have hpositive := List.length_pos_iff.mpr hsome
          omega
      · have hlast : behind found.1 limits found.2 = .ok (result, state') := by
          rw [← hsplit]
          exact (congrFun (congrFun (if_neg htaken) limits) found.2).symm
        obtain ⟨hkept', hquiet'⟩ := hbehind _ _ _ _ hlast
        refine ⟨fun hstate => hkept' (hkept hstate), fun hstate hrest => ?_⟩
        obtain ⟨hmidway, hsome⟩ := hrest
        rcases hquiet hstate ⟨hmidway.fact, Nat.le_refl _, hmidway.sound, hmidway.closes⟩ with
          hnoisy | ⟨hmiddle, hafter⟩
        · exact .inl (hkept' hnoisy)
        · have hbound := hmidway.bound
          exact hquiet' hmiddle (hafter.mono (by omega) id)

end Parse

namespace Grammar

open Parse

variable {tokens : List Token} {bound : Nat} {stack : List Delimiter} {fact : Prop}

theorem looks_unchanged {before : List Token → Prop} :
    Ensures before looksLikeDeclaration fun _ => before := by
  refine Ensures.inspect.bind fun next => ?_
  split
  · exact .pure fun _ h => h.1
  · exact Ensures.beyond.bind fun _ => .pure fun _ h => h.1.1
  · exact .pure fun _ h => h.1

theorem isAt_unchanged {before : List Token → Prop} (kind : TokenKind) :
    Ensures before (isAt kind) fun _ => before := by
  refine (Ensures.isAt kind).weaken (fun _ h => h) fun found rest h => ?_
  split at h
  · exact h.1
  · exact h

theorem allWritten_some {statement : Statement} (h : statement.AllWritten) :
    ∀ one ∈ some statement, one.AllWritten := by
  intro one hmem
  obtain rfl := Option.some.inj hmem
  exact h

variable {self : Reading} (hself : ReadsClean tokens self)

include hself

theorem clean_readInitialValue :
    Ensures (Midway tokens bound stack fact) (readInitialValue self) fun value =>
      Midway tokens bound stack (fact ∧ ∀ written ∈ value, written.AllWritten) :=
  (clean_eat_plain rfl (by simp)).bind fun _ => .either
    (clean_some ((hself .Assignment _ _ _).weaken (fun _ h => h) fun _ _ h =>
      h.mono (Nat.sub_le _ _) id)) clean_none

theorem clean_readLocal :
    Ensures (Midway tokens bound stack fact) (readLocal self) fun declared =>
      Midway tokens (bound - 1) stack (fact ∧ declared.AllWritten) := by
  refine Ensures.here.bind fun start => (hself .Type _ _ _).bind fun type =>
    clean_expectName.bind fun found => ?_
  have hbehind : ∀ name : Name, Ensures
      (Midway tokens (bound - 1 - 1) stack
        ((fact ∧ type.WellWritten) ∧ (Lexeme.name name.text).Valid)) (do
        let value ← readInitialValue self
        expectSemicolon
        return (⟨← since start.start, type, name, value⟩ : VariableTree))
      fun declared => Midway tokens (bound - 1) stack (fact ∧ declared.AllWritten) := by
    refine fun name => (clean_readInitialValue hself).bind fun value => clean_expectSemicolon.bind
      fun _ => (Ensures.since _).bind fun _ => .pure fun _ h => h.mono (by omega) ?_
    rintro ⟨⟨⟨hfact, htype⟩, hname⟩, hvalue⟩
    exact ⟨hfact, htype, hname, hvalue⟩
  cases found with
  | none => exact Ensures.here.bind fun _ => (Ensures.pure fun _ h => nomatch h.fact.2).bind hbehind
  | some name =>
      exact (Ensures.pure fun _ h => h.imp valid_of_found).bind hbehind

theorem clean_readEvaluate :
    Ensures (Midway tokens bound stack fact) (readEvaluate self) fun statement =>
      Midway tokens (bound - 1) stack (fact ∧ statement.AllWritten) :=
  (hself .Expression _ _ _).bind fun _ => clean_expectSemicolon.bind fun _ => .pure fun _ h =>
    h.mono (by omega) fun ⟨hfact, hvalue⟩ => ⟨hfact, .Evaluate hvalue⟩

theorem clean_readBlockRound (hcounted : Counted (self .Statement)) (statements : Array Statement) :
    Ensures (Midway tokens bound stack (fact ∧ ∀ one ∈ statements.toList, one.AllWritten))
      (readBlockRound self statements)
      (Round.meets
        (fun next => Midway tokens bound stack (fact ∧ ∀ one ∈ next.toList, one.AllWritten))
        fun last => Midway tokens bound stack (fact ∧ ∀ one ∈ last.toList, one.AllWritten)) := by
  refine (Ensures.isAt _).bind fun _ => .branch (.pure fun _ h => h.1) ?_
  refine Ensures.atEnd.bind fun ends => .choose (fun _ => .pure fun _ h => h.1) fun hmore => ?_
  refine (clean_taking hcounted (fun bound => hself .Statement bound stack _) fun found => ?_).weaken
    (fun rest h => ⟨h.1, fun hnone => hmore (by rw [h.2, hnone]; rfl)⟩) fun _ _ h => h
  cases found with
  | none => exact .pure fun _ h => h.imp And.left
  | some statement =>
      refine .pure fun _ h => h.imp ?_
      rintro ⟨⟨hfact, hstatements⟩, hstatement⟩
      refine ⟨hfact, fun one hmem => ?_⟩
      rw [Array.toList_push, List.mem_append, List.mem_singleton] at hmem
      rcases hmem with hmem | rfl
      · exact hstatements one hmem
      · exact hstatement one rfl

theorem clean_readBlock (hcounted : Counted (self .Statement)) :
    Ensures (Midway tokens bound stack fact) (readBlock self) fun block =>
      Midway tokens (bound - 1) stack (fact ∧ ∀ one ∈ block.statements, one.AllWritten) := by
  refine Ensures.here.bind fun opened => (clean_expect _ rfl (by simp) rfl).bind fun _ => ?_
  have hrounds : Ensures (Midway tokens (bound - 1) (.Brace :: stack) fact)
      (rounds #[] (readBlockRound self)) fun statements =>
      Midway tokens (bound - 1) (.Brace :: stack) (fact ∧ ∀ one ∈ statements.toList, one.AllWritten) :=
    (Ensures.rounds (fun statements => Midway tokens (bound - 1) (.Brace :: stack)
      (fact ∧ ∀ one ∈ statements.toList, one.AllWritten))
      fun statements => clean_readBlockRound hself hcounted statements).weaken
      (fun _ h => h.imp fun hfact => ⟨hfact, fun _ hmem => nomatch hmem⟩) fun _ _ h => h
  exact hrounds.bind fun statements => (clean_close _ _ opened rfl rfl).bind fun _ =>
    (Ensures.since _).bind fun _ => .pure fun _ h => h.mono (by omega) id

theorem clean_readCondition :
    Ensures (Midway tokens bound stack fact) (readCondition self) fun condition =>
      Midway tokens bound stack (fact ∧ condition.AllWritten) :=
  Ensures.here.bind fun opened => (clean_expect _ rfl (by simp) rfl).bind fun _ =>
    (hself .Expression _ _ _).bind fun _ => (clean_closeParen opened).bind fun _ =>
    .pure fun _ h => h.mono (by omega) id

theorem clean_someExpression :
    Ensures (Midway tokens bound stack fact) (some <$> self .Expression) fun value =>
      Midway tokens bound stack (fact ∧ ∀ written ∈ value, written.AllWritten) :=
  clean_some ((hself .Expression _ _ _).weaken (fun _ h => h) fun _ _ h => h.mono (Nat.sub_le _ _) id)

theorem clean_readReturn (start : Nat) :
    Ensures (fun rest => Midway tokens bound stack fact rest ∧ nextKind rest = some (.Word .Return))
      (readReturn self start) fun statement =>
      Midway tokens (bound - 1) stack (fact ∧ statement.AllWritten) := by
  refine (clean_skip rfl (by simp)).bind fun _ => (isAt_unchanged _).bind fun _ =>
    .either (clean_none.bind ?behind) ((clean_someExpression hself).bind ?behind)
  exact fun value => clean_expectSemicolon.bind fun _ => (Ensures.since start).bind fun _ =>
    .pure fun _ h => h.mono (by omega) fun ⟨hfact, hvalue⟩ => ⟨hfact, .Return hvalue⟩

theorem clean_readIf :
    Ensures (fun rest => Midway tokens bound stack fact rest ∧ nextKind rest = some (.Word .If))
      (readIf self) fun statement =>
      Midway tokens (bound - 1) stack (fact ∧ ∀ one ∈ statement, one.AllWritten) := by
  refine (clean_skip rfl (by simp)).bind fun _ => (clean_readCondition hself).bind fun condition =>
    (hself .Statement _ _ _).bind fun yes => ?_
  cases yes with
  | none => exact .pure fun _ h => h.mono (by omega) fun ⟨⟨hfact, _⟩, _⟩ => ⟨hfact, nofun⟩
  | some yes =>
      refine (clean_eat_plain rfl (by simp)).bind fun _ => .either ?_ (.pure fun _ h => ?_)
      · refine (hself .Statement _ _ _).bind fun no => ?_
        cases no with
        | none =>
            exact .pure fun _ h => h.mono (by omega) fun ⟨⟨⟨hfact, _⟩, _⟩, _⟩ => ⟨hfact, nofun⟩
        | some no =>
            refine .pure fun _ h => h.mono (by omega) ?_
            rintro ⟨⟨⟨hfact, hcondition⟩, hyes⟩, hno⟩
            exact ⟨hfact, allWritten_some (.If hcondition (hyes yes rfl) hno)⟩
      · refine h.mono (by omega) ?_
        rintro ⟨⟨hfact, hcondition⟩, hyes⟩
        exact ⟨hfact, allWritten_some (.If hcondition (hyes yes rfl) nofun)⟩

theorem clean_readWhile :
    Ensures (fun rest => Midway tokens bound stack fact rest ∧ nextKind rest = some (.Word .While))
      (readWhile self) fun statement =>
      Midway tokens (bound - 1) stack (fact ∧ ∀ one ∈ statement, one.AllWritten) := by
  refine (clean_skip rfl (by simp)).bind fun _ => (clean_readCondition hself).bind fun condition =>
    (hself .Statement _ _ _).bind fun body => ?_
  cases body with
  | none => exact .pure fun _ h => h.mono (by omega) fun ⟨⟨hfact, _⟩, _⟩ => ⟨hfact, nofun⟩
  | some body =>
      refine .pure fun _ h => h.mono (by omega) ?_
      rintro ⟨⟨hfact, hcondition⟩, hbody⟩
      exact ⟨hfact, allWritten_some (.While hcondition (hbody body rfl))⟩

theorem clean_readForFirst :
    Ensures (Midway tokens bound stack fact) (readForFirst self) fun statement =>
      Midway tokens bound stack (fact ∧ ∀ one ∈ statement, one.AllWritten) := by
  refine (clean_eat_plain rfl (by simp)).bind fun _ => .either clean_none
    (looks_unchanged.bind fun _ => .either ?_ ?_)
  · exact (clean_readLocal hself).bind fun _ => .pure fun _ h => h.mono (Nat.sub_le _ _)
      fun ⟨hfact, hdeclared⟩ => ⟨hfact, allWritten_some (.Local hdeclared)⟩
  · exact (clean_readEvaluate hself).bind fun _ => .pure fun _ h => h.mono (Nat.sub_le _ _)
      fun ⟨hfact, hvalue⟩ => ⟨hfact, allWritten_some hvalue⟩

theorem clean_readFor :
    Ensures (fun rest => Midway tokens bound stack fact rest ∧ nextKind rest = some (.Word .For))
      (readFor self) fun statement =>
      Midway tokens (bound - 1) stack (fact ∧ ∀ one ∈ statement, one.AllWritten) := by
  refine (clean_skip rfl (by simp)).bind fun _ => Ensures.here.bind fun opened =>
    (clean_expect _ rfl (by simp) rfl).bind fun _ => (clean_readForFirst hself).bind fun first =>
    (isAt_unchanged _).bind fun _ =>
    .either (clean_none.bind ?condition) ((clean_someExpression hself).bind ?condition)
  refine fun condition => (clean_expect _ rfl (by simp) rfl).bind fun _ =>
    (isAt_unchanged _).bind fun _ =>
    .either (clean_none.bind ?step) ((clean_someExpression hself).bind ?step)
  refine fun step => (clean_closeParen opened).bind fun _ => (hself .Statement _ _ _).bind fun body => ?_
  cases body with
  | none => exact .pure fun _ h => h.mono (by omega) fun ⟨⟨⟨⟨hfact, _⟩, _⟩, _⟩, _⟩ => ⟨hfact, nofun⟩
  | some body =>
      refine .pure fun _ h => h.mono (by omega) ?_
      rintro ⟨⟨⟨⟨hfact, hfirst⟩, hcondition⟩, hstep⟩, hbody⟩
      exact ⟨hfact, allWritten_some (.For hfirst hcondition hstep (hbody body rfl))⟩

theorem clean_readStatementHere (hcounted : Counted (self .Statement)) :
    Ensures (Midway tokens bound stack fact) (readStatementHere self) fun statement =>
      Midway tokens (bound - 1) stack (fact ∧ ∀ one ∈ statement, one.AllWritten) := by
  refine Ensures.here.bind fun span => Ensures.inspect.bind fun next => ?_
  split
  · refine .pure fun rest h => ?_
    obtain ⟨hmidway, hnone⟩ := h
    cases rest with
    | nil => exact ⟨⟨hmidway.fact, nofun⟩, Nat.zero_le _, hmidway.sound, hmidway.closes⟩
    | cons token rest => cases hnone
  · exact ((clean_readBlock hself hcounted).weaken (fun _ h => h.1) fun _ _ h => h).bind fun _ =>
      .pure fun _ h => h.imp fun ⟨hfact, hstatements⟩ => ⟨hfact, allWritten_some (.Block hstatements)⟩
  · exact (clean_skip rfl (by simp)).bind fun _ => .pure fun _ h => h.imp fun hfact =>
      ⟨hfact, allWritten_some .Empty⟩
  · exact (clean_readReturn hself _).bind fun _ => .pure fun _ h => h.imp fun ⟨hfact, hreturn⟩ =>
      ⟨hfact, allWritten_some hreturn⟩
  · exact clean_readIf hself
  · exact clean_readWhile hself
  · exact clean_readFor hself
  · refine (looks_unchanged.weaken (fun _ h => h.1) fun _ _ h => h).bind fun _ => .either ?_ ?_
    · exact (clean_readLocal hself).bind fun _ => .pure fun _ h => h.imp
        fun ⟨hfact, hdeclared⟩ => ⟨hfact, allWritten_some (.Local hdeclared)⟩
    · exact (clean_readEvaluate hself).bind fun _ => .pure fun _ h => h.imp
        fun ⟨hfact, hvalue⟩ => ⟨hfact, allWritten_some hvalue⟩

theorem clean_readStatement (hcounted : Counted (self .Statement)) :
    Ensures (Midway tokens bound stack fact) (readStatement self) fun statement =>
      Midway tokens (bound - 1) stack (fact ∧ ∀ one ∈ statement, one.AllWritten) :=
  Ensures.enter.bind fun _ => (clean_readStatementHere hself hcounted).bind fun _ =>
    Ensures.leave.bind fun _ => .pure fun _ h => h

theorem clean_production (hcounted : Counted (self .Statement)) :
    ReadsClean tokens (production self)
  | .Expression, _, _, _ => clean_readExpression hself
  | .Assignment, _, _, _ => clean_readAssignment hself
  | .Conditional, _, _, _ => clean_readConditional hself
  | .Binary level, _, _, _ => clean_readBinary hself level
  | .Unary, _, _, _ => clean_readUnary hself
  | .Type, _, _, _ => clean_readType hself
  | .Statement, _, _, _ => clean_readStatement hself hcounted

omit hself in
theorem clean_readWithin (levels : Nat) : ReadsClean tokens (readWithin levels) := by
  induction levels with
  | zero => exact fun _ _ _ _ _ _ _ _ hrun => nomatch hrun
  | succ levels ih => exact clean_production ih (readWithin_counted levels .Statement)

omit hself in
theorem clean_read : ReadsClean tokens read := fun nonterminal bound stack fact limits state =>
  clean_readWithin (nesting state.fuel) nonterminal bound stack fact limits state

end Grammar

end EffectLint
