import EffectLint.Proofs.Grammar.Lasting

/-!
What reading a type or an expression takes at most. Until the first token is taken only a few looks
are made, one level after the other, and what comes behind a token is paid for by it.
-/

namespace EffectLint

namespace Grammar

open Parse

variable {price levels credit : Nat}

theorem costs_readBaseType : Costs price levels 2 readBaseType := by
  refine fun credit => Lasts.here.bind fun span => Lasts.inspect.bind fun next => ?_
  split
  · exact Lasts.skipSeen.bind fun _ => .spare (by omega)
  · refine .plain ((costs_expectName _).bind fun name => ?_)
    cases name <;> exact .spare (Nat.le_refl _)
  · exact .plain ((Lasts.complain _).bind fun _ => .spare (by omega))

section Types

variable {self : Reading} (htype : Costs price levels 4 (self .Type))

include htype

theorem costs_readParameter : Costs price levels 7 (readParameter self) := fun _ =>
  (costs_eat _ _).bind fun _ => (htype _).bind fun _ => (Lasts.isAt _).bind fun _ =>
    .branch (.plain ((costs_expectName _).bind fun _ => .spare (Nat.le_refl _)))
      ((Lasts.spare (Nat.le_succ _)).bind fun _ => .spare (Nat.le_refl _))

theorem costs_readParameters : Costs price levels 1 (readParameters self) := fun credit =>
  Lasts.here.bind fun opened => (Lasts.expect _ _).bind fun _ => .branch
    (.given (credit + 1 + (7 + 2)) (by omega)
      ((costs_listed (costs_readParameter htype) (by omega) _).bind fun _ =>
        (costs_close _ _ _ _ _).bind fun _ => .spare (Nat.le_refl _)))
    (.spare (Nat.le_refl _))

theorem lasts_readBracketSuffix {kind : TokenKind} (start : Nat) (element : TypeTree) :
    Lasts (fun rest fuel => Affords price levels credit rest fuel ∧ nextKind rest = some kind)
      (readBracketSuffix self start element) fun _ => Affords price levels (credit + 64) :=
  Lasts.here.bind fun opened => Lasts.skipSeen.bind fun _ => (Lasts.eat _).bind fun _ => .branch
    ((Lasts.since start).bind fun _ => .spare (by omega))
    (.given (credit + 64 + 1 + 4) (by omega) ((htype _).bind fun _ =>
      (costs_close _ _ _ _ _).bind fun _ => (Lasts.since start).bind fun _ => .spare (by omega)))

theorem lasts_readCallableSuffix {kind : TokenKind} (start : Nat) (isDelegate : Bool)
    (result : TypeTree) :
    Lasts (fun rest fuel => Affords price levels credit rest fuel ∧ nextKind rest = some kind)
      (readCallableSuffix self start isDelegate result) fun _ => Affords price levels (credit + 64) :=
  Lasts.skipSeen.bind fun _ => (costs_readParameters htype _).bind fun _ =>
    (costs_readPromises _).bind fun _ => (Lasts.since start).bind fun _ => .spare (by omega)

theorem lasts_readTypeSuffix (start : Nat) (type : TypeTree) :
    Lasts (Affords price levels (credit + 1)) (readTypeSuffix self start type) fun found =>
      Affords price levels (found.pick (credit + 2) credit) := by
  refine Lasts.inspect.bind fun next => ?_
  split
  · exact Lasts.skipSeen.bind fun _ => (Lasts.since start).bind fun _ => .again (by omega)
  · exact (lasts_readBracketSuffix htype start type).bind fun _ => .again (by omega)
  · exact (lasts_readCallableSuffix htype start false type).bind fun _ => .again (by omega)
  · exact (lasts_readCallableSuffix htype start true type).bind fun _ => .again (by omega)
  · exact .plain (.done (Nat.le_refl _))

theorem costs_readType : Costs price levels 3 (readType self) := fun _ =>
  Lasts.here.bind fun _ => (costs_readBaseType _).bind fun base => .either
    (.spare (Nat.le_succ _))
    (.rounds (fun type _ => lasts_readTypeSuffix htype _ type) base _)

end Types

section Productions

variable {self : Reading} (hself : ReadsLasting levels self)

include hself

-- What stands for the opening parenthesis has been seen, or something before it has paid.
theorem lasts_readArguments {before : List Token → Nat → Prop}
    (hskip : Lasts before skip fun _ => Affords price levels (credit + 15)) :
    Lasts before (readArguments self) fun _ => Affords price levels credit :=
  Lasts.here.bind fun _ => hskip.bind fun _ =>
    (costs_listed (hself price .Assignment) (by omega) (credit + 1)).bind fun _ =>
    (costs_closeParen _ _).bind fun _ => .spare (Nat.le_refl _)

theorem costs_readParen (start : Nat) (opened : Span) :
    Costs price levels 15 (readParen self start opened) := fun credit =>
  (hself price .Expression (credit + 1)).bind fun _ => (costs_closeParen opened _).bind fun _ =>
    (Lasts.since start).bind fun _ => .spare (Nat.le_refl _)

theorem costs_readAssert (start : Nat) : Costs price levels 15 (readAssert self start) := by
  refine fun credit => Lasts.here.bind fun opened => (costs_expect _ _ (credit + 14)).bind fun _ =>
    (hself price .Assignment (credit + 2)).bind fun condition => (Lasts.eat _).bind fun more => ?_
  have hbehind : ∀ message : Option Expr, Lasts (Affords price levels (credit + 1)) (do
      closeParen opened
      return Expr.Assert (← since start) condition message) fun _ => Affords price levels credit :=
    fun message => (costs_closeParen _ _).bind fun _ => (Lasts.since start).bind fun _ =>
      .spare (Nat.le_refl _)
  cases more with
  | true =>
      refine .given (credit + 1 + 12) (by omega) (Lasts.bind ?_ hbehind)
      exact (hself price .Assignment _).bind fun _ => .spare (Nat.le_refl _)
  | false => exact hbehind none

theorem costs_readDeclare (start : Nat) : Costs price levels 14 (readDeclare self start) := by
  refine fun credit => (costs_expectName _).bind fun name => ?_
  cases name with
  | none => exact (Lasts.since start).bind fun _ => .spare (by omega)
  | some name =>
      exact (costs_expect _ _ _).bind fun _ => (hself price .Assignment credit).bind fun _ =>
        (Lasts.since start).bind fun _ => .spare (Nat.le_refl _)

theorem costs_readTraits (start : Nat) : Costs price levels 16 (readTraits self start) := by
  refine fun credit => Lasts.here.bind fun opened => (costs_expect _ _ _).bind fun _ =>
    (costs_expectName _).bind fun trait => ?_
  have hbehind : ∀ known : Bool, Lasts (Affords price levels (credit + 14)) (do
      let _ ← Parse.expect (.Sign .Comma) .UnexpectedToken
      let operand ← self .Assignment
      Parse.closeParen opened
      let span ← Parse.since start
      return if known then Expr.Compiles span operand else .Error span) fun _ =>
        Affords price levels credit := fun known =>
    (costs_expect _ _ _).bind fun _ => (hself price .Assignment (credit + 1)).bind fun _ =>
      (costs_closeParen _ _).bind fun _ => (Lasts.since start).bind fun _ => .spare (Nat.le_refl _)
  cases trait with
  | none => exact hbehind false
  | some name => exact .either (hbehind true) ((Lasts.complain _).bind fun _ => hbehind false)

theorem costs_readPrimary : Costs price levels 1 (readPrimary self) := by
  refine fun credit => Lasts.here.bind fun span => Lasts.inspect.bind fun next => ?_
  have hless : credit ≤ credit + 128 := Nat.le_add_right _ _
  split
  · exact .plain ((Lasts.complain _).bind fun _ => .spare (Nat.le_refl _))
  · exact Lasts.takeSeen.bind fun _ => (Lasts.since _).bind fun _ => .spare hless
  · exact Lasts.takeSeen.bind fun _ => .either ((Lasts.since _).bind fun _ => .spare hless)
      ((Lasts.complain _).bind fun _ => (Lasts.since _).bind fun _ => .spare hless)
  · exact Lasts.takeSeen.bind fun _ => (Lasts.since _).bind fun _ => .spare hless
  · exact Lasts.skipSeen.bind fun _ => (Lasts.since _).bind fun _ => .spare hless
  · exact Lasts.skipSeen.bind fun _ => (Lasts.since _).bind fun _ => .spare hless
  · exact Lasts.skipSeen.bind fun _ => (Lasts.since _).bind fun _ => .spare hless
  · exact Lasts.skipSeen.bind fun _ =>
      .given (credit + 15) (by omega) (costs_readParen hself _ span credit)
  · exact Lasts.skipSeen.bind fun _ => .given (credit + 15) (by omega)
      ((lasts_readArguments hself Lasts.skipAny).bind fun _ => (Lasts.since _).bind fun _ =>
        .spare (Nat.le_refl _))
  · exact Lasts.skipSeen.bind fun _ =>
      .given (credit + 15) (by omega) (costs_readAssert hself _ credit)
  · exact Lasts.skipSeen.bind fun _ =>
      .given (credit + 14) (by omega) (costs_readDeclare hself _ credit)
  · exact Lasts.skipSeen.bind fun _ =>
      .given (credit + 16) (by omega) (costs_readTraits hself _ credit)
  · exact .plain ((Lasts.complain _).bind fun _ => .spare (Nat.le_refl _))

theorem costs_readMember (start : Nat) (container : Expr) :
    Costs price levels 17 (readMember self start container) := by
  refine fun credit => (costs_expectName _).bind fun name => ?_
  cases name with
  | none => exact (Lasts.since start).bind fun _ => .spare (by omega)
  | some name =>
      refine .either ((costs_isAt _ _).bind ?behind)
        ((Lasts.spare (Nat.le_succ (credit + 15))).bind ?behind)
      refine fun isCall => .either (Lasts.here.bind fun opened =>
        (lasts_readArguments hself Lasts.skipAny).bind fun arguments => ?_)
        ((Lasts.complain _).bind fun _ => (Lasts.since start).bind fun _ => .spare (by omega))
      split
      · exact (Lasts.since start).bind fun _ => .spare (Nat.le_refl _)
      · exact (Lasts.since _).bind fun _ => (Lasts.complain _).bind fun _ =>
          (Lasts.since start).bind fun _ => .spare (Nat.le_refl _)

theorem lasts_readAttachment (start : Nat) (operand : Expr) :
    Lasts (Affords price levels (credit + 2)) (readAttachment self start operand) fun found =>
      Affords price levels (found.pick (credit + 3) credit) := by
  refine Lasts.inspect.bind fun next => .plain (.either (Lasts.enter.bind fun _ =>
    Lasts.inspect.bind fun next => ?_) (.done (Nat.le_succ _)))
  split
  · have hskip : Lasts (fun rest fuel => Affords price levels credit rest fuel ∧
        nextKind rest = some (.Sign .ParenOpen)) skip
          fun _ => Affords price levels (credit + 3 + 15) :=
      Lasts.skipSeen.weaken (fun _ _ h => h) fun _ _ _ h => h.fewer (by omega)
    exact (lasts_readArguments hself hskip).bind fun _ => (Lasts.since start).bind fun _ =>
      .again (Nat.le_refl _)
  · exact Lasts.here.bind fun opened => Lasts.skipSeen.bind fun _ =>
      .given (credit + 4 + 12) (by omega) ((hself price .Assignment _).bind fun _ =>
        (costs_close _ _ _ _ _).bind fun _ => (Lasts.since start).bind fun _ => .again (Nat.le_refl _))
  · exact Lasts.skipSeen.bind fun _ => (Lasts.since start).bind fun _ => .again (by omega)
  · exact Lasts.skipSeen.bind fun _ => (Lasts.since start).bind fun _ => .again (by omega)
  · exact Lasts.skipSeen.bind fun _ => .given (credit + 3 + 17) (by omega)
      ((costs_readMember hself start operand _).bind fun _ => .again (Nat.le_refl _))
  · exact .plain (.done (Nat.le_refl _))

theorem costs_readAttached : Costs price levels 3 (readAttached self) := fun credit =>
  .restoringDepth (Lasts.here.bind fun _ => (costs_readPrimary hself (credit + 2)).bind fun operand =>
    .rounds (fun operand _ => lasts_readAttachment hself _ operand) operand credit)

theorem costs_readPower : Costs price levels 4 (readPower self) := fun credit =>
  Lasts.here.bind fun _ => (costs_readAttached hself (credit + 1)).bind fun _ =>
    (Lasts.eat _).bind fun _ => .branch
      (.given (credit + 6) (by omega) ((hself price .Unary credit).bind fun _ =>
        (Lasts.since _).bind fun _ => .spare (Nat.le_refl _)))
      (.spare (Nat.le_refl _))

-- Behind the word that starts a cast.
theorem lasts_readCast {kind : TokenKind} (start : Nat) :
    Lasts (fun rest fuel => Affords price levels credit rest fuel ∧ nextKind rest = some kind)
      (readCast self start) fun _ => Affords price levels credit :=
  Lasts.skipSeen.bind fun _ => Lasts.here.bind fun _ => .given (credit + 7 + 4 + 1) (by omega)
    ((costs_expect _ _ _).bind fun _ => (hself price .Type (credit + 7)).bind fun _ =>
      (costs_closeParen _ _).bind fun _ => (hself price .Unary credit).bind fun _ =>
      (Lasts.since start).bind fun _ => .spare (Nat.le_refl _))

omit hself in
theorem lasts_readNew {kind : TokenKind} (start : Nat) :
    Lasts (fun rest fuel => Affords price levels credit rest fuel ∧ nextKind rest = some kind)
      (readNew start) fun _ => Affords price levels credit := by
  refine Lasts.skipSeen.bind fun _ => .given (credit + 3) (by omega) ((costs_eat _ _).bind fun _ =>
    .either (Lasts.here.bind fun _ => (costs_expect _ _ _).bind fun _ =>
      (costs_close _ _ _ _ _).bind fun _ => (Lasts.since start).bind fun _ => .spare (Nat.le_refl _))
      ((costs_expectName _).bind fun name => ?_))
  cases name <;> exact (Lasts.since start).bind fun _ => .spare (Nat.le_succ _)

theorem costs_readUnary : Costs price levels 5 (readUnary self) := by
  refine fun credit => Lasts.enter.bind fun _ => Lasts.here.bind fun start =>
    Lasts.inspect.bind fun next => ?_
  have hbehind : ∀ {more : Nat}, credit ≤ more → ∀ unary : Expr, Lasts (Affords price levels more) (do
      leave
      return unary) fun _ => Affords price levels credit := fun hmore unary =>
    Lasts.leave.bind fun _ => .spare hmore
  split
  · exact (lasts_readCast hself _).bind (hbehind (Nat.le_add_right _ _))
  · exact (lasts_readNew _).bind (hbehind (Nat.le_add_right _ _))
  · next next _ _ =>
      split
      · next op hop =>
          obtain ⟨kind, rfl, _⟩ := Option.bind_eq_some_iff.mp hop
          exact Lasts.skipSeen.bind fun _ => .given (credit + 6) (by omega)
            ((hself price .Unary credit).bind fun _ => (Lasts.since _).bind fun _ =>
              hbehind (Nat.le_refl _) _)
      · exact .plain ((costs_readPower hself credit).bind (hbehind (Nat.le_refl _)))

omit hself in
theorem lasts_readConnective :
    Lasts (Affords price levels (credit + 1)) readConnective fun found rest fuel =>
      Affords price levels credit rest fuel ∧ (found ≠ none → rest ≠ []) := by
  refine Lasts.inspect.bind fun next => ?_
  have hone : ∀ {kind : TokenKind} {found : Option Connective},
      Lasts (fun rest fuel => Affords price levels credit rest fuel ∧ nextKind rest = some kind)
        (pure found) fun found rest fuel =>
          Affords price levels credit rest fuel ∧ (found ≠ none → rest ≠ []) :=
    .pure fun rest fuel h => ⟨h.1, fun _ hnone => by simp [hnone, nextKind] at h⟩
  split
  case h_4 => exact Lasts.beyond.bind fun _ => .either hone hone
  case h_24 => exact .pure fun rest fuel h => ⟨h.1, fun hnone => (hnone rfl).elim⟩
  all_goals exact hone

theorem lasts_readLink (level start : Nat) (left : Expr) :
    Lasts (Affords price levels (credit + 1)) (readLink self level start left) fun found =>
      Affords price levels (found.pick (credit + 2) credit) := by
  refine lasts_readConnective.bind fun found => ?_
  cases found with
  | none => exact .plain (.done (Nat.le_refl _))
  | some op =>
      have hskip : Lasts (fun rest fuel => Affords price levels credit rest fuel ∧
          (some op ≠ none → rest ≠ [])) skip fun _ => Affords price levels (credit + 128) :=
        Lasts.skipSome.weaken (fun _ _ h => ⟨h.1, h.2 nofun⟩) fun _ _ _ h => h
      have hbehind : Lasts (Affords price levels (credit + 128)) (do
          let right ← self (.Binary (op.level + 1))
          return (.Again (.Binary (← since start) op left right) : Round Expr Expr)) fun found =>
            Affords price levels (found.pick (credit + 2) credit) :=
        .given (credit + 2 + 8) (by omega) ((hself price (.Binary (op.level + 1)) _).bind fun _ =>
          (Lasts.since start).bind fun _ => .again (Nat.le_refl _))
      exact .either (.plain (.done (Nat.le_refl _))) (Lasts.enter.bind fun _ => hskip.bind fun _ =>
        .either (Lasts.skipAny.bind fun _ => hbehind) hbehind)

theorem costs_readBinary (level : Nat) : Costs price levels 7 (readBinary self level) := fun credit =>
  .restoringDepth (Lasts.here.bind fun _ => (hself price .Unary (credit + 1)).bind fun first =>
    .rounds (fun left _ => lasts_readLink hself level _ left) first credit)

theorem costs_readConditional : Costs price levels 9 (readConditional self) := fun credit =>
  Lasts.here.bind fun _ => (hself price (.Binary Level.orOr) (credit + 1)).bind fun _ =>
    (Lasts.eat _).bind fun _ => .branch
      (Lasts.enter.bind fun _ => .given (credit + 10 + 1 + 14) (by omega)
        ((hself price .Expression (credit + 10 + 1)).bind fun _ => (costs_expect _ _ _).bind fun _ =>
        (hself price .Conditional credit).bind fun _ => Lasts.leave.bind fun _ =>
        (Lasts.since _).bind fun _ => .spare (Nat.le_refl _)))
      (.spare (Nat.le_refl _))

theorem costs_readAssignment : Costs price levels 11 (readAssignment self) := by
  refine fun credit => Lasts.here.bind fun _ => (hself price .Conditional (credit + 1)).bind
    fun target => Lasts.inspect.bind fun next => ?_
  split
  · exact .plain (.spare (Nat.le_refl _))
  · next op hop =>
      obtain ⟨kind, rfl⟩ : ∃ kind, next = some kind := by
        unfold assignment? at hop
        split at hop <;> simp_all
      exact Lasts.skipSeen.bind fun _ => Lasts.enter.bind fun _ => .given (credit + 12) (by omega)
        ((hself price .Assignment credit).bind fun _ => Lasts.leave.bind fun _ =>
        (Lasts.since _).bind fun _ => .spare (Nat.le_refl _))

theorem lasts_readCommaLink (start : Nat) (first : Expr) :
    Lasts (Affords price levels (credit + 1)) (readCommaLink self start first) fun found =>
      Affords price levels (found.pick (credit + 2) credit) :=
  (Lasts.eat _).bind fun _ => .branch
    (Lasts.enter.bind fun _ => .given (credit + 2 + 12) (by omega)
      ((hself price .Assignment _).bind fun _ => (Lasts.since start).bind fun _ =>
        .again (Nat.le_refl _)))
    (.done (Nat.le_refl _))

theorem costs_readExpression : Costs price levels 13 (readExpression self) := fun credit =>
  .restoringDepth (Lasts.here.bind fun _ => (hself price .Assignment (credit + 1)).bind fun first =>
    .rounds (fun first _ => lasts_readCommaLink hself _ first) first credit)

end Productions

end Grammar

end EffectLint
