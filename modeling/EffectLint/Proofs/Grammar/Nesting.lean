import EffectLint.Proofs.Grammar.Listed
import EffectLint.Proofs.Grammar.Stepwise
import EffectLint.Proofs.Tree.Induction

/-!
The limit on nesting bounds how deep lowering goes. A construct is read at a depth that is at least
the number of counted steps from the root of the tree down to it, however the depth was reached:
by a statement, by a prefix, or by a link of a chain whose depth is given back at its end. An
expression fits below the level that its nonterminal opens: its first operand stands at the same
level, and all others were read at least one level deeper.
-/

namespace EffectLint

namespace Parse

-- From `used` levels or more, reading gets to `used'` levels or more.
def Nests {α : Type} (limit used : Nat) (body : Parse α) (used' : Nat) (after : α → Prop) : Prop :=
  ∀ limits state result state', limits.depth = limit → used ≤ state.depth →
    body limits state = .ok (result, state') → used' ≤ state'.depth ∧ after result

-- Keeps as many levels open as there are.
def NestsFlat {α : Type} (limit : Nat) (body : Parse α) : Prop :=
  ∀ used, Nests limit used body used fun _ => True

-- What holds behind a round, whether it is the last one or not.
def Round.holds {σ α : Type} (again : σ → Prop) (done : α → Prop) : Round σ α → Prop
  | .Again next => again next
  | .Done result => done result

namespace Nests

variable {α β σ : Type} {limit used used' last : Nat} {body : Parse α} {after : α → Prop}

theorem weaken {after' : α → Prop} (h : Nests limit used body used' after)
    (hafter : ∀ result, after result → after' result) : Nests limit used body used' after' :=
  fun limits state result state' hlimit hused hrun =>
    (h limits state result state' hlimit hused hrun).imp_right (hafter result)

theorem pure {result : α} (h : after result) : Nests limit used (Pure.pure result) used after := by
  intro limits state found state' _ hused hrun
  cases hrun
  exact ⟨hused, h⟩

theorem bind {next : α → Parse β} {good : β → Prop} (hbody : Nests limit used body used' after)
    (hnext : ∀ found, after found → Nests limit used' (next found) last good) :
    Nests limit used (body >>= next) last good := by
  intro limits state result state' hlimit hused hrun
  obtain ⟨found, middle, hfound, hlast⟩ := of_bind hrun
  obtain ⟨hmiddle, hafter⟩ := hbody limits state found middle hlimit hused hfound
  exact hnext found hafter limits middle result state' hlimit hmiddle hlast

theorem either {condition : Prop} [Decidable condition] {yes no : Parse α}
    (hyes : Nests limit used yes used' after) (hno : Nests limit used no used' after) :
    Nests limit used (if condition then yes else no) used' after := by
  split
  · exact hyes
  · exact hno

theorem enter : Nests limit used enter (used + 1) fun _ => used + 1 ≤ limit := by
  intro limits state result state' hlimit hused hrun
  obtain ⟨hroom, rfl⟩ := of_enter hrun
  simp only
  omega

theorem leave : Nests limit (used + 1) leave used fun _ => True := by
  intro limits state result state' _ hused hrun
  cases hrun
  exact ⟨by simp only; omega, trivial⟩

theorem shallower (hlast : last ≤ used') (h : Nests limit used body used' after) :
    Nests limit used body last after :=
  fun limits state result state' hlimit hused hrun =>
    (h limits state result state' hlimit hused hrun).imp_left (Nat.le_trans hlast)

theorem restoringDepth (h : Nests limit used body used after) :
    Nests limit used (restoringDepth body) used after := by
  intro limits state result state' hlimit hused hrun
  obtain ⟨middle, hbody, rfl⟩ := of_restoringDepth hrun
  exact ⟨hused, (h limits state result middle hlimit hused hbody).2⟩

-- What every round keeps holds of the last one too, at the depth the loop started from or deeper.
theorem rounds {round : σ → Parse (Round σ α)} (holds : σ → Prop) {first : σ} (hfirst : holds first)
    (hround : ∀ state, holds state → Nests limit used (round state) used (Round.holds holds after)) :
    Nests limit used (rounds first round) used after := by
  have hrounds : ∀ bound state, holds state →
      Nests limit used (roundsAtMost round bound state) used after := by
    intro bound
    induction bound with
    | zero => exact fun _ _ _ _ _ _ _ _ hrun => nomatch hrun
    | succ bound ih =>
        intro state hstate
        refine (hround state hstate).bind fun found hfound => ?_
        cases found with
        | Again next => exact ih next hfound
        | Done result => exact .pure hfound
  exact fun limits state => hrounds (state.fuel + 1) first hfirst limits state

end Nests

theorem nestsFlat_enter {limit : Nat} : NestsFlat limit enter :=
  fun used => (Nests.enter.shallower (Nat.le_succ used)).weaken fun _ _ => trivial

theorem NestsFlat.bind {α β : Type} {limit used last : Nat} {body : Parse α} {next : α → Parse β}
    {good : β → Prop} (hbody : NestsFlat limit body)
    (hnext : ∀ found, Nests limit used (next found) last good) :
    Nests limit used (body >>= next) last good :=
  (hbody used).bind fun found _ => hnext found

theorem levelwise_nests (limit : Nat) : Levelwise (fun {_} body _ => NestsFlat limit body) where
  pure _ _ := .pure trivial
  bind hfirst hnext _ := hfirst.bind fun found => hnext found _
  glance _ _ _ _ _ _ _ hused hrun := by cases hrun; exact ⟨hused, trivial⟩
  inspect _ limits state _ _ _ hused hrun := by
    obtain ⟨fuel, _, _, rfl⟩ := of_inspect hrun
    exact ⟨hused, trivial⟩
  take _ _ state _ _ _ hused hrun := by
    rcases of_take hrun with ⟨_, _, rfl⟩ | ⟨token, rest, _, _, rfl⟩ <;> exact ⟨hused, trivial⟩
  report _ _ _ _ _ _ _ _ hused hrun := by cases hrun; exact ⟨hused, trivial⟩
  complain _ _ _ _ _ _ _ _ hused hrun := by
    rcases of_complain hrun with ⟨_, rfl⟩ | ⟨_, rfl⟩ <;> exact ⟨hused, trivial⟩
  restoringDepth h used := (h used).restoringDepth
  rounds _ _ _ hround used := .rounds (fun _ => True) trivial fun state _ =>
    (hround state used).weaken fun found _ => by cases found <;> trivial

end Parse

namespace Grammar

open Parse

-- What is read for a nonterminal leaves room for its own way down.
def Fits (limit used : Nat) : (nonterminal : Nonterminal) → nonterminal.Result → Prop
  | .Expression, found | .Assignment, found | .Conditional, found | .Binary _, found
  | .Unary, found => Expr.Fits limit used found
  | .Type, _ => True
  | .Statement, found => ∀ written ∈ found, Statement.Fits limit used written

-- Each nonterminal opens a level of its own, even where it gives it back at its end.
def ReadsNested (limit : Nat) (self : Reading) : Prop :=
  ∀ nonterminal used, Nests limit used (self nonterminal) used (Fits limit (used + 1) nonterminal)

theorem nests_listed {α : Type} {limit used : Nat} {item : Parse α} {good : α → Prop}
    (hitem : Nests limit used item used good) :
    Nests limit used (rounds #[] (listRound item)) used fun found => ∀ one ∈ found.toList, good one := by
  have steps := levelwise_nests limit
  refine .rounds (fun found => ∀ one ∈ found.toList, good one) (fun _ hmem => nomatch hmem)
    fun found hfound => (steps.isAt _).bind fun _ => .either (.pure hfound)
      (steps.atEnd.bind fun _ => .either (.pure hfound) (hitem.bind fun one hone => ?_))
  have hmore : ∀ other ∈ (found.push one).toList, good other := by
    intro other hmem
    rw [Array.toList_push, List.mem_append, List.mem_singleton] at hmem
    rcases hmem with hmem | rfl
    · exact hfound other hmem
    · exact hone
  exact (steps.eat _).bind fun _ => .either (.pure hmore) (.pure hmore)

end Grammar

namespace Grammar

open Parse

section Productions

variable {limit used : Nat} {self : Reading} (hself : ReadsNested limit self)

include hself

theorem nests_type : NestsFlat limit (self .Type) :=
  fun used => hself .Type used

theorem nests_readArguments :
    Nests limit used (readArguments self) used fun found =>
      ∀ argument ∈ found, argument.Fits limit (used + 1) := by
  have steps := levelwise_nests limit
  exact steps.here.bind fun _ => steps.skip.bind fun _ =>
    (nests_listed (hself .Assignment used)).bind fun found hfound =>
    (steps.closeParen _).bind fun _ => .pure hfound

theorem nests_readParen (start : Nat) (opened : Span) :
    Nests limit used (readParen self start opened) used (Expr.Fits limit used) := by
  have steps := levelwise_nests limit
  refine (hself .Expression used).bind fun inner hinner => (steps.closeParen opened).bind fun _ =>
    (steps.since start).bind fun _ => .pure ?_
  exact Expr.fits_of_first (hinner.fewer (Nat.le_succ used)) rfl fun other hmem => nomatch hmem

theorem nests_readAssert (hused : used ≤ limit) (start : Nat) :
    Nests limit used (readAssert self start) used (Expr.Fits limit used) := by
  have steps := levelwise_nests limit
  refine steps.here.bind fun opened => (steps.expect _ _ rfl).bind fun _ =>
    (hself .Assignment used).bind fun condition hcondition => ?_
  have hbehind : ∀ message : Option Expr, (∀ text ∈ message, text.Fits limit (used + 1)) →
      Nests limit used (do
        closeParen opened
        return Expr.Assert (← since start) condition message) used (Expr.Fits limit used) := by
    refine fun message hmessage => (steps.closeParen opened).bind fun _ =>
      (steps.since start).bind fun _ => .pure (Expr.fits_of_others hused rfl fun other hother => ?_)
    rcases List.mem_cons.mp hother with rfl | hother
    · exact hcondition
    · exact hmessage other (Option.mem_toList.mp hother)
  refine (steps.eat _).bind fun more => ?_
  cases more with
  | true =>
      have hmessage : Nests limit used (some <$> self .Assignment) used fun message =>
          ∀ text ∈ message, Expr.Fits limit (used + 1) text :=
        (hself .Assignment used).bind fun _ htext => .pure fun _ hother =>
          Option.some.inj hother ▸ htext
      exact hmessage.bind hbehind
  | false => exact hbehind none fun _ hother => nomatch hother

theorem nests_readDeclare (hused : used ≤ limit) (start : Nat) :
    Nests limit used (readDeclare self start) used (Expr.Fits limit used) := by
  have steps := levelwise_nests limit
  refine steps.expectName.bind fun name => ?_
  cases name with
  | none => exact (steps.since start).bind fun _ => .pure (Expr.fits_of_leaf hused rfl)
  | some name =>
      refine (steps.expect _ _ rfl).bind fun _ => (hself .Assignment used).bind fun value hvalue =>
        (steps.since start).bind fun _ => .pure (Expr.fits_of_others hused rfl fun other hother => ?_)
      exact List.mem_singleton.mp hother ▸ hvalue

theorem nests_readTraits (hused : used ≤ limit) (start : Nat) :
    Nests limit used (readTraits self start) used (Expr.Fits limit used) := by
  have steps := levelwise_nests limit
  refine steps.here.bind fun opened => (steps.expect _ _ rfl).bind fun _ =>
    steps.expectName.bind fun trait => ?_
  have hbehind : ∀ known : Bool, Nests limit used (do
      let _ ← Parse.expect (.Sign .Comma) .UnexpectedToken
      let operand ← self .Assignment
      Parse.closeParen opened
      let span ← Parse.since start
      return if known then Expr.Compiles span operand else .Error span) used
        (Expr.Fits limit used) := by
    refine fun known => (steps.expect _ _ rfl).bind fun _ => (hself .Assignment used).bind
      fun operand hoperand => (steps.closeParen opened).bind fun _ => (steps.since start).bind
      fun span => .pure ?_
    cases known with
    | true => exact Expr.fits_of_others hused rfl fun other hother =>
        List.mem_singleton.mp hother ▸ hoperand
    | false => exact Expr.fits_of_leaf hused rfl
  cases trait with
  | none => exact hbehind false
  | some name => exact .either (hbehind true) ((steps.complain _ rfl).bind fun _ => hbehind false)

theorem nests_readPrimary (hused : used ≤ limit) :
    Nests limit used (readPrimary self) used (Expr.Fits limit used) := by
  have steps := levelwise_nests limit
  refine steps.here.bind fun span => steps.inspect.bind fun next => ?_
  split
  · exact (steps.complain _ rfl).bind fun _ => .pure (Expr.fits_of_leaf hused rfl)
  · exact steps.take.bind fun _ => (steps.since _).bind fun _ => .pure (Expr.fits_of_leaf hused rfl)
  · refine steps.take.bind fun _ => .either
      ((steps.since _).bind fun _ => .pure (Expr.fits_of_leaf hused rfl))
      ((steps.complain _ rfl).bind fun _ => (steps.since _).bind fun _ =>
        .pure (Expr.fits_of_leaf hused rfl))
  · exact steps.take.bind fun _ => (steps.since _).bind fun _ => .pure (Expr.fits_of_leaf hused rfl)
  · exact steps.skip.bind fun _ => (steps.since _).bind fun _ => .pure (Expr.fits_of_leaf hused rfl)
  · exact steps.skip.bind fun _ => (steps.since _).bind fun _ => .pure (Expr.fits_of_leaf hused rfl)
  · exact steps.skip.bind fun _ => (steps.since _).bind fun _ => .pure (Expr.fits_of_leaf hused rfl)
  · exact steps.skip.bind fun _ => nests_readParen hself _ span
  · exact steps.skip.bind fun _ => (nests_readArguments hself).bind fun elements helements =>
      (steps.since _).bind fun _ => .pure (Expr.fits_of_others hused rfl helements)
  · exact steps.skip.bind fun _ => nests_readAssert hself hused _
  · exact steps.skip.bind fun _ => nests_readDeclare hself hused _
  · exact steps.skip.bind fun _ => nests_readTraits hself hused _
  · exact (steps.complain _ rfl).bind fun _ => .pure (Expr.fits_of_leaf hused rfl)

theorem nests_readMember (start : Nat) {container : Expr} (hcontainer : container.Fits limit used) :
    Nests limit used (readMember self start container) used (Expr.Fits limit used) := by
  have steps := levelwise_nests limit
  have hleaf : ∀ span, (Expr.Error span).Fits limit used := fun span =>
    Expr.fits_of_leaf hcontainer.here rfl
  refine steps.expectName.bind fun name => ?_
  cases name with
  | none => exact (steps.since start).bind fun _ => .pure (hleaf _)
  | some name =>
      refine .either ((steps.isAt _).bind ?behind) ((steps.pure false).bind ?behind)
      refine fun isCall => .either (steps.here.bind fun opened =>
        (nests_readArguments hself).bind fun arguments harguments => ?_) ((steps.complain _ rfl).bind
          fun _ => (steps.since start).bind fun _ => .pure (hleaf _))
      split
      · exact (steps.since start).bind fun _ => .pure (Expr.fits_of_first hcontainer rfl harguments)
      · exact (steps.since _).bind fun _ => (steps.complain _ rfl).bind fun _ =>
          (steps.since start).bind fun _ => .pure (hleaf _)

-- The level that an attachment opens stays open behind it, but nothing needs it.
theorem nests_readAttachment (start : Nat) {operand : Expr} (hoperand : operand.Fits limit used) :
    Nests limit used (readAttachment self start operand) used
      (Round.holds (Expr.Fits limit used) (Expr.Fits limit used)) := by
  have steps := levelwise_nests limit
  refine steps.inspect.bind fun next => .either (nestsFlat_enter.bind fun _ =>
    steps.inspect.bind fun next => ?_) (.pure hoperand)
  split
  · exact (nests_readArguments hself).bind fun arguments harguments =>
      (steps.since start).bind fun _ => .pure (Expr.fits_of_first hoperand rfl harguments)
  · refine steps.here.bind fun opened => steps.skip.bind fun _ =>
      (hself .Assignment used).bind fun index hindex => (steps.close _ _ _ _ rfl).bind fun _ =>
      (steps.since start).bind fun _ => .pure (Expr.fits_of_first hoperand rfl fun other hother => ?_)
    exact List.mem_singleton.mp hother ▸ hindex
  · exact steps.skip.bind fun _ => (steps.since start).bind fun _ =>
      .pure (Expr.fits_of_first hoperand rfl fun _ hother => nomatch hother)
  · exact steps.skip.bind fun _ => (steps.since start).bind fun _ =>
      .pure (Expr.fits_of_first hoperand rfl fun _ hother => nomatch hother)
  · exact steps.skip.bind fun _ => (nests_readMember hself start hoperand).bind fun _ hmember =>
      .pure hmember
  · exact .pure hoperand

theorem nests_readAttached (hused : used ≤ limit) :
    Nests limit used (readAttached self) used (Expr.Fits limit used) := by
  have steps := levelwise_nests limit
  refine .restoringDepth (steps.here.bind fun start =>
    (nests_readPrimary hself hused).bind fun operand hoperand => ?_)
  exact .rounds (Expr.Fits limit used) hoperand fun _ => nests_readAttachment hself _

theorem nests_readPower (hused : used ≤ limit) :
    Nests limit used (readPower self) used (Expr.Fits limit used) := by
  have steps := levelwise_nests limit
  refine steps.here.bind fun start => (nests_readAttached hself hused).bind fun base hbase =>
    (steps.eat _).bind fun _ => .either ((hself .Unary used).bind fun exponent hexponent =>
      (steps.since _).bind fun _ => .pure (Expr.fits_of_first hbase rfl fun other hother => ?_))
      (.pure hbase)
  exact List.mem_singleton.mp hother ▸ hexponent

theorem nests_readCast (hused : used ≤ limit) (start : Nat) :
    Nests limit used (readCast self start) used (Expr.Fits limit used) := by
  have steps := levelwise_nests limit
  refine steps.skip.bind fun _ => steps.here.bind fun opened => (steps.expect _ _ rfl).bind fun _ =>
    (nests_type hself).bind fun type => (steps.closeParen _).bind fun _ =>
    (hself .Unary used).bind fun operand hoperand => (steps.since start).bind fun _ =>
    .pure (Expr.fits_of_others hused rfl fun other hother => ?_)
  exact List.mem_singleton.mp hother ▸ hoperand

omit hself in
theorem nests_readNew (hused : used ≤ limit) (start : Nat) :
    Nests limit used (readNew start) used (Expr.Fits limit used) := by
  have steps := levelwise_nests limit
  refine steps.skip.bind fun _ => (steps.eat _).bind fun _ => .either
    (steps.here.bind fun _ => (steps.expect _ _ rfl).bind fun _ => (steps.close _ _ _ _ rfl).bind fun _ =>
      (steps.since start).bind fun _ => .pure (Expr.fits_of_leaf hused rfl))
    (steps.expectName.bind fun name => ?_)
  cases name <;> exact (steps.since start).bind fun _ => .pure (Expr.fits_of_leaf hused rfl)

theorem nests_readUnary :
    Nests limit used (readUnary self) used (Expr.Fits limit (used + 1)) := by
  have steps := levelwise_nests limit
  refine Nests.enter.bind fun _ hused => steps.here.bind fun start => steps.inspect.bind fun next => ?_
  have hbehind : ∀ unary : Expr, unary.Fits limit (used + 1) → Nests limit (used + 1) (do
      leave
      return unary) used (Expr.Fits limit (used + 1)) := fun unary hunary =>
    Nests.leave.bind fun _ _ => .pure hunary
  split
  · exact (nests_readCast hself hused _).bind hbehind
  · exact (nests_readNew hused _).bind hbehind
  · split
    · refine steps.skip.bind fun _ => (hself .Unary (used + 1)).bind fun operand hoperand =>
        (steps.since _).bind fun _ => hbehind _ ?_
      exact Expr.fits_of_first (hoperand.fewer (Nat.le_succ _)) rfl fun _ hother => nomatch hother
    · exact (nests_readPower hself hused).bind hbehind

-- A link stays a level deeper, and so does what stands to its right.
theorem nests_readLink (level start : Nat) {left : Expr} (hleft : left.Fits limit (used + 1)) :
    Nests limit used (readLink self level start left) used
      (Round.holds (Expr.Fits limit (used + 1)) (Expr.Fits limit (used + 1))) := by
  have steps := levelwise_nests limit
  refine steps.readConnective.bind fun found => ?_
  cases found with
  | none => exact .pure hleft
  | some op =>
      refine .either (.pure hleft) (Nests.enter.bind fun _ _ => Nests.shallower (Nat.le_succ used)
        (steps.skip.bind fun _ => .either (steps.skip.bind ?behind) ((steps.pure ()).bind ?behind)))
      refine fun _ => (hself (.Binary (op.level + 1)) (used + 1)).bind fun right hright =>
        (steps.since start).bind fun _ => .pure (Expr.fits_of_first hleft rfl fun other hother => ?_)
      exact List.mem_singleton.mp hother ▸ hright

theorem nests_readBinary (level : Nat) :
    Nests limit used (readBinary self level) used (Expr.Fits limit (used + 1)) := by
  have steps := levelwise_nests limit
  refine .restoringDepth (steps.here.bind fun start =>
    (hself .Unary used).bind fun first hfirst => ?_)
  exact .rounds (Expr.Fits limit (used + 1)) hfirst fun _ => nests_readLink hself level _

theorem nests_readConditional :
    Nests limit used (readConditional self) used (Expr.Fits limit (used + 1)) := by
  have steps := levelwise_nests limit
  refine steps.here.bind fun start => (hself (.Binary Level.orOr) used).bind fun condition hcondition =>
    (steps.eat _).bind fun _ => .either (Nests.enter.bind fun _ _ =>
      (hself .Expression (used + 1)).bind fun yes hyes => (steps.expect _ _ rfl).bind fun _ =>
      (hself .Conditional (used + 1)).bind fun no hno => Nests.leave.bind fun _ _ =>
      (steps.since _).bind fun _ => .pure (Expr.fits_of_first hcondition rfl fun other hother => ?_))
      (.pure hcondition)
  rcases List.mem_cons.mp hother with rfl | hother
  · exact hyes
  · exact List.mem_singleton.mp hother ▸ hno

theorem nests_readAssignment :
    Nests limit used (readAssignment self) used (Expr.Fits limit (used + 1)) := by
  have steps := levelwise_nests limit
  refine steps.here.bind fun start => (hself .Conditional used).bind fun target htarget =>
    steps.inspect.bind fun next => ?_
  split
  · exact .pure htarget
  · refine steps.skip.bind fun _ => Nests.enter.bind fun _ _ =>
      (hself .Assignment (used + 1)).bind fun value hvalue => Nests.leave.bind fun _ _ =>
      (steps.since _).bind fun _ => .pure (Expr.fits_of_first htarget rfl fun other hother => ?_)
    exact List.mem_singleton.mp hother ▸ hvalue

theorem nests_readCommaLink (start : Nat) {first : Expr} (hfirst : first.Fits limit (used + 1)) :
    Nests limit used (readCommaLink self start first) used
      (Round.holds (Expr.Fits limit (used + 1)) (Expr.Fits limit (used + 1))) := by
  have steps := levelwise_nests limit
  refine (steps.eat _).bind fun _ => .either (Nests.enter.bind fun _ _ =>
    Nests.shallower (Nat.le_succ used) ((hself .Assignment (used + 1)).bind fun second hsecond =>
      (steps.since start).bind fun _ => .pure (Expr.fits_of_first hfirst rfl fun other hother => ?_)))
    (.pure hfirst)
  exact List.mem_singleton.mp hother ▸ hsecond

theorem nests_readExpression :
    Nests limit used (readExpression self) used (Expr.Fits limit (used + 1)) := by
  have steps := levelwise_nests limit
  refine .restoringDepth (steps.here.bind fun start =>
    (hself .Assignment used).bind fun first hfirst => ?_)
  exact .rounds (Expr.Fits limit (used + 1)) hfirst fun _ => nests_readCommaLink hself _

end Productions

end Grammar

end EffectLint
