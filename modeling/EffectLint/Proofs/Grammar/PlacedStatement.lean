import EffectLint.Grammar.Production
import EffectLint.Proofs.Grammar.PlacedExpression

/-!
A statement stands between the place where its reading began and the place that it reached, with
what it is made of in order in it.
-/

namespace EffectLint

namespace Grammar

open Parse

variable {textEnd start : Nat} {before : Spot → Prop}

theorem between_none {α : Type} {laid : α → Nat → Nat → Prop} {spot : Spot} (h : Behind before spot) :
    From before (Between fun found => InOrder laid found.toList) none spot :=
  h.imp fun _ ⟨hbefore, hle⟩ => ⟨hbefore, hle, .nil hle⟩

theorem between_one {α : Type} {laid : α → Nat → Nat → Prop} {written : α} {spot : Spot}
    (h : From before (Between laid) written spot) :
    From before (Between fun found => InOrder laid found.toList) (some written) spot :=
  h.imp fun _ ⟨hbefore, hle, hlaid⟩ => ⟨hbefore, hle, .one hle hlaid⟩

theorem between_local {declared : VariableTree} {spot : Spot}
    (h : From before (Between VariableTree.Laid) declared spot) :
    From before (Between fun found => InOrder Statement.Laid found.toList)
      (some (Statement.Local declared)) spot :=
  h.imp fun _ ⟨hbefore, hle, hlaid⟩ => ⟨hbefore, hle, .one hle (.Local hlaid)⟩

theorem placed_some {α : Type} {body : Parse α} {laid : α → Nat → Nat → Prop}
    (h : Places textEnd before body (From before (Between laid))) :
    Places textEnd before (some <$> body)
      (From before (Between fun found => InOrder laid found.toList)) := by
  rw [map_eq_pure_bind]
  exact h.bind fun _ => .pure fun _ => between_one

theorem placed_none {α : Type} {laid : α → Nat → Nat → Prop} :
    Places textEnd before (pure none)
      (From before (Between fun found => InOrder laid found.toList)) :=
  .pure fun spot h => ⟨spot, h, Nat.le_refl _, .nil (Nat.le_refl _)⟩

-- Where a declaration is read there is a type to start with.
theorem placed_looksLikeDeclaration :
    Places textEnd before looksLikeDeclaration fun found spot =>
      before spot ∧ (found = true → TokenKind.startsType spot.next = true) := by
  refine Places.inspect.bind fun next => ?_
  split
  · exact .pure fun _ h => ⟨h.1, fun _ => by rw [h.2]; rfl⟩
  · exact (Places.still fun _ _ _ _ hrun => by cases hrun; rfl).bind fun _ =>
      .pure fun _ h => ⟨h.1, fun _ => by rw [h.2]; rfl⟩
  · exact .pure fun _ h => ⟨h.1, nofun⟩

-- Where a name could be read behind a type, the type is not missing.
theorem TypePlaced.moved {earlier spot : Spot} {type : TypeTree} (h : TypePlaced earlier type spot)
    (hnext : spot.next = some .Identifier) : earlier.offset < spot.offset := by
  refine h.moves (Bool.of_not_eq_false fun hnone => ?_)
  rw [h.stays hnone] at hnext
  rw [hnext] at hnone
  cases hnone

-- Behind the type and the name of a declaration.
def Named (before : Spot → Prop) (start : Nat) (type : TypeTree) (name : Name) (spot : Spot) : Prop :=
  ∃ earlier typeEnd, At before start earlier ∧ type.Laid earlier.offset typeEnd ∧
    earlier.offset < name.span.start ∧ typeEnd ≤ name.span.start ∧ name.span.start ≤ spot.offset ∧
    earlier.offset < spot.offset

theorem laid_declared {type : TypeTree} {name : Name} {value : Option Expr} {span : Span} {spot : Spot}
    (h : From (Named before start type name) (Between fun value => InOrder Expr.Laid value.toList)
      value spot) (hspan : span.start = start) :
    From before (Between VariableTree.Laid) ⟨span, type, name, value⟩ spot := by
  obtain ⟨middle, ⟨earlier, typeEnd, ⟨hbefore, hstart⟩, htype, hname, htyped, hnamed, hbegun⟩, hle,
    hvalue⟩ := h
  refine ⟨earlier, hbefore, by omega, typeEnd, middle.offset, ?_, ?_, htype, hname, htyped, hnamed, hvalue⟩
  · show earlier.offset ≤ span.start
    omega
  · show span.start < spot.offset
    omega

variable {self : Reading} (hself : ReadsPlaced textEnd self)

include hself

theorem placed_readInitialValue :
    Places textEnd before (readInitialValue self)
      (From before (Between fun value => InOrder Expr.Laid value.toList)) :=
  (stepwise_movesOn.eat _).places.bind fun _ => .imp
    (.either (placed_some (hself .Assignment _)) placed_none) fun _ _ => early

theorem placed_declared (type : TypeTree) (name : Name) :
    Places textEnd (Named before start type name) (do
      let value ← readInitialValue self
      expectSemicolon
      return (⟨← since start, type, name, value⟩ : VariableTree))
      (From before (Between VariableTree.Laid)) :=
  (placed_readInitialValue hself).bind fun _ => stepwise_movesOn.expectSemicolon.places.bind
    fun _ => (Places.since _).bind fun _ => .pure fun _ h => laid_declared (late h.1) h.2

theorem placed_readLocal :
    Places textEnd (fun spot => before spot ∧ TokenKind.startsType spot.next = true)
      (readLocal self) (From before (Between VariableTree.Laid)) := by
  refine Places.here.bind fun span => (hself .Type _).bind fun type => Places.expectName.bind
    fun found => ?_
  cases found with
  | some name =>
      refine (Places.pure fun spot h => ?_).bind (placed_declared hself type)
      obtain ⟨middle, ⟨earlier, ⟨⟨hbefore, -⟩, hat⟩, htype⟩, hnext, hstart, hlt⟩ := h
      have hmoved := TypePlaced.moved htype hnext
      exact ⟨earlier, middle.offset, ⟨hbefore, hat⟩, htype.laid, by omega, by omega, by omega, by omega⟩
  | none =>
      refine Places.here.bind fun place => (Places.pure fun spot h => ?_).bind (placed_declared hself type)
      obtain ⟨⟨⟨earlier, ⟨⟨hbefore, hstarts⟩, hat⟩, htype⟩, -⟩, hplace⟩ := h
      have hmoved := htype.moves hstarts
      exact ⟨earlier, spot.offset, ⟨hbefore, hat⟩, htype.laid, hplace ▸ hmoved,
        Nat.le_of_eq hplace.symm, Nat.le_of_eq hplace, hmoved⟩

theorem placed_readEvaluate :
    Places textEnd before (readEvaluate self) (From before (Between Statement.Laid)) := by
  refine (hself .Expression _).bind fun value => stepwise_movesOn.expectSemicolon.places.bind
    fun _ => .pure fun spot h => ?_
  obtain ⟨last, ⟨earlier, hbefore, hle, hvalue⟩, hle'⟩ := h
  exact ⟨earlier, hbefore, by omega, .Evaluate (hvalue.mono (Nat.le_refl _) hle')⟩

theorem placed_readBlockRound (statements : Array Statement) :
    Places textEnd (Gathered before Statement.Laid statements) (readBlockRound self statements)
      (Round.holdsAt (Gathered before Statement.Laid) (Gathered before Statement.Laid)) := by
  refine (Places.isAt_still _).bind fun _ => .either (.pure fun _ h => h) <| Places.atEnd.bind
    fun _ => .either (.pure fun _ h => h) <| Places.taken.bind fun _ =>
    (hself .Statement _).bind fun statement => Places.taken.bind fun _ => ?_
  refine .either (stepwise_movesOn.skip.places.bind ?behind)
    (Places.of_before (?behind ()) fun _ => behind_self)
  intro _
  cases statement with
  | none => exact .pure fun _ h => .append (late h) (by simp)
  | some statement => exact .pure fun _ h => .append (late h) (by simp)

theorem placed_readBlock :
    Places textEnd before (readBlock self)
      (From before (Between fun block => InOrder Statement.Laid block.statements)) := by
  refine Places.here.bind fun opened => (stepwise_movesOn.expect _ _ rfl).places.bind fun _ =>
    ((Places.rounds (Gathered _ Statement.Laid) (placed_readBlockRound hself)).of_before
      fun _ => Gathered.nothing).bind fun statements =>
    (stepwise_movesOn.close _ _ _ opened rfl).places.bind fun _ => (Places.since _).bind fun _ =>
    .pure fun spot ⟨h, _⟩ => ?_
  exact (early (late h)).imp fun _ ⟨hbefore, hlaid⟩ => ⟨hbefore.1, hlaid⟩

theorem placed_readCondition :
    Places textEnd before (readCondition self) (From before (Between Expr.Laid)) := by
  refine Places.here.bind fun opened => (stepwise_movesOn.expect _ _ rfl).places.bind fun _ =>
    (hself .Expression _).bind fun condition => (stepwise_movesOn.closeParen opened).places.bind
    fun _ => .pure fun spot h => ?_
  obtain ⟨last, ⟨middle, ⟨earlier, ⟨hbefore, -⟩, hle⟩, hle', hlaid⟩, hle''⟩ := h
  exact ⟨earlier, hbefore, by omega, hlaid.mono hle hle''⟩

theorem placed_readReturn :
    Places textEnd before (readReturn self start) (From before (Between Statement.Laid)) := by
  refine stepwise_movesOn.skip.places.bind fun _ => (Places.isAt_still _).bind fun _ =>
    .either (placed_none.bind ?behind) ((placed_some (hself .Expression _)).bind ?behind)
  refine fun value => stepwise_movesOn.expectSemicolon.places.bind fun _ => (Places.since _).bind
    fun _ => .pure fun spot ⟨h, _⟩ => ?_
  obtain ⟨earlier, hbefore, hle, hlaid⟩ := early (late h)
  exact ⟨earlier, hbefore, hle, .Return hlaid⟩

theorem placed_readIf :
    Places textEnd before (readIf self)
      (From before (Between fun found => InOrder Statement.Laid found.toList)) := by
  refine stepwise_movesOn.skip.places.bind fun _ => (placed_readCondition hself).bind
    fun condition => (hself .Statement _).bind fun yes => ?_
  cases yes with
  | none =>
      refine .pure fun _ ⟨last, ⟨middle, ⟨earlier, hbefore, hle⟩, hle₁, _⟩, hle₂, _⟩ => ?_
      exact between_none ⟨earlier, hbefore, by omega⟩
  | some yes =>
      refine .eaten ((hself .Statement _).bind fun no => ?_) (.pure fun spot h => ?_)
      · cases no with
        | none =>
            refine .pure fun _ ⟨fourth, ⟨third, ⟨last, ⟨middle, ⟨earlier, hbefore, hle⟩, hle₁, _⟩, hle₂,
              _⟩, hlt⟩, hle₃, _⟩ => between_none ⟨earlier, hbefore, by omega⟩
        | some no =>
            refine .pure fun spot h => ?_
            obtain ⟨fourth, ⟨third, ⟨last, ⟨middle, ⟨earlier, hbefore, hle⟩, hle₁, hcondition⟩, hle₂,
              hyes⟩, hlt⟩, hle₃, hno⟩ := h
            refine ⟨earlier, hbefore, by omega, .one (by omega) (.If (hcondition.mono hle (Nat.le_refl _)) ?_)⟩
            exact (hyes.mono (Nat.le_refl _) (Nat.le_of_lt hlt)).append hno
      · obtain ⟨last, ⟨middle, ⟨earlier, hbefore, hle⟩, hle₁, hcondition⟩, hle₂, hyes⟩ := h
        exact ⟨earlier, hbefore, by omega,
          .one (by omega) (.If (hcondition.mono hle (Nat.le_refl _)) hyes)⟩

theorem placed_readWhile :
    Places textEnd before (readWhile self)
      (From before (Between fun found => InOrder Statement.Laid found.toList)) := by
  refine stepwise_movesOn.skip.places.bind fun _ => (placed_readCondition hself).bind
    fun condition => (hself .Statement _).bind fun body => ?_
  cases body with
  | none =>
      refine .pure fun _ ⟨last, ⟨middle, ⟨earlier, hbefore, hle⟩, hle₁, _⟩, hle₂, _⟩ => ?_
      exact between_none ⟨earlier, hbefore, by omega⟩
  | some body =>
      refine .pure fun spot h => ?_
      obtain ⟨last, ⟨middle, ⟨earlier, hbefore, hle⟩, hle₁, hcondition⟩, hle₂, hbody⟩ := h
      exact ⟨earlier, hbefore, by omega,
        .one (by omega) (.While (hcondition.mono hle (Nat.le_refl _)) hbody)⟩

theorem placed_readForFirst :
    Places textEnd before (readForFirst self)
      (From before (Between fun found => InOrder Statement.Laid found.toList)) := by
  refine (stepwise_movesOn.eat _).places.bind fun _ => .either ?_ <|
    placed_looksLikeDeclaration.bind fun found => .choose (fun hfound => ?_) fun _ => ?_
  · exact placed_none.imp fun _ _ => early
  · exact ((placed_readLocal hself).of_before fun _ h => ⟨h.1, h.2 hfound⟩).bind fun _ =>
      .pure fun _ h => early (between_local h)
  · exact ((placed_readEvaluate hself).of_before fun _ => And.left).bind fun _ =>
      .pure fun _ h => early (between_one h)

theorem placed_readFor :
    Places textEnd before (readFor self)
      (From before (Between fun found => InOrder Statement.Laid found.toList)) := by
  refine stepwise_movesOn.skip.places.bind fun _ => Places.here.bind fun opened =>
    (stepwise_movesOn.expect _ _ rfl).places.bind fun _ => (placed_readForFirst hself).bind fun first =>
    (Places.isAt_still _).bind fun _ =>
    .either (placed_none.bind ?condition) ((placed_some (hself .Expression _)).bind ?condition)
  refine fun condition => (stepwise_movesOn.expect _ _ rfl).places.bind fun _ =>
    (Places.isAt_still _).bind fun _ =>
    .either (placed_none.bind ?step) ((placed_some (hself .Expression _)).bind ?step)
  refine fun step => (stepwise_movesOn.closeParen opened).places.bind fun _ =>
    (hself .Statement _).bind fun body => ?_
  cases body with
  | none =>
      refine .pure fun _ ⟨stepped, hstep, hle, _⟩ => between_none ?_
      obtain ⟨asked, hcondition, hle₁, -⟩ := late hstep
      obtain ⟨begun, hfirst, hle₂, -⟩ := late hcondition
      obtain ⟨earlier, ⟨⟨first, hbefore, hle₃⟩, -⟩, hle₄, -⟩ := early hfirst
      exact ⟨first, hbefore, by omega⟩
  | some body =>
      refine .pure fun _ ⟨stepped, hstep, hle, hbody⟩ => ?_
      obtain ⟨asked, hcondition, hle₁, hstep⟩ := late hstep
      obtain ⟨begun, hfirst, hle₂, hcondition⟩ := late hcondition
      obtain ⟨earlier, ⟨⟨first, hbefore, hle₃⟩, -⟩, hle₄, hfirst⟩ := early hfirst
      exact ⟨first, hbefore, by omega, .one (by omega)
        (.For (hfirst.mono hle₃ (Nat.le_refl _)) hcondition hstep hbody)⟩

theorem placed_readStatementHere :
    Places textEnd before (readStatementHere self)
      (From before (Between fun found => InOrder Statement.Laid found.toList)) := by
  refine Places.here.bind fun span => Places.of_before ?_ fun _ => And.left
  refine Places.inspect.bind fun next => Places.of_before ?_ fun _ => And.left
  split
  · exact placed_none
  · exact (placed_readBlock hself).bind fun _ => .pure fun _ h => h.imp
      fun _ ⟨hbefore, hle, hlaid⟩ => ⟨hbefore, hle, .one hle (.Block hlaid)⟩
  · exact stepwise_movesOn.skip.places.bind fun _ => .pure fun _ h => h.imp
      fun _ ⟨hbefore, hle⟩ => ⟨hbefore, hle, .one hle (.Empty hle)⟩
  · exact (placed_readReturn hself).bind fun _ => .pure fun _ => between_one
  · exact placed_readIf hself
  · exact placed_readWhile hself
  · exact placed_readFor hself
  · refine placed_looksLikeDeclaration.bind fun found => .choose (fun hfound => ?_) fun _ => ?_
    · exact ((placed_readLocal hself).of_before fun _ h => ⟨h.1, h.2 hfound⟩).bind fun _ =>
        .pure fun _ => between_local
    · exact ((placed_readEvaluate hself).of_before fun _ => And.left).bind fun _ =>
        .pure fun _ => between_one

theorem placed_readStatement :
    Places textEnd before (readStatement self)
      (From before (Between fun found => InOrder Statement.Laid found.toList)) :=
  Places.enter.bind fun _ => (placed_readStatementHere hself).bind fun _ =>
    Places.leave.bind fun _ => .pure fun _ h => h

theorem placed_production : ReadsPlaced textEnd (production self)
  | .Expression, _ => placed_readExpression hself
  | .Assignment, _ => placed_readAssignment hself
  | .Conditional, _ => placed_readConditional hself
  | .Binary level, _ => placed_readBinary hself level
  | .Unary, _ => placed_readUnary hself
  | .Type, _ => placed_readType hself
  | .Statement, _ => placed_readStatement hself

omit hself in
theorem placed_readWithin (levels : Nat) : ReadsPlaced textEnd (readWithin levels) := by
  induction levels with
  | zero => exact fun _ _ _ _ _ _ _ hrun => nomatch hrun
  | succ levels ih => exact placed_production ih

omit hself in
theorem placed_read : ReadsPlaced textEnd read := fun nonterminal before limits state =>
  placed_readWithin (nesting state.fuel) nonterminal before limits state

end Grammar

end EffectLint
