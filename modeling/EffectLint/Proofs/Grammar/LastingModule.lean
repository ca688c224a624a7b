import EffectLint.Grammar.Item
import EffectLint.Proofs.Grammar.LastingExpression

/-!
Linear fuel is enough to read any text. A statement that takes no token is passed over by the block
around it, and so is an item by the module: the token that is then skipped pays for both.
-/

namespace EffectLint

namespace Grammar

open Parse

variable {price levels credit : Nat}

theorem costs_looksLikeDeclaration : Costs price levels 1 looksLikeDeclaration := by
  refine fun credit => Lasts.inspect.bind fun next => .plain ?_
  split
  · exact .spare (Nat.le_refl _)
  · exact Lasts.beyond.bind fun _ => .spare (Nat.le_refl _)
  · exact .spare (Nat.le_refl _)

section Productions

variable {self : Reading} (hself : ReadsLasting levels self)

include hself

theorem costs_readInitialValue : Costs price levels 1 (readInitialValue self) := fun credit =>
  (Lasts.eat _).bind fun _ => .branch
    (.given (credit + 12) (by omega) ((hself price .Assignment credit).bind fun _ =>
      .spare (Nat.le_refl _)))
    (.spare (Nat.le_refl _))

theorem costs_readLocal : Costs price levels 8 (readLocal self) := by
  refine fun credit => Lasts.here.bind fun start => (hself price .Type (credit + 4)).bind fun type =>
    (costs_expectName _).bind fun name => ?_
  have hbehind : ∀ name : Name, Lasts (Affords price levels (credit + 3)) (do
      let value ← readInitialValue self
      expectSemicolon
      return (⟨← since start.start, type, name, value⟩ : VariableTree)) fun _ =>
        Affords price levels credit := fun name =>
    (costs_readInitialValue hself _).bind fun _ => (costs_expectSemicolon _).bind fun _ =>
      (Lasts.since _).bind fun _ => .spare (Nat.le_refl _)
  cases name with
  | none => exact Lasts.here.bind fun _ => hbehind _
  | some name => exact hbehind name

theorem costs_readEvaluate : Costs price levels 16 (readEvaluate self) := fun credit =>
  (hself price .Expression (credit + 2)).bind fun _ => (costs_expectSemicolon _).bind fun _ =>
    .spare (Nat.le_refl _)

-- The expressions that stand in the heads of statements may be missing.
theorem costs_someExpression : Costs price levels 14 (some <$> self .Expression) := fun credit =>
  (hself price .Expression credit).bind fun _ => .spare (Nat.le_refl _)

theorem costs_readCondition : Costs price levels 16 (readCondition self) := fun credit =>
  Lasts.here.bind fun _ => (costs_expect _ _ _).bind fun _ =>
    (hself price .Expression (credit + 1)).bind fun _ => (costs_closeParen _ _).bind fun _ =>
    .spare (Nat.le_refl _)

theorem costs_readForFirst : Costs price levels 18 (readForFirst self) := fun credit =>
  (Lasts.eat _).bind fun _ => .branch (.spare (by omega))
    ((costs_looksLikeDeclaration _).bind fun _ => .either
      (.given (credit + 8) (by omega) ((costs_readLocal hself _).bind fun _ => .spare (Nat.le_refl _)))
      ((costs_readEvaluate hself credit).bind fun _ => .spare (Nat.le_refl _)))

theorem lasts_readReturn {kind : TokenKind} (start : Nat) :
    Lasts (fun rest fuel => Affords price levels credit rest fuel ∧ nextKind rest = some kind)
      (readReturn self start) fun _ => Affords price levels (credit + 64) := by
  refine Lasts.skipSeen.bind fun _ => .given (credit + 64 + 2 + 14 + 1) (by omega)
    ((costs_isAt _ _).bind fun _ => .either ((Lasts.spare (Nat.le_add_right _ 14)).bind ?behind)
      ((costs_someExpression hself _).bind ?behind))
  exact fun _ => (costs_expectSemicolon _).bind fun _ => (Lasts.since start).bind fun _ =>
    .spare (Nat.le_refl _)

section Nested

variable (hworth : 256 ≤ price)

include hworth

theorem costs_statement : Costs price levels 19 (self .Statement) :=
  (hself price .Statement hworth).costs

theorem lasts_readIf {kind : TokenKind} :
    Lasts (fun rest fuel => Affords price levels credit rest fuel ∧ nextKind rest = some kind)
      (readIf self) fun _ => Affords price levels (credit + 64) := by
  refine Lasts.skipSeen.bind fun _ => .given (credit + 64 + 1 + 19 + 16) (by omega)
    ((costs_readCondition hself _).bind fun condition =>
      (costs_statement hself hworth _).bind fun yes => ?_)
  cases yes with
  | none => exact .spare (by omega)
  | some yes =>
      refine (Lasts.eat _).bind fun _ => .branch (.given (credit + 64 + 19) (by omega)
        ((costs_statement hself hworth _).bind fun no => ?_)) (.spare (Nat.le_refl _))
      cases no <;> exact .spare (Nat.le_refl _)

theorem lasts_readWhile {kind : TokenKind} :
    Lasts (fun rest fuel => Affords price levels credit rest fuel ∧ nextKind rest = some kind)
      (readWhile self) fun _ => Affords price levels (credit + 64) := by
  refine Lasts.skipSeen.bind fun _ => .given (credit + 64 + 19 + 16) (by omega)
    ((costs_readCondition hself _).bind fun condition =>
      (costs_statement hself hworth _).bind fun body => ?_)
  cases body <;> exact .spare (Nat.le_refl _)

-- Nothing takes more between two tokens than the head of this loop does.
theorem lasts_readFor {kind : TokenKind} :
    Lasts (fun rest fuel => Affords price levels (credit + 17) rest fuel ∧ nextKind rest = some kind)
      (readFor self) fun _ => Affords price levels (credit + 64) := by
  refine Lasts.skipSeen.bind fun _ => Lasts.here.bind fun opened =>
    .given (credit + 64 + 19 + 1 + 14 + 1 + 1 + 14 + 1 + 18 + 1) (by omega)
      ((costs_expect _ _ _).bind fun _ => (costs_readForFirst hself _).bind fun first =>
        (costs_isAt _ _).bind fun _ => .either ((Lasts.spare (Nat.le_add_right _ 14)).bind ?condition)
          ((costs_someExpression hself _).bind ?condition))
  refine fun condition => (costs_expect _ _ _).bind fun _ => (costs_isAt _ _).bind fun _ =>
    .either ((Lasts.spare (Nat.le_add_right _ 14)).bind ?step)
      ((costs_someExpression hself _).bind ?step)
  refine fun step => (costs_closeParen _ _).bind fun _ =>
    (costs_statement hself hworth _).bind fun body => ?_
  cases body <;> exact .spare (Nat.le_refl _)

variable (hcounted : Counted (self .Statement))

include hcounted

theorem lasts_readBlockRound (statements : Array Statement) :
    Lasts (Affords price levels (credit + 20)) (readBlockRound self statements) fun found =>
      Affords price levels (found.pick (credit + 21) credit) := by
  refine (Lasts.isAt _).bind fun _ => .branch (.plain (.done (by omega)))
    (Lasts.atEnd.bind fun ends => .choose (fun _ => .plain (.done (by omega))) fun hmore => ?_)
  refine ((hself price .Statement hworth).taking hcounted fun statement => ?_).weaken
    (fun rest fuel h => ⟨h.1, h.2 (by simpa using hmore)⟩) fun _ _ _ h => h
  cases statement <;> exact .again (by omega)

-- Where the brace that opens the block is, the rest costs no more than it brings in.
theorem lasts_readBlock {before : List Token → Nat → Prop}
    (hopen : Lasts before (expect (.Sign .BraceOpen) .UnexpectedToken) fun _ =>
      Affords price levels (credit + 21)) :
    Lasts before (readBlock self) fun _ => Affords price levels credit :=
  Lasts.here.bind fun _ => hopen.bind fun _ =>
    (Lasts.rounds (fun statements _ => lasts_readBlockRound hself hworth hcounted statements) #[]
      (credit + 1)).bind fun _ => (costs_close _ _ _ _ _).bind fun _ => (Lasts.since _).bind fun _ =>
    .spare (Nat.le_refl _)

theorem costs_readBlock : Costs price levels 22 (readBlock self) := fun credit =>
  lasts_readBlock hself hworth hcounted (costs_expect _ _ (credit + 21))

omit hworth hcounted in
theorem costs_readSimple : Costs price levels 17 (do
    if ← looksLikeDeclaration then
      return some (Statement.Local (← readLocal self))
    else
      return some (← readEvaluate self)) := fun credit =>
  (costs_looksLikeDeclaration _).bind fun _ => .either
    (.given (credit + 8) (by omega) ((costs_readLocal hself _).bind fun _ => .spare (Nat.le_refl _)))
    ((costs_readEvaluate hself credit).bind fun _ => .spare (Nat.le_refl _))

theorem pays_readStatementHere : Pays price levels 18 (readStatementHere self) := by
  intro length credit
  have hless : credit + 64 ≤ credit + 17 + 64 := by omega
  obtain ⟨lower, rfl⟩ : ∃ lower, price = lower + 128 := ⟨price - 128, by omega⟩
  have hsimple : Costs lower levels 17 _ := costs_readSimple hself
  refine Lasts.here.bind fun span =>
    (Lasts.inspectKnowing.weaken (fun _ _ h => h.symm) fun _ _ _ h => h).bind fun next => ?_
  split
  · exact .pure fun _ _ h => .inl ⟨h.2, h.1.1.fewer (Nat.le_add_right _ _)⟩
  · have hopen : Lasts (fun rest fuel => Affords (lower + 128) levels (credit + 17) rest fuel ∧
        nextKind rest = some (.Sign .BraceOpen)) (expect (.Sign .BraceOpen) .UnexpectedToken)
          fun _ => Affords (lower + 128) levels (credit + 64 + 21) :=
      (Lasts.expectSeen _ _).weaken (fun _ _ h => h) fun _ _ _ h => h.fewer (by omega)
    exact .paid ((lasts_readBlock hself hworth hcounted hopen).bind fun _ => .spare (Nat.le_refl _))
  · exact .paid (Lasts.skipSeen.bind fun _ => .spare (by omega))
  · exact .paid ((lasts_readReturn hself _).bind fun _ => .spare hless)
  · exact .paid ((lasts_readIf hself hworth).weaken (fun _ _ h => h) fun _ _ _ h => h.fewer hless)
  · exact .paid ((lasts_readWhile hself hworth).weaken (fun _ _ h => h) fun _ _ _ h => h.fewer hless)
  · exact .paid (lasts_readFor hself hworth)
  · exact (hsimple.pays (by omega) length credit).weaken (fun _ _ h => ⟨h.2, h.1.1⟩) fun _ _ _ h => h

theorem pays_readStatement : Pays price levels 18 (readStatement self) := fun length credit =>
  Lasts.enter.bind fun _ => (pays_readStatementHere hself hworth hcounted length credit).bind fun _ =>
    Lasts.leave.bind fun _ => .pure fun _ _ h => h

end Nested

theorem lasting_production (hcounted : Counted (self .Statement)) :
    ReadsLasting (levels + 1) (production self)
  | _, .Type => (costs_readType (hself _ .Type)).nested
  | _, .Unary => (costs_readUnary hself).nested
  | _, .Binary level => (costs_readBinary hself level).nested
  | _, .Conditional => (costs_readConditional hself).nested
  | _, .Assignment => (costs_readAssignment hself).nested
  | _, .Expression => (costs_readExpression hself).nested
  | _, .Statement => fun hworth => (pays_readStatement hself hworth hcounted).nested

end Productions

theorem lasting_readWithin (levels : Nat) : ReadsLasting levels (readWithin levels) := by
  induction levels with
  | zero =>
      -- on no levels nothing can be paid
      have hnone : ∀ {α : Type} {price cost : Nat} {body : Parse α}, 0 < cost → Costs price 0 cost body :=
        fun hcost credit limits state hstate => by
          have hlevels := hstate.levels
          omega
      rintro price (_ | _ | _ | _ | _ | _ | _)
      case Statement =>
        refine fun _ length credit limits state hstate => ?_
        have hlevels := hstate.2.levels
        omega
      all_goals exact hnone (by omega)
  | succ levels ih => exact lasting_production ih (readWithin_counted levels .Statement)

section Nesting

variable {α : Type} {cost : Nat} {body : Nat → Parse α}

-- The fuel that pays for what is left also gives levels enough.
theorem affords_nesting {rest : List Token} {fuel : Nat} (h : Affords price levels credit rest fuel) :
    Affords price (nesting fuel) credit rest fuel := by
  have hfuel := h.fuel
  exact ⟨h.worth, hfuel, by unfold nesting; omega⟩

theorem costs_nesting (h : ∀ levels, Costs price levels cost (body levels)) :
    Costs price levels cost fun limits state => body (nesting state.fuel) limits state := by
  intro credit limits state hstate
  obtain ⟨hlasts, hends⟩ := h _ credit limits state (affords_nesting hstate)
  refine ⟨hlasts, fun result state' hrun => ?_⟩
  obtain ⟨hshorter, hfewer, hresult⟩ := hends result state' hrun
  have hlevels := hstate.levels
  have hpaid := Nat.mul_le_mul_left price hshorter
  exact ⟨hshorter, hfewer, hresult.worth, hresult.fuel, by omega⟩

-- With all the credit that the fuel gives, more than the cost is left only if a token was taken.
theorem pays_nesting (hcost : cost < 64) (h : ∀ levels, Pays price levels cost (body levels)) :
    Pays price levels cost fun limits state => body (nesting state.fuel) limits state := by
  rintro length credit limits state ⟨rfl, hstate⟩
  obtain ⟨spare, hspare⟩ := Nat.exists_eq_add_of_le hstate.fuel
  obtain ⟨hlasts, hends⟩ := h (nesting state.fuel) state.rest.length (credit + spare) limits state
    ⟨rfl, hstate.worth, by omega, by unfold nesting; omega⟩
  refine ⟨hlasts, fun result state' hrun => ?_⟩
  obtain ⟨hshorter, hfewer, hresult⟩ := hends result state' hrun
  have hlevels := hstate.levels
  refine ⟨hshorter, hfewer, ?_⟩
  rcases hresult with ⟨hsame, hresult⟩ | hresult
  · have hfuel := hresult.fuel
    exact .inl ⟨hsame, hresult.worth, by omega, by rw [hsame]; omega⟩
  · have hfuel := hresult.fuel
    have hworth := hresult.worth
    have htaken : state'.rest.length < state.rest.length := by
      refine Nat.lt_of_le_of_ne hshorter fun hsame => ?_
      rw [hsame] at hfuel
      omega
    have hpaid := Nat.mul_le_mul_left price htaken
    rw [Nat.mul_succ] at hpaid
    exact .inr ⟨hworth, by omega, by omega⟩

end Nesting

theorem lasting_read (levels : Nat) : ReadsLasting levels read
  | price, .Type => costs_nesting fun levels => lasting_readWithin levels price .Type
  | price, .Unary => costs_nesting fun levels => lasting_readWithin levels price .Unary
  | price, .Binary level => costs_nesting fun levels => lasting_readWithin levels price (.Binary level)
  | price, .Conditional => costs_nesting fun levels => lasting_readWithin levels price .Conditional
  | price, .Assignment => costs_nesting fun levels => lasting_readWithin levels price .Assignment
  | price, .Expression => costs_nesting fun levels => lasting_readWithin levels price .Expression
  | price, .Statement => fun hworth => pays_nesting (by omega) fun levels =>
      lasting_readWithin levels price .Statement hworth

section Items

-- Behind the word that an item starts with, a name and a few looks are all that is left.
theorem lasts_readImport {kind : TokenKind} :
    Lasts (fun rest fuel => Affords price levels credit rest fuel ∧ nextKind rest = some kind)
      readImport fun _ => Affords price levels (credit + 64) := by
  refine Lasts.skipSeen.bind fun _ => .given (credit + 64 + 2 + 1) (by omega)
    ((costs_expectName _).bind fun name => ?_)
  cases name with
  | none => exact .spare (by omega)
  | some name => exact (costs_expectSemicolon _).bind fun _ => .spare (Nat.le_refl _)

theorem lasts_readClass {kind : TokenKind} :
    Lasts (fun rest fuel => Affords price levels credit rest fuel ∧ nextKind rest = some kind)
      readClass fun _ => Affords price levels (credit + 64) := by
  refine Lasts.skipSeen.bind fun _ => .given (credit + 64 + 2 + 1) (by omega)
    ((costs_expectName _).bind fun name => ?_)
  cases name with
  | none => exact .spare (by omega)
  | some name => exact (costs_expectSemicolon _).bind fun _ => .spare (Nat.le_refl _)

theorem lasts_readAlias {kind : TokenKind} :
    Lasts (fun rest fuel => Affords price levels credit rest fuel ∧ nextKind rest = some kind)
      readAlias fun _ => Affords price levels (credit + 64) := by
  refine Lasts.skipSeen.bind fun _ => .given (credit + 64 + 2 + 4 + 1 + 1) (by omega)
    ((costs_expectName _).bind fun name => ?_)
  cases name with
  | none => exact .spare (by omega)
  | some name =>
      exact (costs_expect _ _ _).bind fun _ => (lasting_read levels price .Type _).bind fun _ =>
        (costs_expectSemicolon _).bind fun _ => .spare (Nat.le_refl _)

variable (hworth : 256 ≤ price)

include hworth

theorem costs_readFunction (start : Nat) (leading : Promises) (result : TypeTree) (name : Name) :
    Costs price levels 26 (readFunction start leading result name) := by
  refine fun credit => (costs_readParameters (lasting_read levels price .Type) _).bind
    fun parameters => (costs_readPromises _).bind fun promises => (costs_isAt _ _).bind fun _ => .either
      (((costs_readBlock (lasting_read levels) hworth (read_counted .Statement) credit).bind
        fun _ => .spare (Nat.le_refl _)).bind ?_)
      (.given (credit + 2) (by omega) ((costs_expectSemicolon _).bind fun _ =>
        (Lasts.spare (Nat.le_refl _)).bind ?_))
  all_goals exact fun _ => (Lasts.since start).bind fun _ => .spare (Nat.le_refl _)

theorem costs_readDeclaration : Costs price levels 34 readDeclaration := by
  refine fun credit => Lasts.here.bind fun start => (costs_readPromises _).bind fun leading =>
    (lasting_read levels price .Type _).bind fun type => (costs_expectName _).bind fun name => ?_
  cases name with
  | none =>
      exact .given (credit + 1) (by omega) ((costs_recoverItem _).bind fun _ => .spare (Nat.le_refl _))
  | some name =>
      exact (costs_isAt _ _).bind fun _ => .either
        ((costs_readFunction hworth _ _ _ name credit).bind fun _ => .spare (Nat.le_refl _))
        (.given (credit + 2 + 1) (by omega)
          ((costs_readInitialValue (lasting_read levels) _).bind fun _ =>
            (costs_expectSemicolon _).bind fun _ => (Lasts.since _).bind fun _ =>
            .spare (Nat.le_refl _)))

omit hworth

theorem pays_readItem (hworth : 384 ≤ price) : Pays price levels 35 readItem := by
  intro length credit
  obtain ⟨lower, rfl⟩ : ∃ lower, price = lower + 128 := ⟨price - 128, by omega⟩
  have hdeclaration : Costs lower levels 34 readDeclaration := costs_readDeclaration (by omega)
  have hdeclared : ∀ {kind : TokenKind}, Lasts
      (fun rest fuel => (Affords (lower + 128) levels (credit + 34) rest fuel ∧
        nextKind rest = some kind) ∧ rest.length = length) readDeclaration fun _ rest fuel =>
          rest.length = length ∧ Affords (lower + 128) levels credit rest fuel ∨
            Affords (lower + 128) levels (credit + 64) rest fuel :=
    (hdeclaration.pays (by omega) length credit).weaken (fun _ _ h => ⟨h.2, h.1.1⟩) fun _ _ _ h => h
  have hless : credit + 64 ≤ credit + 34 + 64 := by omega
  refine (Lasts.inspectKnowing.weaken (fun _ _ h => h.symm) fun _ _ _ h => h).bind fun next => ?_
  split
  · exact .pure fun _ _ h => .inl ⟨h.2, h.1.1.fewer (Nat.le_add_right _ _)⟩
  · exact .paid (lasts_readImport.weaken (fun _ _ h => h) fun _ _ _ h => h.fewer hless)
  · exact .paid (lasts_readAlias.weaken (fun _ _ h => h) fun _ _ _ h => h.fewer hless)
  · exact .paid (lasts_readClass.weaken (fun _ _ h => h) fun _ _ _ h => h.fewer hless)
  · exact .paid (Lasts.skipSeen.bind fun _ => .spare (by omega))
  · exact hdeclared
  · exact hdeclared
  · exact hdeclared
  · exact hdeclared
  · next kind _ _ _ _ _ _ _ _ =>
      have hrecover : Costs lower levels 1 (do
          complain (.about .UnexpectedToken (← here) (kind.describe ++ " at top level"))
          recoverItem
          return (none : Option Item)) := fun _ =>
        Lasts.here.bind fun _ => (Lasts.complain _).bind fun _ => (costs_recoverItem _).bind fun _ =>
          .spare (Nat.le_refl _)
      exact (hrecover.pays (by omega) length credit).weaken
        (fun _ _ h => ⟨h.2, h.1.1.fewer (by omega)⟩) fun _ _ _ h => h

theorem lasts_readItemRound (hworth : 384 ≤ price) (items : Array Item) :
    Lasts (Affords price levels (credit + 35)) (readItemRound items) fun found =>
      Affords price levels (found.pick (credit + 36) credit) := by
  refine Lasts.atEnd.bind fun ends => .choose (fun _ => .plain (.done (by omega))) fun hmore => ?_
  refine ((pays_readItem hworth).taking (stepwise_counted.readItem read_counted) fun item => ?_).weaken
    (fun rest fuel h => ⟨h.1, h.2 (by simpa using hmore)⟩) fun _ _ _ h => h
  cases item <;> exact .again (by omega)

theorem costs_readItems (hworth : 384 ≤ price) : Costs price levels 35 readItems := fun credit =>
  (Lasts.rounds (fun items _ => lasts_readItemRound hworth items) #[] credit).bind fun _ =>
    .spare (Nat.le_refl _)

end Items

end Grammar

-- However wrong a text is, so many looks at its tokens are enough.
theorem parse_ends_within_linear_fuel {text : List Char} {fuel : Nat}
    (hfuel : 384 * ((lex text).length + 1) ≤ fuel) (depth : Nat) :
    parse text fuel depth ≠ .error .Fuel := by
  have hstart : Parse.Affords 384 fuel (0 + 35) (lex text) fuel := ⟨by omega, by omega, by omega⟩
  have hlasts := (Grammar.costs_readItems (Nat.le_refl _) 0 ⟨Text.width text, depth⟩
    (.start (lex text) fuel) hstart).1
  intro hrun
  unfold parse parseTokens at hrun
  split at hrun
  · cases hrun
  · next reason hread =>
      cases hrun
      exact hlasts hread

-- Nothing is closed in this text, and it is read on less.
theorem unclosed_ends_within_linear_fuel :
    384 * ((lex "int f( \x7b ( [ return ) ] = ; for (".toList).length + 1) ≤ 6144 ∧
      parse "int f( \x7b ( [ return ) ] = ; for (".toList 6144 8 ≠ .error .Fuel := by
  have hfuel : 384 * ((lex "int f( \x7b ( [ return ) ] = ; for (".toList).length + 1) ≤ 6144 := by
    decide +kernel
  exact ⟨hfuel, parse_ends_within_linear_fuel hfuel 8⟩

end EffectLint
