import EffectLint.Grammar.Item
import EffectLint.Proofs.Grammar.Nesting

/-!
Statements open a level each, the first part of a `for` header excepted. With them the limit bounds
how deep a way down the tree of a whole module gets.
-/

namespace EffectLint

namespace Grammar

open Parse

section Productions

variable {limit used : Nat} {self : Reading} (hself : ReadsNested limit self)

include hself

-- What a statement may hold in place of an expression.
theorem nests_someExpression :
    Nests limit used (some <$> self .Expression) used fun found =>
      ∀ value ∈ found, Expr.Fits limit (used + 1) value :=
  (hself .Expression used).bind fun _ hvalue => .pure fun _ hother =>
    Option.some.inj hother ▸ hvalue

theorem nests_readInitialValue :
    Nests limit used (readInitialValue self) used fun found =>
      ∀ value ∈ found, Expr.Fits limit (used + 1) value := by
  have steps := levelwise_nests limit
  refine (steps.eat _).bind fun _ => .either
    ((hself .Assignment used).bind fun value hvalue => .pure fun other hother => ?_)
    (.pure fun other hother => nomatch hother)
  exact Option.some.inj hother ▸ hvalue

theorem nests_readLocal :
    Nests limit used (readLocal self) used fun found =>
      ∀ value ∈ found.value, Expr.Fits limit (used + 1) value := by
  have steps := levelwise_nests limit
  refine steps.here.bind fun start => (nests_type hself).bind fun type =>
    steps.expectName.bind fun name => ?_
  have hbehind : ∀ name : Name, Nests limit used (do
      let value ← readInitialValue self
      expectSemicolon
      return (⟨← since start.start, type, name, value⟩ : VariableTree)) used fun found =>
        ∀ value ∈ found.value, Expr.Fits limit (used + 1) value := fun name =>
    (nests_readInitialValue hself).bind fun value hvalue => steps.expectSemicolon.bind fun _ =>
      (steps.since _).bind fun _ => .pure hvalue
  cases name with
  | none => exact steps.here.bind fun _ => hbehind _
  | some name => exact hbehind name

theorem nests_readEvaluate (hused : used ≤ limit) :
    Nests limit used (readEvaluate self) used (Statement.Fits limit used) := by
  have steps := levelwise_nests limit
  refine (hself .Expression used).bind fun value hvalue => steps.expectSemicolon.bind fun _ =>
    .pure (Statement.fits_of_inside hused ?_ ?_ ?_)
  · exact fun _ h => nomatch h
  · exact fun other hother => List.mem_singleton.mp hother ▸ hvalue
  · exact fun _ h => nomatch h

theorem nests_readBlockRound {statements : Array Statement}
    (hstatements : ∀ one ∈ statements.toList, one.Fits limit (used + 1)) :
    Nests limit used (readBlockRound self statements) used
      (Round.holds (fun found => ∀ one ∈ found.toList, Statement.Fits limit (used + 1) one)
        fun found => ∀ one ∈ found.toList, Statement.Fits limit (used + 1) one) := by
  have steps := levelwise_nests limit
  refine (steps.isAt _).bind fun _ => .either (.pure hstatements) (steps.atEnd.bind fun _ =>
    .either (.pure hstatements) (steps.taken.bind fun _ => (hself .Statement used).bind
      fun found hfound => steps.taken.bind fun _ => .either (steps.skip.bind ?behind)
        ((steps.pure ()).bind ?behind)))
  refine fun _ => ?_
  cases found with
  | none => exact .pure hstatements
  | some statement =>
      refine .pure fun one hmem => ?_
      rw [Array.toList_push, List.mem_append, List.mem_singleton] at hmem
      rcases hmem with hmem | rfl
      · exact hstatements one hmem
      · exact hfound one rfl

theorem nests_readBlock :
    Nests limit used (readBlock self) used fun found =>
      ∀ one ∈ found.statements, Statement.Fits limit (used + 1) one := by
  have steps := levelwise_nests limit
  refine steps.here.bind fun opened => (steps.expect _ _ rfl).bind fun _ =>
    (Nests.rounds (fun found => ∀ one ∈ found.toList, Statement.Fits limit (used + 1) one)
      (by simp) fun _ => nests_readBlockRound hself).bind
      fun statements hstatements => ?_
  exact (steps.close _ _ _ _ rfl).bind fun _ => (steps.since _).bind fun _ => .pure hstatements

theorem nests_readCondition :
    Nests limit used (readCondition self) used (Expr.Fits limit (used + 1)) := by
  have steps := levelwise_nests limit
  exact steps.here.bind fun _ => (steps.expect _ _ rfl).bind fun _ => (hself .Expression used).bind
    fun _ hcondition => (steps.closeParen _).bind fun _ => .pure hcondition

theorem nests_readReturn (hused : used ≤ limit) (start : Nat) :
    Nests limit used (readReturn self start) used (Statement.Fits limit used) := by
  have steps := levelwise_nests limit
  have hbehind : ∀ value : Option Expr, (∀ one ∈ value, one.Fits limit (used + 1)) →
      Nests limit used (do
        expectSemicolon
        return Statement.Return (← since start) value) used (Statement.Fits limit used) := by
    refine fun value hvalue => steps.expectSemicolon.bind fun _ => (steps.since start).bind fun _ =>
      .pure (Statement.fits_of_inside hused (fun _ h => nomatch h) (fun one hone => ?_)
        fun _ h => nomatch h)
    exact hvalue one (Option.mem_toList.mp hone)
  exact steps.skip.bind fun _ => (steps.isAt _).bind fun _ => .either
    (hbehind none fun _ h => nomatch h) ((nests_someExpression hself).bind hbehind)

theorem nests_readIf (hused : used ≤ limit) :
    Nests limit used (readIf self) used fun found =>
      ∀ written ∈ found, Statement.Fits limit used written := by
  have steps := levelwise_nests limit
  refine steps.skip.bind fun _ => (nests_readCondition hself).bind fun condition hcondition =>
    (hself .Statement used).bind fun yes hyes => ?_
  have hbuilt : ∀ {first : Statement} {other : Option Statement}, first.Fits limit (used + 1) →
      (∀ no ∈ other, no.Fits limit (used + 1)) →
      ∀ written ∈ some (Statement.If condition first other), written.Fits limit used := by
    rintro first other hfirst hother written ⟨⟩
    refine Statement.fits_of_inside hused (fun _ h => nomatch h)
      (fun value hvalue => List.mem_singleton.mp hvalue ▸ hcondition) fun inner hinner => ?_
    rcases List.mem_cons.mp hinner with rfl | hinner
    · exact hfirst
    · exact hother inner (Option.mem_toList.mp hinner)
  cases yes with
  | none => exact .pure fun _ h => nomatch h
  | some yes =>
      refine (steps.eat _).bind fun _ => .either ((hself .Statement used).bind fun no hno => ?_)
        (.pure (hbuilt (hyes yes rfl) fun _ h => nomatch h))
      cases no with
      | none => exact .pure fun _ h => nomatch h
      | some no => exact .pure (hbuilt (hyes yes rfl) hno)

theorem nests_readWhile (hused : used ≤ limit) :
    Nests limit used (readWhile self) used fun found =>
      ∀ written ∈ found, Statement.Fits limit used written := by
  have steps := levelwise_nests limit
  refine steps.skip.bind fun _ => (nests_readCondition hself).bind fun condition hcondition =>
    (hself .Statement used).bind fun body hbody => ?_
  cases body with
  | none => exact .pure fun _ h => nomatch h
  | some body =>
      refine .pure fun written hwritten => Option.some.inj hwritten ▸ ?_
      exact Statement.fits_of_inside hused (fun _ h => nomatch h)
        (fun value hvalue => List.mem_singleton.mp hvalue ▸ hcondition)
        fun inner hinner => List.mem_singleton.mp hinner ▸ hbody body rfl

-- The first part of the header stands at the level of the loop itself.
theorem nests_readForFirst (hused : used ≤ limit) :
    Nests limit used (readForFirst self) used fun found =>
      ∀ written ∈ found, Statement.Fits limit used written := by
  have steps := levelwise_nests limit
  refine (steps.eat _).bind fun _ => .either (.pure fun _ h => nomatch h)
    (steps.looksLikeDeclaration.bind fun _ => .either
      ((nests_readLocal hself).bind fun declared hdeclared => .pure fun written hwritten => ?_)
      ((nests_readEvaluate hself hused).bind fun value hvalue => .pure fun written hwritten => ?_))
  · exact Option.some.inj hwritten ▸ Statement.fits_of_local hused hdeclared
  · exact Option.some.inj hwritten ▸ hvalue

theorem nests_readFor (hused : used ≤ limit) :
    Nests limit used (readFor self) used fun found =>
      ∀ written ∈ found, Statement.Fits limit used written := by
  have steps := levelwise_nests limit
  have hnone : ∀ value ∈ (none : Option Expr), value.Fits limit (used + 1) := fun _ h => nomatch h
  refine steps.skip.bind fun _ => steps.here.bind fun opened => (steps.expect _ _ rfl).bind fun _ =>
    (nests_readForFirst hself hused).bind fun first hfirst => (steps.isAt _).bind fun _ =>
    .either (Nests.bind (.pure hnone) ?condition) ((nests_someExpression hself).bind ?condition)
  refine fun condition hcondition => (steps.expect _ _ rfl).bind fun _ => (steps.isAt _).bind fun _ =>
    .either (Nests.bind (.pure hnone) ?step) ((nests_someExpression hself).bind ?step)
  refine fun step hstep => (steps.closeParen _).bind fun _ => (hself .Statement used).bind
    fun body hbody => ?_
  cases body with
  | none => exact .pure fun _ h => nomatch h
  | some body =>
      refine .pure fun written hwritten => Option.some.inj hwritten ▸ ?_
      refine Statement.fits_of_inside hused hfirst (fun value hvalue => ?_)
        fun inner hinner => List.mem_singleton.mp hinner ▸ hbody body rfl
      rcases List.mem_append.mp hvalue with hvalue | hvalue
      · exact hcondition value (Option.mem_toList.mp hvalue)
      · exact hstep value (Option.mem_toList.mp hvalue)

theorem nests_readStatementHere (hused : used ≤ limit) :
    Nests limit used (readStatementHere self) used fun found =>
      ∀ written ∈ found, Statement.Fits limit used written := by
  have steps := levelwise_nests limit
  have hone : ∀ {written : Statement}, written.Fits limit used →
      ∀ other ∈ some written, other.Fits limit used :=
    fun hwritten other hother => Option.some.inj hother ▸ hwritten
  refine steps.here.bind fun span => steps.inspect.bind fun next => ?_
  split
  · exact .pure fun _ h => nomatch h
  · exact (nests_readBlock hself).bind fun block hblock => .pure (hone
      (Statement.fits_of_inside hused (fun _ h => nomatch h) (fun _ h => nomatch h) hblock))
  · exact steps.skip.bind fun _ => .pure (hone
      (Statement.fits_of_inside hused (fun _ h => nomatch h) (fun _ h => nomatch h)
        fun _ h => nomatch h))
  · exact (nests_readReturn hself hused _).bind fun _ hreturn => .pure (hone hreturn)
  · exact nests_readIf hself hused
  · exact nests_readWhile hself hused
  · exact nests_readFor hself hused
  · exact steps.looksLikeDeclaration.bind fun _ => .either
      ((nests_readLocal hself).bind fun _ hdeclared => .pure (hone
        (Statement.fits_of_local hused hdeclared)))
      ((nests_readEvaluate hself hused).bind fun _ hvalue => .pure (hone hvalue))

theorem nests_readStatement :
    Nests limit used (readStatement self) used fun found =>
      ∀ written ∈ found, Statement.Fits limit (used + 1) written :=
  Nests.enter.bind fun _ hused => (nests_readStatementHere hself hused).bind fun _ hfound =>
    Nests.leave.bind fun _ _ => .pure hfound

theorem nests_production : ReadsNested limit (production self)
  | .Expression, _ => nests_readExpression hself
  | .Assignment, _ => nests_readAssignment hself
  | .Conditional, _ => nests_readConditional hself
  | .Binary level, _ => nests_readBinary hself level
  | .Unary, _ => nests_readUnary hself
  | .Type, used => @Nearsighted.readType _ (levelwise_nests limit).toNearsighted self self (nests_type hself) used
  | .Statement, _ => nests_readStatement hself

end Productions

theorem nests_readWithin (limit levels : Nat) : ReadsNested limit (readWithin levels) := by
  induction levels with
  | zero => exact fun _ _ _ _ _ _ _ _ hrun => nomatch hrun
  | succ levels ih => exact nests_production ih

theorem nests_read (limit : Nat) : ReadsNested limit read :=
  fun nonterminal used limits state =>
    nests_readWithin limit (nesting state.fuel) nonterminal used limits state

section Items

variable {limit : Nat}

def ItemFits (limit : Nat) (item : Item) : Prop :=
  (TreeNode.Item item).Fits limit 0

theorem itemFits_of_children {item : Item}
    (hchildren : ∀ child ∈ (TreeNode.Item item).counted, child.Fits limit 1) : ItemFits limit item :=
  TreeNode.fits_of_children (Nat.zero_le limit) (fun _ h => nomatch h) hchildren

theorem nests_readFunction (start : Nat) (leading : Promises) (result : TypeTree) (name : Name) :
    Nests limit 0 (readFunction start leading result name) 0 (ItemFits limit) := by
  have steps := levelwise_nests limit
  have hbehind : ∀ parameters promises (body : Option Block),
      (∀ one ∈ body.elim [] Block.statements, Statement.Fits limit 1 one) → Nests limit 0 (do
        return Item.Function ⟨← since start, name, promises, result, parameters, body⟩) 0
          (ItemFits limit) := by
    refine fun parameters promises body hbody => (steps.since start).bind fun _ =>
      .pure (itemFits_of_children fun child hchild => ?_)
    obtain ⟨one, hone, rfl⟩ := List.mem_map.mp hchild
    exact hbody one hone
  have hparameters : NestsFlat limit (readParameters read) :=
    @Nearsighted.readParameters _ steps.toNearsighted read read (nests_type (nests_read limit))
  have hbody : Nests limit 0 (some <$> readBlock read) 0 fun body =>
      ∀ one ∈ body.elim [] Block.statements, Statement.Fits limit 1 one :=
    (nests_readBlock (nests_read limit)).bind fun _ hblock => .pure hblock
  exact hparameters.bind fun parameters => steps.readPromises.bind fun _ => (steps.isAt _).bind fun _ =>
    .either (hbody.bind (hbehind parameters _))
      (steps.expectSemicolon.bind fun _ => hbehind parameters _ none fun _ h => nomatch h)

theorem nests_readDeclaration :
    Nests limit 0 readDeclaration 0 fun found => ∀ item ∈ found, ItemFits limit item := by
  have steps := levelwise_nests limit
  refine steps.here.bind fun start => steps.readPromises.bind fun leading =>
    (nests_type (nests_read limit)).bind fun type => steps.expectName.bind fun name => ?_
  cases name with
  | none => exact steps.recoverItem.bind fun _ => .pure fun _ h => nomatch h
  | some name =>
      refine (steps.isAt _).bind fun _ => .either
        ((nests_readFunction _ _ _ name).bind fun item hitem => .pure fun other hother => ?_)
        ((nests_readInitialValue (nests_read limit)).bind fun value hvalue =>
          steps.expectSemicolon.bind fun _ => (steps.since _).bind fun _ =>
          .pure fun other hother => ?_)
      · exact Option.some.inj hother ▸ hitem
      · refine Option.some.inj hother ▸ itemFits_of_children fun child hchild => ?_
        obtain ⟨one, hone, rfl⟩ := List.mem_map.mp hchild
        exact hvalue one (Option.mem_toList.mp hone)

theorem nests_readItem :
    Nests limit 0 readItem 0 fun found => ∀ item ∈ found, ItemFits limit item := by
  have steps := levelwise_nests limit
  have hnone : ∀ item ∈ (none : Option Item), ItemFits limit item := fun _ h => nomatch h
  have hleaf : ∀ {item : Item}, (TreeNode.Item item).counted = [] →
      ∀ other ∈ some item, ItemFits limit other := by
    rintro item hleaf other ⟨⟩
    exact itemFits_of_children fun child hchild => by simp [hleaf] at hchild
  refine steps.inspect.bind fun next => ?_
  split
  · exact .pure hnone
  · refine steps.skip.bind fun _ => steps.expectName.bind fun name => ?_
    cases name with
    | none => exact .pure hnone
    | some name => exact steps.expectSemicolon.bind fun _ => .pure (hleaf rfl)
  · refine steps.skip.bind fun _ => steps.expectName.bind fun name => ?_
    cases name with
    | none => exact .pure hnone
    | some name =>
        exact (steps.expect _ _ rfl).bind fun _ => (nests_type (nests_read limit)).bind fun _ =>
          steps.expectSemicolon.bind fun _ => .pure (hleaf rfl)
  · refine steps.skip.bind fun _ => steps.expectName.bind fun name => ?_
    cases name with
    | none => exact .pure hnone
    | some name => exact steps.expectSemicolon.bind fun _ => .pure (hleaf rfl)
  · exact steps.skip.bind fun _ => .pure hnone
  · exact nests_readDeclaration
  · exact nests_readDeclaration
  · exact nests_readDeclaration
  · exact nests_readDeclaration
  · exact steps.here.bind fun _ => (steps.complain _ rfl).bind fun _ => steps.recoverItem.bind fun _ =>
      .pure hnone

theorem nests_readItemRound {items : Array Item} (hitems : ∀ item ∈ items.toList, ItemFits limit item) :
    Nests limit 0 (readItemRound items) 0
      (Round.holds (fun found => ∀ item ∈ found.toList, ItemFits limit item)
        fun found => ∀ item ∈ found.toList, ItemFits limit item) := by
  have steps := levelwise_nests limit
  refine steps.atEnd.bind fun _ => .either (.pure hitems) (steps.taken.bind fun _ =>
    nests_readItem.bind fun found hfound => steps.taken.bind fun _ =>
      .either (steps.skip.bind ?behind) ((steps.pure ()).bind ?behind))
  refine fun _ => ?_
  cases found with
  | none => exact .pure hitems
  | some item =>
      refine .pure fun other hmem => ?_
      rw [Array.toList_push, List.mem_append, List.mem_singleton] at hmem
      rcases hmem with hmem | rfl
      · exact hitems other hmem
      · exact hfound other rfl

theorem nests_readItems :
    Nests limit 0 readItems 0 fun found => ∀ item ∈ found, ItemFits limit item :=
  (Nests.rounds (fun found => ∀ item ∈ found.toList, ItemFits limit item) (by simp)
    fun _ => nests_readItemRound).bind fun _ hitems => .pure hitems

end Items

end Grammar

-- The calls of lowering that are open at a time are steps of one way down, so nesting that reading
-- allows is all that lowering has to bear.
theorem parse_bounds_descent {text : List Char} {fuel depth : Nat} {parsed : Parsed}
    (h : parse text fuel depth = .ok parsed) {item : Item} (hitem : item ∈ parsed.items)
    {count : Nat} {last : TreeNode} (path : (TreeNode.Item item).Path count last) : count ≤ depth := by
  unfold parse parseTokens at h
  cases hread : Grammar.readItems ⟨Text.width text, depth⟩ (.start (lex text) fuel) with
  | error reason =>
      rw [hread] at h
      cases h
  | ok found =>
      rw [hread] at h
      cases h
      have hfits := (Grammar.nests_readItems _ _ found.1 found.2 rfl (Nat.zero_le _) hread).2
      exact Nat.zero_add count ▸ hfits item hitem count last path

-- The right operand of this sum stands two counted steps down, and no way down has more of them.
theorem sum_bounds_descent :
    ∃ parsed, parse "int a = 1 + 2;".toList 40 2 = .ok parsed ∧
      ∃ item ∈ parsed.items, (∃ last, (TreeNode.Item item).Path 2 last) ∧
        ∀ count last, (TreeNode.Item item).Path count last → count ≤ 2 := by
  have hdeep : (parse "int a = 1 + 2;".toList 40 2).toOption.any (fun parsed =>
      (((parsed.items.map TreeNode.Item).flatMap TreeNode.counted).flatMap
        TreeNode.counted).isEmpty == false) = true := by
    decide +kernel
  cases hparsed : parse "int a = 1 + 2;".toList 40 2 with
  | error reason =>
      rw [hparsed] at hdeep
      cases hdeep
  | ok parsed =>
      rw [hparsed] at hdeep
      have hsome := List.isEmpty_eq_false_iff.mp (beq_iff_eq.mp hdeep)
      obtain ⟨last, hlast⟩ := List.exists_mem_of_ne_nil _ hsome
      obtain ⟨child, hchild, hlast⟩ := List.mem_flatMap.mp hlast
      obtain ⟨node, hnode, hchild⟩ := List.mem_flatMap.mp hchild
      obtain ⟨item, hitem, rfl⟩ := List.mem_map.mp hnode
      have path : (TreeNode.Item item).Path 2 last :=
        .Counted hchild (.Counted hlast (.Here last))
      exact ⟨parsed, rfl, item, hitem, ⟨last, path⟩, fun _ _ path =>
        parse_bounds_descent hparsed hitem path⟩

end EffectLint
