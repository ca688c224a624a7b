import EffectLint.Proofs.Grammar.Extended
import EffectLint.Proofs.Grammar.MovedExpression

/-!
Statements, items and whole modules read at other places. With the recursion of the grammar tied
up, a text whose tokens are moved is read as the tree of the original with its places moved.
-/

namespace EffectLint

namespace Grammar

open Parse Movable

variable {relocation : Relocation}

theorem sameAhead_relocate (offset : Nat → Nat) (tokens : List Token) :
    SameAhead tokens (tokens.map (Token.relocate offset)) := by
  induction tokens with
  | nil => exact .nil
  | cons token rest ih => exact .cons rfl fun _ => ih

theorem moves_looksLikeDeclaration :
    Moves relocation looksLikeDeclaration looksLikeDeclaration := by
  apply Moves.inspectThen
  intro next
  split
  · exact .pure trivial
  · apply Moves.beyond.bind
    intro tokens _
    have hahead : declarationAhead (move relocation tokens) = declarationAhead tokens :=
      (declarationAhead_same (sameAhead_relocate _ tokens)).symm
    rw [hahead]
    exact .pure trivial
  · exact .pure trivial

-- Whether a token was taken in between is the same on both sides.
theorem moves_skipWhere {β : Type} [Movable β] {before after : Nat} {next next' : Parse β}
    (hnext : Moves relocation next next') :
    Moves relocation (do
      if after = before then
        skip
      next) (do
      if move relocation after = move relocation before then
        skip
      next') := by
  have hsame : move relocation after = move relocation before ↔ after = before := Nat.add_right_cancel_iff
  simp only [hsame]
  exact .branch (Moves.skip.bind fun _ _ => hnext) hnext

section Statements

variable {self : Reading} (hself : ∀ nonterminal, Moves relocation (self nonterminal) (self nonterminal))

include hself

theorem moves_readInitialValue : Moves relocation (readInitialValue self) (readInitialValue self) :=
  (Moves.eat _).bind fun _ _ => .branch (moves_some (hself .Assignment)) (.pure nofun)

theorem moves_readLocal : Moves relocation (readLocal self) (readLocal self) := by
  apply Moves.here.bind
  intro span hspan
  apply (hself .Type).bind
  intro type _
  apply Moves.expectName.bind
  intro found _
  have hbehind : ∀ name : Name, Moves relocation (do
      let value ← readInitialValue self
      expectSemicolon
      return (⟨← since span.start, type, name, value⟩ : VariableTree)) (do
      let value ← readInitialValue self
      expectSemicolon
      return ⟨← since (relocation.offset span.start), move relocation type, move relocation name,
        value⟩) :=
    fun name => (moves_readInitialValue hself).bind fun _ _ => Moves.expectSemicolon.bind fun _ _ =>
      (Moves.since hspan).bind fun _ _ => .pure trivial
  cases found with
  | some name => exact hbehind name
  | none => exact Moves.here.bind fun span _ => hbehind ⟨"", span⟩

theorem moves_readEvaluate : Moves relocation (readEvaluate self) (readEvaluate self) :=
  (hself .Expression).bind fun _ _ => Moves.expectSemicolon.bind fun _ _ => .pure trivial

theorem moves_readBlockRound (statements : Array Statement) :
    Moves relocation (readBlockRound self statements)
      (readBlockRound self (move relocation statements)) := by
  refine (Moves.isAt _).bind fun _ _ => .branch (.pure trivial) <| Moves.atEnd.bind fun _ _ =>
    .branch (.pure trivial) <| Moves.taken.bind fun before _ => (hself .Statement).bind
    fun found _ => Moves.taken.bind fun after _ => moves_skipWhere ?_
  cases found with
  | none => exact .pure trivial
  | some statement =>
      show Moves relocation _ (pure (Round.Again (Array.push (move relocation statements) _)))
      rw [move_push]
      exact .pure trivial

theorem moves_readBlock : Moves relocation (readBlock self) (readBlock self) := by
  apply Moves.here.bind
  intro opened hopened
  apply (Moves.expect _ _).bind
  intro _ _
  apply (moves_gathered (moves_readBlockRound hself)).bind
  intro statements _
  apply (Moves.close _ _ _ opened).bind
  intro _ _
  apply (Moves.since hopened).bind
  intro span _
  have hblock : Block.mk (move relocation span) (move relocation statements).toList =
      move relocation (Block.mk span statements.toList) :=
    congrArg _ (move_toList statements)
  exact hblock ▸ .pure trivial

theorem moves_readCondition : Moves relocation (readCondition self) (readCondition self) :=
  Moves.here.bind fun opened _ => (Moves.expect _ _).bind fun _ _ => (hself .Expression).bind
    fun _ _ => (Moves.closeParen opened).bind fun _ _ => .pure trivial

theorem moves_readReturn {start : Nat} (hstart : relocation.starts start) :
    Moves relocation (readReturn self start) (readReturn self (relocation.offset start)) := by
  have hbehind : ∀ value : Option Expr, Moves relocation (do
      expectSemicolon
      return Statement.Return (← since start) value) (do
      expectSemicolon
      return Statement.Return (← since (relocation.offset start)) (move relocation value)) :=
    fun value => Moves.expectSemicolon.bind fun _ _ => (Moves.since hstart).bind fun _ _ => .pure trivial
  exact Moves.skip.bind fun _ _ => (Moves.isAt _).bind fun _ _ => .branch (hbehind none)
    ((moves_some (hself .Expression)).bind fun value _ => hbehind value)

theorem moves_readIf : Moves relocation (readIf self) (readIf self) := by
  refine Moves.skip.bind fun _ _ => (moves_readCondition hself).bind fun condition _ =>
    (hself .Statement).bind fun yes _ => ?_
  cases yes with
  | none => exact .pure nofun
  | some yes =>
      refine (Moves.eat _).bind fun _ _ => .branch ((hself .Statement).bind fun no _ => ?_)
        (.pure fun _ _ => trivial)
      cases no with
      | none => exact .pure nofun
      | some no => exact .pure fun _ _ => trivial

theorem moves_readWhile : Moves relocation (readWhile self) (readWhile self) := by
  refine Moves.skip.bind fun _ _ => (moves_readCondition hself).bind fun condition _ =>
    (hself .Statement).bind fun body _ => ?_
  cases body with
  | none => exact .pure nofun
  | some body => exact .pure fun _ _ => trivial

theorem moves_readForFirst : Moves relocation (readForFirst self) (readForFirst self) :=
  (Moves.eat _).bind fun _ _ => .branch (.pure nofun) <| moves_looksLikeDeclaration.bind fun _ _ =>
    .branch ((moves_readLocal hself).bind fun _ _ => .pure fun _ _ => trivial)
      ((moves_readEvaluate hself).bind fun _ _ => .pure fun _ _ => trivial)

theorem moves_readFor : Moves relocation (readFor self) (readFor self) := by
  refine Moves.skip.bind fun _ _ => Moves.here.bind fun opened _ => (Moves.expect _ _).bind fun _ _ =>
    (moves_readForFirst hself).bind fun first _ => (Moves.isAt _).bind fun _ _ => .branch
    (Moves.bind (.pure nofun) ?condition) ((moves_some (hself .Expression)).bind ?condition)
  refine fun condition _ => (Moves.expect _ _).bind fun _ _ => (Moves.isAt _).bind fun _ _ => .branch
    (Moves.bind (.pure nofun) ?step) ((moves_some (hself .Expression)).bind ?step)
  refine fun step _ => (Moves.closeParen opened).bind fun _ _ => (hself .Statement).bind fun body _ => ?_
  cases body with
  | none => exact .pure nofun
  | some body =>
      have hfor : Statement.For (move relocation first) (move relocation condition)
          (move relocation step) (move relocation body) =
          move relocation (Statement.For first condition step body) :=
        congrArg (Statement.For · _ _ _) (Statement.relocateOption_eq relocation.offset first).symm
      have hsome : Moves relocation (pure (some (Statement.For first condition step body)))
          (pure (some (move relocation (Statement.For first condition step body)))) :=
        .pure fun _ _ => trivial
      show Moves relocation _ (pure (some (Statement.For _ _ _ (move relocation body))))
      rwa [hfor]

theorem moves_readStatementHere : Moves relocation (readStatementHere self) (readStatementHere self) := by
  apply Moves.here.bind
  intro span hspan
  apply Moves.inspectThen
  intro next
  split
  · exact .pure nofun
  · apply (moves_readBlock hself).bind
    intro block _
    have hblock : Statement.Block (move relocation block).span (move relocation block).statements =
        move relocation (Statement.Block block.span block.statements) :=
      congrArg _ (Statement.relocateList_eq relocation.offset block.statements).symm
    have hsome : Moves relocation (pure (some (Statement.Block block.span block.statements)))
        (pure (some (move relocation (Statement.Block block.span block.statements)))) :=
      .pure fun _ _ => trivial
    exact hblock ▸ hsome
  · exact Moves.skip.bind fun _ _ => .pure fun _ _ => trivial
  · exact (moves_readReturn hself hspan).bind fun _ _ => .pure fun _ _ => trivial
  · exact moves_readIf hself
  · exact moves_readWhile hself
  · exact moves_readFor hself
  · exact moves_looksLikeDeclaration.bind fun _ _ =>
      .branch ((moves_readLocal hself).bind fun _ _ => .pure fun _ _ => trivial)
        ((moves_readEvaluate hself).bind fun _ _ => .pure fun _ _ => trivial)

theorem moves_readStatement : Moves relocation (readStatement self) (readStatement self) :=
  Moves.enter.bind fun _ _ => (moves_readStatementHere hself).bind fun _ hfound =>
    Moves.leave.bind fun _ _ => .pure hfound

theorem moves_production (nonterminal : Nonterminal) :
    Moves relocation (production self nonterminal) (production self nonterminal) := by
  cases nonterminal with
  | Expression => exact moves_readExpression hself
  | Assignment => exact moves_readAssignment hself
  | Conditional => exact moves_readConditional hself
  | Binary level => exact moves_readBinary hself level
  | Unary => exact moves_readUnary hself
  | «Type» => exact moves_readType hself
  | Statement => exact moves_readStatement hself

end Statements

theorem moves_readWithin (levels : Nat) (nonterminal : Nonterminal) :
    Moves relocation (readWithin levels nonterminal) (readWithin levels nonterminal) := by
  induction levels generalizing nonterminal with
  | zero =>
      intro limits limits' state state' hstate
      exact ⟨fun reason hrun => hrun, fun found after hrun => (by cases hrun)⟩
  | succ levels ih => exact moves_production ih nonterminal

theorem moves_read (nonterminal : Nonterminal) :
    Moves relocation (read nonterminal) (read nonterminal) := by
  intro limits limits' state state' hstate
  unfold read
  rw [hstate.fuel]
  exact moves_readWithin _ nonterminal limits limits' state state' hstate

theorem moves_readImport : Moves relocation readImport readImport := by
  refine Moves.skip.bind fun _ _ => Moves.expectName.bind fun name _ => ?_
  cases name with
  | none => exact .pure nofun
  | some name => exact Moves.expectSemicolon.bind fun _ _ => .pure fun _ _ => trivial

theorem moves_readAlias : Moves relocation readAlias readAlias := by
  refine Moves.skip.bind fun _ _ => Moves.expectName.bind fun name _ => ?_
  cases name with
  | none => exact .pure nofun
  | some name =>
      exact (Moves.expect _ _).bind fun _ _ => (moves_read .Type).bind fun _ _ =>
        Moves.expectSemicolon.bind fun _ _ => .pure fun _ _ => trivial

theorem moves_readClass : Moves relocation readClass readClass := by
  refine Moves.skip.bind fun _ _ => Moves.expectName.bind fun name _ => ?_
  cases name with
  | none => exact .pure nofun
  | some name => exact Moves.expectSemicolon.bind fun _ _ => .pure fun _ _ => trivial

theorem moves_readFunction {start : Nat} (hstart : relocation.starts start) (leading : Promises)
    (result : TypeTree) (name : Name) :
    Moves relocation (readFunction start leading result name)
      (readFunction (relocation.offset start) leading (move relocation result)
        (move relocation name)) := by
  refine (moves_readParameters moves_read).bind fun parameters _ => moves_readPromises.bind
    fun promises _ => (Moves.isAt _).bind fun _ _ => ?_
  have hbehind : ∀ body : Option Block, Moves relocation (do
      return Item.Function ⟨← since start, name, leading.both promises, result, parameters, body⟩) (do
      return Item.Function ⟨← since (relocation.offset start), move relocation name,
        leading.both promises, move relocation result, move relocation parameters,
        move relocation body⟩) :=
    fun body => (Moves.since hstart).bind fun _ _ => .pure trivial
  refine .branch ?_ (Moves.expectSemicolon.bind fun _ _ => hbehind none)
  simp only [map_eq_pure_bind, bind_assoc, pure_bind]
  exact (moves_readBlock moves_read).bind fun body _ => hbehind (some body)

theorem moves_readDeclaration : Moves relocation readDeclaration readDeclaration := by
  refine Moves.here.bind fun span hspan => moves_readPromises.bind fun leading _ =>
    (moves_read .Type).bind fun type _ => Moves.expectName.bind fun name _ => ?_
  cases name with
  | none => exact Moves.recoverItem.bind fun _ _ => .pure nofun
  | some name =>
      exact (Moves.isAt _).bind fun _ _ => .branch
        ((moves_readFunction hspan leading type name).bind fun _ _ => .pure fun _ _ => trivial)
        ((moves_readInitialValue moves_read).bind fun _ _ => Moves.expectSemicolon.bind fun _ _ =>
          (Moves.since hspan).bind fun _ _ => .pure fun _ _ => trivial)

theorem moves_readItem : Moves relocation readItem readItem := by
  apply Moves.inspectThen
  intro next
  split
  · exact .pure nofun
  · exact moves_readImport
  · exact moves_readAlias
  · exact moves_readClass
  · exact Moves.skip.bind fun _ _ => .pure nofun
  · exact moves_readDeclaration
  · exact moves_readDeclaration
  · exact moves_readDeclaration
  · exact moves_readDeclaration
  · exact Moves.here.bind fun _ hspan => (Moves.complain hspan).bind fun _ _ =>
      Moves.recoverItem.bind fun _ _ => .pure nofun

theorem moves_readItemRound (items : Array Item) :
    Moves relocation (readItemRound items) (readItemRound (move relocation items)) := by
  refine Moves.atEnd.bind fun _ _ => .branch (.pure trivial) <| Moves.taken.bind fun before _ =>
    moves_readItem.bind fun found _ => Moves.taken.bind fun after _ => moves_skipWhere ?_
  cases found with
  | none => exact .pure trivial
  | some item =>
      show Moves relocation _ (pure (Round.Again (Array.push (move relocation items) _)))
      rw [move_push]
      exact .pure trivial

theorem moves_readItems : Moves relocation readItems readItems := by
  apply (moves_gathered moves_readItemRound).bind
  intro items _
  rw [move_toList]
  exact .pure trivial

end Grammar

def Parsed.relocate (offset : Nat → Nat) (parsed : Parsed) : Parsed :=
  ⟨parsed.items.map (Item.relocate offset), parsed.diagnostics.map (Diagnostic.relocate offset)⟩

theorem Relocation.Moved.start (relocation : Relocation) {tokens : List Token} {textEnd : Nat}
    (hpassed : relocation.passed = 0) (hend : relocation.starts textEnd)
    (hstarts : ∀ token ∈ tokens, relocation.starts token.span.start) (fuel depth : Nat) :
    relocation.Moved ⟨textEnd, depth⟩ ⟨relocation.offset textEnd, depth⟩ (.start tokens fuel)
      (.start (tokens.map (Token.relocate relocation.offset)) fuel) where
  textEnd := rfl
  marksEnd := hend
  limit := rfl
  rest := rfl
  marks := hstarts
  taken := by rw [hpassed]; rfl
  lastEnd := by simp [ParseState.start]
  fuel := rfl
  depth := rfl
  complained := nofun
  lastComplaint := rfl
  diagnostics := Array.map_empty.symm

theorem parseTokens_relocate (relocation : Relocation) {tokens : List Token} {textEnd : Nat}
    (hpassed : relocation.passed = 0) (hend : relocation.starts textEnd)
    (hstarts : ∀ token ∈ tokens, relocation.starts token.span.start) (fuel depth : Nat) :
    parseTokens (tokens.map (Token.relocate relocation.offset)) (relocation.offset textEnd) fuel depth =
      (parseTokens tokens textEnd fuel depth).map (Parsed.relocate relocation.offset) := by
  have hstart := Relocation.Moved.start relocation hpassed hend hstarts fuel depth
  obtain ⟨herror, hok⟩ := Grammar.moves_readItems _ _ _ _ hstart
  unfold parseTokens
  cases hrun : Grammar.readItems ⟨textEnd, depth⟩ (.start tokens fuel) with
  | error reason =>
      rw [herror reason hrun]
      rfl
  | ok found =>
      obtain ⟨_, after', hrun', hafter⟩ := hok found.1 found.2 hrun
      rw [hrun']
      simp only [hafter.diagnostics]
      rfl

end EffectLint
