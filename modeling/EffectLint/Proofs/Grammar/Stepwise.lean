import EffectLint.Grammar.Item
import EffectLint.Proofs.Grammar.Listed
import EffectLint.Proofs.Grammar.Reads

/-!
The steps that reading is made of. A relation between computations that every step has with
itself, and that sequences and loops hand on from their parts, relates what each production makes
of two readings of the nonterminals.
-/

namespace EffectLint

namespace Parse

-- What can be seen without spending any of the budgets.
def glance {α : Type} (found : Nat → List Token → Nat → Nat → α) : Parse α := fun limits state =>
  .ok (found limits.textEnd state.rest state.taken state.lastEnd, state)

-- The steps that stay at the depth they start from. Past the next token they look in two places
-- only, and there no further than the statement goes.
structure Nearsighted (P : ∀ {α : Type}, Parse α → Parse α → Prop) : Prop where
  pure : ∀ {α : Type} (result : α), P (Pure.pure result : Parse α) (Pure.pure result)
  bind : ∀ {α β : Type} {first first' : Parse α} {next next' : α → Parse β},
    P first first' → (∀ found, P (next found) (next' found)) →
      P (first >>= next) (first' >>= next')
  here : P here here
  since : ∀ start, P (since start) (since start)
  atEnd : P atEnd atEnd
  taken : P taken taken
  inspect : P inspect inspect
  take : P take take
  -- nothing but errors is said
  report : ∀ diagnostic, diagnostic.isError = true → P (report diagnostic) (report diagnostic)
  complain : ∀ diagnostic, diagnostic.isError = true →
    P (complain diagnostic) (complain diagnostic)
  restoringDepth : ∀ {α : Type} {body body' : Parse α}, P body body' →
    P (restoringDepth body) (restoringDepth body')
  rounds : ∀ {σ α : Type} (first : σ) {round round' : σ → Parse (Round σ α)},
    (∀ state, P (round state) (round' state)) → P (rounds first round) (rounds first round')
  readConnective : P Grammar.readConnective Grammar.readConnective
  looksLikeDeclaration : P Grammar.looksLikeDeclaration Grammar.looksLikeDeclaration

-- Where both computations go the same way.
theorem branch {α : Type} {P : Parse α → Parse α → Prop} {yes yes' no no' : Parse α}
    (hyes : P yes yes') (hno : P no no') (found : Prop) [Decidable found] :
    P (if found then yes else no) (if found then yes' else no') := by
  by_cases h : found
  · rw [if_pos h, if_pos h]
    exact hyes
  · rw [if_neg h, if_neg h]
    exact hno

-- Whatever can be seen for free may be looked at, so every way of looking is a step.
section Glances

variable {P : ∀ {α : Type}, Parse α → Parse α → Prop}
  (pure : ∀ {α : Type} (result : α), P (Pure.pure result : Parse α) (Pure.pure result))
  (bind : ∀ {α β : Type} {first first' : Parse α} {next next' : α → Parse β},
    P first first' → (∀ found, P (next found) (next' found)) →
      P (first >>= next) (first' >>= next'))
  (inspect : P inspect inspect)
  (glance : ∀ {α : Type} (found : Nat → List Token → Nat → Nat → α), P (glance found) (glance found))

include glance

theorem here_of_glance : P here here := by
  have hglance : Parse.here = Parse.glance fun textEnd rest _ _ =>
      (rest.head?.map Token.span).getD (Span.emptyAt textEnd) := by
    funext limits state
    unfold Parse.here Parse.glance
    cases state.rest <;> rfl
  rw [hglance]
  exact glance _

theorem beyond_of_glance : P beyond beyond :=
  glance fun _ rest _ _ => rest.tail

include pure bind inspect

theorem readConnective_of_glance : P Grammar.readConnective Grammar.readConnective := by
  refine bind inspect fun next => ?_
  split
  case h_4 => exact bind (beyond_of_glance glance) fun _ => branch (pure _) (pure _) _
  all_goals exact pure _

theorem looksLikeDeclaration_of_glance :
    P Grammar.looksLikeDeclaration Grammar.looksLikeDeclaration := by
  refine bind inspect fun next => ?_
  split
  · exact pure _
  · exact bind (beyond_of_glance glance) fun _ => pure _
  · exact pure _

end Glances

structure Levelwise (P : ∀ {α : Type}, Parse α → Parse α → Prop) : Prop extends Nearsighted @P where
  glance : ∀ {α : Type} (found : Nat → List Token → Nat → Nat → α), P (glance found) (glance found)
  here := here_of_glance glance
  since start := glance fun _ _ _ lastEnd => (⟨start, max lastEnd start⟩ : Span)
  atEnd := glance fun _ rest _ _ => rest.isEmpty
  taken := glance fun _ _ taken _ => taken
  readConnective := readConnective_of_glance pure bind inspect glance
  looksLikeDeclaration := looksLikeDeclaration_of_glance pure bind inspect glance

-- Chains of operators go deeper link by link.
structure Climbing (P : ∀ {α : Type}, Parse α → Parse α → Prop) : Prop extends Nearsighted @P where
  enter : P enter enter
  leave : P leave leave

structure Stepwise (P : ∀ {α : Type}, Parse α → Parse α → Prop) : Prop
  extends Levelwise @P, Climbing @P

namespace Nearsighted

variable {P : ∀ {α : Type}, Parse α → Parse α → Prop} (steps : Nearsighted @P)

include steps

theorem skip : P skip skip :=
  steps.bind steps.take fun _ => steps.pure ()

theorem isAt (kind : TokenKind) : P (isAt kind) (isAt kind) :=
  steps.bind steps.inspect fun _ => steps.pure _

theorem eat (kind : TokenKind) : P (eat kind) (eat kind) :=
  steps.bind (steps.isAt kind) fun _ =>
    branch (steps.bind steps.skip fun _ => steps.pure true) (steps.pure false) _

theorem expect (kind : TokenKind) (missing : DiagnosticKind)
    (hmissing : missing.severity = .Error) :
    P (expect kind missing) (expect kind missing) :=
  steps.bind (steps.eat kind) fun _ => branch (steps.pure true)
    (steps.bind steps.here fun _ => steps.bind (steps.complain _ (beq_of_eq hmissing)) fun _ =>
      steps.pure false) _

theorem expectName : P expectName expectName :=
  steps.bind (steps.isAt .Identifier) fun _ => branch
    (steps.bind steps.here fun _ => steps.bind steps.take fun _ => steps.pure _)
    (steps.bind steps.here fun _ => steps.bind (steps.complain _ rfl) fun _ => steps.pure none) _

theorem close (sign : Sign) (missing : DiagnosticKind) (opening : String) (opened : Span)
    (hmissing : missing.severity = .Error) :
    P (close sign missing opening opened) (close sign missing opening opened) :=
  steps.bind (steps.eat (.Sign sign)) fun _ => branch (steps.pure ())
    (steps.bind steps.here fun _ => steps.report _ (beq_of_eq hmissing)) _

theorem closeParen (opened : Span) : P (closeParen opened) (closeParen opened) :=
  steps.close _ _ _ opened rfl

theorem recoverStatement : P recoverStatement recoverStatement := by
  refine steps.rounds () fun _ => steps.bind steps.inspect fun next => ?_
  split
  · exact steps.pure _
  · exact steps.bind steps.skip fun _ => steps.pure _
  · exact steps.pure _
  · exact steps.bind steps.skip fun _ => steps.pure _

theorem recoverItem : P recoverItem recoverItem := by
  refine steps.rounds () fun _ => steps.bind steps.inspect fun next => ?_
  split
  · exact steps.pure _
  · exact steps.bind steps.skip fun _ => branch (steps.pure _) (steps.pure _) _

theorem expectSemicolon : P expectSemicolon expectSemicolon :=
  steps.bind (steps.eat _) fun _ => branch (steps.pure ())
    (steps.bind steps.here fun _ => steps.bind (steps.complain _ rfl) fun _ => steps.recoverStatement) _

theorem readPromises : P Grammar.readPromises Grammar.readPromises :=
  steps.rounds _ fun _ => steps.bind (steps.eat _) fun _ => branch (steps.pure _)
    (steps.bind (steps.eat _) fun _ => branch (steps.pure _) (steps.pure _) _) _

theorem readBaseType : P Grammar.readBaseType Grammar.readBaseType := by
  refine steps.bind steps.here fun span => steps.bind steps.inspect fun next => ?_
  split
  · exact steps.bind steps.skip fun _ => steps.pure _
  · refine steps.bind steps.expectName fun name => ?_
    cases name <;> exact steps.pure _
  · exact steps.bind (steps.complain _ rfl) fun _ => steps.pure _

theorem readNew (start : Nat) : P (Grammar.readNew start) (Grammar.readNew start) := by
  refine steps.bind steps.skip fun _ => steps.bind (steps.eat _) fun _ => branch
    (steps.bind steps.here fun _ => steps.bind (steps.expect _ _ rfl) fun _ =>
      steps.bind (steps.close _ _ _ _ rfl) fun _ => steps.bind (steps.since start) fun _ =>
      steps.pure _) (steps.bind steps.expectName fun name => ?_) _
  cases name <;> exact steps.bind (steps.since start) fun _ => steps.pure _

theorem listed {α : Type} {item item' : Parse α} (hitem : P item item') :
    P (Parse.rounds #[] (Grammar.listRound item)) (Parse.rounds #[] (Grammar.listRound item')) :=
  steps.rounds _ fun _ => steps.bind (steps.isAt _) fun _ => branch (steps.pure _)
    (steps.bind steps.atEnd fun _ => branch (steps.pure _)
      (steps.bind hitem fun _ => steps.bind (steps.eat _) fun _ =>
        branch (steps.pure _) (steps.pure _) _) _) _

section Types

-- The only nonterminal in a type is a type.
variable {self self' : Reading} (htype : P (self .Type) (self' .Type))

include htype

theorem readParameter : P (Grammar.readParameter self) (Grammar.readParameter self') :=
  steps.bind (steps.eat _) fun _ => steps.bind htype fun _ =>
    steps.bind (steps.isAt _) fun _ => branch
      (steps.bind steps.expectName fun _ => steps.pure _)
      (steps.bind (steps.pure _) fun _ => steps.pure _) _

theorem readParameters : P (Grammar.readParameters self) (Grammar.readParameters self') :=
  steps.bind steps.here fun _ => steps.bind (steps.expect _ _ rfl) fun _ => branch
    (steps.bind (steps.listed (steps.readParameter htype)) fun _ =>
      steps.bind (steps.close _ _ _ _ rfl) fun _ => steps.pure _)
    (steps.pure _) _

theorem readBracketSuffix (start : Nat) (element : TypeTree) :
    P (Grammar.readBracketSuffix self start element)
      (Grammar.readBracketSuffix self' start element) :=
  steps.bind steps.here fun _ => steps.bind steps.skip fun _ => steps.bind (steps.eat _) fun _ =>
    branch (steps.bind (steps.since start) fun _ => steps.pure _)
      (steps.bind htype fun _ => steps.bind (steps.close _ _ _ _ rfl) fun _ =>
        steps.bind (steps.since start) fun _ => steps.pure _) _

theorem readCallableSuffix (start : Nat) (isDelegate : Bool) (result : TypeTree) :
    P (Grammar.readCallableSuffix self start isDelegate result)
      (Grammar.readCallableSuffix self' start isDelegate result) :=
  steps.bind steps.skip fun _ => steps.bind (steps.readParameters htype) fun _ =>
    steps.bind steps.readPromises fun _ => steps.bind (steps.since start) fun _ => steps.pure _

theorem readTypeSuffix (start : Nat) (type : TypeTree) :
    P (Grammar.readTypeSuffix self start type) (Grammar.readTypeSuffix self' start type) := by
  refine steps.bind steps.inspect fun next => ?_
  split
  · exact steps.bind steps.skip fun _ => steps.bind (steps.since start) fun _ => steps.pure _
  · exact steps.bind (steps.readBracketSuffix htype start type) fun _ => steps.pure _
  · exact steps.bind (steps.readCallableSuffix htype start false type) fun _ => steps.pure _
  · exact steps.bind (steps.readCallableSuffix htype start true type) fun _ => steps.pure _
  · exact steps.pure _

theorem readType : P (Grammar.readType self) (Grammar.readType self') :=
  steps.bind steps.here fun _ => steps.bind steps.readBaseType fun base => branch (steps.pure base)
    (steps.rounds base fun type => steps.readTypeSuffix htype _ type) _

end Types

section Productions

variable {self self' : Reading}
  (hself : ∀ nonterminal, P (self nonterminal) (self' nonterminal))

include hself

theorem readArguments : P (Grammar.readArguments self) (Grammar.readArguments self') :=
  steps.bind steps.here fun _ => steps.bind steps.skip fun _ =>
    steps.bind (steps.listed (hself .Assignment)) fun _ =>
    steps.bind (steps.closeParen _) fun _ => steps.pure _

theorem readParen (start : Nat) (opened : Span) :
    P (Grammar.readParen self start opened) (Grammar.readParen self' start opened) :=
  steps.bind (hself .Expression) fun _ => steps.bind (steps.closeParen opened) fun _ =>
    steps.bind (steps.since start) fun _ => steps.pure _

theorem readAssert (start : Nat) :
    P (Grammar.readAssert self start) (Grammar.readAssert self' start) := by
  refine steps.bind steps.here fun opened => steps.bind (steps.expect _ _ rfl) fun _ =>
    steps.bind (hself .Assignment) fun condition => steps.bind (steps.eat _) fun more => ?_
  cases more with
  | true =>
      exact steps.bind (steps.bind (hself .Assignment) fun _ => steps.pure _) fun _ =>
        steps.bind (steps.closeParen opened) fun _ => steps.bind (steps.since start) fun _ =>
        steps.pure _
  | false =>
      exact steps.bind (steps.pure none) fun _ =>
        steps.bind (steps.closeParen opened) fun _ => steps.bind (steps.since start) fun _ =>
        steps.pure _

theorem readDeclare (start : Nat) :
    P (Grammar.readDeclare self start) (Grammar.readDeclare self' start) := by
  refine steps.bind steps.expectName fun name => ?_
  cases name with
  | none => exact steps.bind (steps.since start) fun _ => steps.pure _
  | some name =>
      exact steps.bind (steps.expect _ _ rfl) fun _ => steps.bind (hself .Assignment) fun _ =>
        steps.bind (steps.since start) fun _ => steps.pure _

theorem readTraits (start : Nat) :
    P (Grammar.readTraits self start) (Grammar.readTraits self' start) := by
  refine steps.bind steps.here fun opened => steps.bind (steps.expect _ _ rfl) fun _ =>
    steps.bind steps.expectName fun trait => ?_
  -- what comes behind the name of the trait does not depend on how its name was read
  have hbehind : ∀ known : Bool, P (do
      let _ ← Parse.expect (.Sign .Comma) .UnexpectedToken
      let operand ← self .Assignment
      Parse.closeParen opened
      let span ← Parse.since start
      return if known then Expr.Compiles span operand else .Error span) (do
      let _ ← Parse.expect (.Sign .Comma) .UnexpectedToken
      let operand ← self' .Assignment
      Parse.closeParen opened
      let span ← Parse.since start
      return if known then Expr.Compiles span operand else .Error span) := fun known =>
    steps.bind (steps.expect _ _ rfl) fun _ => steps.bind (hself .Assignment) fun _ =>
      steps.bind (steps.closeParen opened) fun _ => steps.bind (steps.since start) fun _ =>
      steps.pure _
  cases trait with
  | none => exact steps.bind (steps.pure false) hbehind
  | some name =>
      exact branch (steps.bind (steps.pure true) hbehind)
        (steps.bind (steps.complain _ rfl) fun _ => steps.bind (steps.pure false) hbehind) _

theorem readPrimary : P (Grammar.readPrimary self) (Grammar.readPrimary self') := by
  refine steps.bind steps.here fun span => steps.bind steps.inspect fun next => ?_
  have htaken : ∀ {α : Type} (node : Span → α), P (do
      Parse.skip
      return node (← Parse.since span.start)) (do
      Parse.skip
      return node (← Parse.since span.start)) := fun node =>
    steps.bind steps.skip fun _ => steps.bind (steps.since _) fun _ => steps.pure _
  split
  · exact steps.bind (steps.complain _ rfl) fun _ => steps.pure _
  · exact steps.bind steps.take fun _ => steps.bind (steps.since _) fun _ => steps.pure _
  · exact steps.bind steps.take fun _ => branch
      (steps.bind (steps.since _) fun _ => steps.pure _)
      (steps.bind (steps.complain _ rfl) fun _ => steps.bind (steps.since _) fun _ => steps.pure _) _
  · exact steps.bind steps.take fun _ => steps.bind (steps.since _) fun _ => steps.pure _
  · exact htaken fun place => Expr.Boolean place true
  · exact htaken fun place => Expr.Boolean place false
  · exact htaken fun place => Expr.Null place
  · exact steps.bind steps.skip fun _ => steps.readParen hself _ span
  · exact steps.bind steps.skip fun _ => steps.bind (steps.readArguments hself) fun _ =>
      steps.bind (steps.since _) fun _ => steps.pure _
  · exact steps.bind steps.skip fun _ => steps.readAssert hself _
  · exact steps.bind steps.skip fun _ => steps.readDeclare hself _
  · exact steps.bind steps.skip fun _ => steps.readTraits hself _
  · exact steps.bind (steps.complain _ rfl) fun _ => steps.pure _

theorem readMember (start : Nat) (container : Expr) :
    P (Grammar.readMember self start container) (Grammar.readMember self' start container) := by
  refine steps.bind steps.expectName fun name => ?_
  cases name with
  | none => exact steps.bind (steps.since start) fun _ => steps.pure _
  | some name =>
      refine branch (steps.bind (steps.isAt _) ?behind) (steps.bind (steps.pure false) ?behind) _
      refine fun isCall => branch (steps.bind steps.here fun opened =>
        steps.bind (steps.readArguments hself) fun arguments => ?_) (steps.bind (steps.complain _ rfl) fun _ =>
          steps.bind (steps.since start) fun _ => steps.pure _) _
      split
      · exact steps.bind (steps.since start) fun _ => steps.pure _
      · exact steps.bind (steps.since _) fun _ => steps.bind (steps.complain _ rfl) fun _ =>
          steps.bind (steps.since start) fun _ => steps.pure _

theorem readCast (start : Nat) : P (Grammar.readCast self start) (Grammar.readCast self' start) :=
  steps.bind steps.skip fun _ => steps.bind steps.here fun _ => steps.bind (steps.expect _ _ rfl) fun _ =>
    steps.bind (hself .Type) fun _ => steps.bind (steps.closeParen _) fun _ =>
    steps.bind (hself .Unary) fun _ => steps.bind (steps.since start) fun _ => steps.pure _

theorem readInitialValue :
    P (Grammar.readInitialValue self) (Grammar.readInitialValue self') :=
  steps.bind (steps.eat _) fun _ => branch
    (steps.bind (hself .Assignment) fun _ => steps.pure _) (steps.pure _) _

theorem readLocal : P (Grammar.readLocal self) (Grammar.readLocal self') := by
  refine steps.bind steps.here fun start => steps.bind (hself .Type) fun type =>
    steps.bind steps.expectName fun name => ?_
  have hbehind : ∀ name : Name, P (do
      let value ← Grammar.readInitialValue self
      Parse.expectSemicolon
      return (⟨← Parse.since start.start, type, name, value⟩ : VariableTree)) (do
      let value ← Grammar.readInitialValue self'
      Parse.expectSemicolon
      return (⟨← Parse.since start.start, type, name, value⟩ : VariableTree)) := fun name =>
    steps.bind (steps.readInitialValue hself) fun _ => steps.bind steps.expectSemicolon fun _ =>
      steps.bind (steps.since _) fun _ => steps.pure _
  cases name with
  | none => exact steps.bind steps.here fun _ => steps.bind (steps.pure _) hbehind
  | some name => exact steps.bind (steps.pure _) hbehind

theorem readEvaluate : P (Grammar.readEvaluate self) (Grammar.readEvaluate self') :=
  steps.bind (hself .Expression) fun _ => steps.bind steps.expectSemicolon fun _ => steps.pure _

theorem readBlockRound (statements : Array Statement) :
    P (Grammar.readBlockRound self statements) (Grammar.readBlockRound self' statements) := by
  refine steps.bind (steps.isAt _) fun _ => branch (steps.pure _)
    (steps.bind steps.atEnd fun _ => branch (steps.pure _) (steps.bind steps.taken fun _ =>
      steps.bind (hself .Statement) fun statement => steps.bind steps.taken fun _ =>
      branch (steps.bind steps.skip ?behind) (steps.bind (steps.pure ()) ?behind) _) _) _
  exact fun _ => by cases statement <;> exact steps.pure _

theorem readBlock : P (Grammar.readBlock self) (Grammar.readBlock self') :=
  steps.bind steps.here fun _ => steps.bind (steps.expect _ _ rfl) fun _ =>
    steps.bind (steps.rounds _ fun statements => steps.readBlockRound hself statements) fun _ =>
    steps.bind (steps.close _ _ _ _ rfl) fun _ => steps.bind (steps.since _) fun _ => steps.pure _

theorem readCondition : P (Grammar.readCondition self) (Grammar.readCondition self') :=
  steps.bind steps.here fun _ => steps.bind (steps.expect _ _ rfl) fun _ =>
    steps.bind (hself .Expression) fun _ => steps.bind (steps.closeParen _) fun _ => steps.pure _

theorem readReturn (start : Nat) :
    P (Grammar.readReturn self start) (Grammar.readReturn self' start) := by
  refine steps.bind steps.skip fun _ => steps.bind (steps.isAt _) fun _ => branch
    (steps.bind (steps.pure none) ?behind)
    (steps.bind (steps.bind (hself .Expression) fun _ => steps.pure _) ?behind) _
  exact fun _ => steps.bind steps.expectSemicolon fun _ => steps.bind (steps.since start) fun _ =>
    steps.pure _

theorem readIf : P (Grammar.readIf self) (Grammar.readIf self') := by
  refine steps.bind steps.skip fun _ => steps.bind (steps.readCondition hself) fun condition =>
    steps.bind (hself .Statement) fun yes => ?_
  cases yes with
  | none => exact steps.pure _
  | some yes =>
      refine steps.bind (steps.eat _) fun _ => branch
        (steps.bind (hself .Statement) fun no => ?_) (steps.pure _) _
      cases no <;> exact steps.pure _

theorem readWhile : P (Grammar.readWhile self) (Grammar.readWhile self') := by
  refine steps.bind steps.skip fun _ => steps.bind (steps.readCondition hself) fun condition =>
    steps.bind (hself .Statement) fun body => ?_
  cases body <;> exact steps.pure _

theorem readForFirst : P (Grammar.readForFirst self) (Grammar.readForFirst self') :=
  steps.bind (steps.eat _) fun _ => branch (steps.pure _)
    (steps.bind steps.looksLikeDeclaration fun _ => branch
      (steps.bind (steps.readLocal hself) fun _ => steps.pure _)
      (steps.bind (steps.readEvaluate hself) fun _ => steps.pure _) _) _

theorem readFor : P (Grammar.readFor self) (Grammar.readFor self') := by
  refine steps.bind steps.skip fun _ => steps.bind steps.here fun _ =>
    steps.bind (steps.expect _ _ rfl) fun _ => steps.bind (steps.readForFirst hself) fun _ =>
    steps.bind (steps.isAt _) fun _ => branch (steps.bind (steps.pure none) ?condition)
      (steps.bind (steps.bind (hself .Expression) fun _ => steps.pure _) ?condition) _
  refine fun _ => steps.bind (steps.expect _ _ rfl) fun _ => steps.bind (steps.isAt _) fun _ =>
    branch (steps.bind (steps.pure none) ?step)
      (steps.bind (steps.bind (hself .Expression) fun _ => steps.pure _) ?step) _
  refine fun _ => steps.bind (steps.closeParen _) fun _ => steps.bind (hself .Statement)
    fun body => ?_
  cases body <;> exact steps.pure _

theorem readStatementHere :
    P (Grammar.readStatementHere self) (Grammar.readStatementHere self') := by
  refine steps.bind steps.here fun span => steps.bind steps.inspect fun next => ?_
  split
  · exact steps.pure _
  · exact steps.bind (steps.readBlock hself) fun _ => steps.pure _
  · exact steps.bind steps.skip fun _ => steps.pure _
  · exact steps.bind (steps.readReturn hself _) fun _ => steps.pure _
  · exact steps.readIf hself
  · exact steps.readWhile hself
  · exact steps.readFor hself
  · exact steps.bind steps.looksLikeDeclaration fun _ => branch
      (steps.bind (steps.readLocal hself) fun _ => steps.pure _)
      (steps.bind (steps.readEvaluate hself) fun _ => steps.pure _) _

end Productions

section Items

variable (hread : ∀ nonterminal, P (Grammar.read nonterminal) (Grammar.read nonterminal))

theorem readImport : P Grammar.readImport Grammar.readImport := by
  refine steps.bind steps.skip fun _ => steps.bind steps.expectName fun name => ?_
  cases name with
  | none => exact steps.pure _
  | some name => exact steps.bind steps.expectSemicolon fun _ => steps.pure _

theorem readClass : P Grammar.readClass Grammar.readClass := by
  refine steps.bind steps.skip fun _ => steps.bind steps.expectName fun name => ?_
  cases name with
  | none => exact steps.pure _
  | some name => exact steps.bind steps.expectSemicolon fun _ => steps.pure _

include hread

theorem readAlias : P Grammar.readAlias Grammar.readAlias := by
  refine steps.bind steps.skip fun _ => steps.bind steps.expectName fun name => ?_
  cases name with
  | none => exact steps.pure _
  | some name =>
      exact steps.bind (steps.expect _ _ rfl) fun _ => steps.bind (hread .Type) fun _ =>
        steps.bind steps.expectSemicolon fun _ => steps.pure _

theorem readFunction (start : Nat) (leading : Promises) (result : TypeTree) (name : Name) :
    P (Grammar.readFunction start leading result name)
      (Grammar.readFunction start leading result name) := by
  have hbehind : ∀ parameters promises (body : Option Block), P (do
      return Item.Function ⟨← Parse.since start, name, promises, result, parameters, body⟩) (do
      return Item.Function ⟨← Parse.since start, name, promises, result, parameters, body⟩) :=
    fun parameters promises body => steps.bind (steps.since start) fun _ => steps.pure _
  refine steps.bind (steps.readParameters (hread .Type)) fun _ => steps.bind steps.readPromises fun _ =>
    steps.bind (steps.isAt _) fun _ => branch
      (steps.bind (steps.bind (steps.readBlock hread) fun _ => steps.pure _) ?_)
      (steps.bind steps.expectSemicolon fun _ => steps.bind (steps.pure none) ?_) _
  · exact hbehind _ _
  · exact hbehind _ _

theorem readDeclaration : P Grammar.readDeclaration Grammar.readDeclaration := by
  refine steps.bind steps.here fun _ => steps.bind steps.readPromises fun _ =>
    steps.bind (hread .Type) fun _ => steps.bind steps.expectName fun name => ?_
  cases name with
  | none => exact steps.bind steps.recoverItem fun _ => steps.pure _
  | some name =>
      exact steps.bind (steps.isAt _) fun _ => branch
        (steps.bind (steps.readFunction hread _ _ _ name) fun _ => steps.pure _)
        (steps.bind (steps.readInitialValue hread) fun _ => steps.bind steps.expectSemicolon fun _ =>
          steps.bind (steps.since _) fun _ => steps.pure _) _

theorem readItem : P Grammar.readItem Grammar.readItem := by
  refine steps.bind steps.inspect fun next => ?_
  split
  · exact steps.pure _
  · exact steps.readImport
  · exact steps.readAlias hread
  · exact steps.readClass
  · exact steps.bind steps.skip fun _ => steps.pure _
  · exact steps.readDeclaration hread
  · exact steps.readDeclaration hread
  · exact steps.readDeclaration hread
  · exact steps.readDeclaration hread
  · exact steps.bind steps.here fun _ => steps.bind (steps.complain _ rfl) fun _ =>
      steps.bind steps.recoverItem fun _ => steps.pure _

theorem readItemRound (items : Array Item) :
    P (Grammar.readItemRound items) (Grammar.readItemRound items) := by
  refine steps.bind steps.atEnd fun _ => branch (steps.pure _) (steps.bind steps.taken fun _ =>
    steps.bind (steps.readItem hread) fun item => steps.bind steps.taken fun _ =>
    branch (steps.bind steps.skip ?behind) (steps.bind (steps.pure ()) ?behind) _) _
  exact fun _ => by cases item <;> exact steps.pure _

theorem readItems : P Grammar.readItems Grammar.readItems :=
  steps.bind (steps.rounds _ fun items => steps.readItemRound hread items) fun _ => steps.pure _

end Items

end Nearsighted

namespace Climbing

variable {P : ∀ {α : Type}, Parse α → Parse α → Prop} (steps : Climbing @P)

include steps

section Productions

variable {self self' : Reading}
  (hself : ∀ nonterminal, P (self nonterminal) (self' nonterminal))

include hself

theorem readAttachment (start : Nat) (operand : Expr) :
    P (Grammar.readAttachment self start operand) (Grammar.readAttachment self' start operand) := by
  refine steps.bind steps.inspect fun next => branch (steps.bind steps.enter fun _ =>
    steps.bind steps.inspect fun next => ?_) (steps.pure _) _
  split
  · exact steps.bind (steps.readArguments hself) fun _ => steps.bind (steps.since start) fun _ =>
      steps.pure _
  · exact steps.bind steps.here fun _ => steps.bind steps.skip fun _ =>
      steps.bind (hself .Assignment) fun _ => steps.bind (steps.close _ _ _ _ rfl) fun _ =>
      steps.bind (steps.since start) fun _ => steps.pure _
  · exact steps.bind steps.skip fun _ => steps.bind (steps.since start) fun _ => steps.pure _
  · exact steps.bind steps.skip fun _ => steps.bind (steps.since start) fun _ => steps.pure _
  · exact steps.bind steps.skip fun _ => steps.bind (steps.readMember hself start operand) fun _ =>
      steps.pure _
  · exact steps.pure _

theorem readAttached : P (Grammar.readAttached self) (Grammar.readAttached self') :=
  steps.restoringDepth (steps.bind steps.here fun _ => steps.bind (steps.readPrimary hself)
    fun operand => steps.rounds operand fun operand => steps.readAttachment hself _ operand)

theorem readPower : P (Grammar.readPower self) (Grammar.readPower self') :=
  steps.bind steps.here fun _ => steps.bind (steps.readAttached hself) fun _ =>
    steps.bind (steps.eat _) fun _ => branch
      (steps.bind (hself .Unary) fun _ => steps.bind (steps.since _) fun _ => steps.pure _)
      (steps.pure _) _

theorem readUnary : P (Grammar.readUnary self) (Grammar.readUnary self') := by
  refine steps.bind steps.enter fun _ => steps.bind steps.here fun _ =>
    steps.bind steps.inspect fun next => ?_
  have hbehind : ∀ unary : Expr, P (do Parse.leave; return unary) (do Parse.leave; return unary) :=
    fun unary => steps.bind steps.leave fun _ => steps.pure unary
  split
  · exact steps.bind (steps.readCast hself _) hbehind
  · exact steps.bind (steps.readNew _) hbehind
  · split
    · exact steps.bind steps.skip fun _ => steps.bind (hself .Unary) fun _ =>
        steps.bind (steps.since _) fun _ => steps.bind (steps.pure _) hbehind
    · exact steps.bind (steps.readPower hself) hbehind

theorem readLink (level start : Nat) (left : Expr) :
    P (Grammar.readLink self level start left) (Grammar.readLink self' level start left) := by
  refine steps.bind steps.readConnective fun found => ?_
  cases found with
  | none => exact steps.pure _
  | some op =>
      refine branch (steps.pure _) (steps.bind steps.enter fun _ => steps.bind steps.skip fun _ =>
        branch (steps.bind steps.skip ?behind) (steps.bind (steps.pure ()) ?behind) _) _
      exact fun _ => steps.bind (hself _) fun _ => steps.bind (steps.since start) fun _ =>
        steps.pure _

theorem readBinary (level : Nat) :
    P (Grammar.readBinary self level) (Grammar.readBinary self' level) :=
  steps.restoringDepth (steps.bind steps.here fun _ => steps.bind (hself .Unary) fun first =>
    steps.rounds first fun left => steps.readLink hself level _ left)

theorem readConditional : P (Grammar.readConditional self) (Grammar.readConditional self') :=
  steps.bind steps.here fun _ => steps.bind (hself _) fun _ => steps.bind (steps.eat _) fun _ =>
    branch (steps.bind steps.enter fun _ => steps.bind (hself .Expression) fun _ =>
      steps.bind (steps.expect _ _ rfl) fun _ => steps.bind (hself .Conditional) fun _ =>
      steps.bind steps.leave fun _ => steps.bind (steps.since _) fun _ => steps.pure _)
      (steps.pure _) _

theorem readAssignment : P (Grammar.readAssignment self) (Grammar.readAssignment self') := by
  refine steps.bind steps.here fun _ => steps.bind (hself .Conditional) fun target =>
    steps.bind steps.inspect fun next => ?_
  split
  · exact steps.pure _
  · exact steps.bind steps.skip fun _ => steps.bind steps.enter fun _ =>
      steps.bind (hself .Assignment) fun _ => steps.bind steps.leave fun _ =>
      steps.bind (steps.since _) fun _ => steps.pure _

theorem readCommaLink (start : Nat) (first : Expr) :
    P (Grammar.readCommaLink self start first) (Grammar.readCommaLink self' start first) :=
  steps.bind (steps.eat _) fun _ => branch
    (steps.bind steps.enter fun _ => steps.bind (hself .Assignment) fun _ =>
      steps.bind (steps.since start) fun _ => steps.pure _) (steps.pure _) _

theorem readExpression : P (Grammar.readExpression self) (Grammar.readExpression self') :=
  steps.restoringDepth (steps.bind steps.here fun _ => steps.bind (hself .Assignment) fun first =>
    steps.rounds first fun first => steps.readCommaLink hself _ first)

theorem readStatement : P (Grammar.readStatement self) (Grammar.readStatement self') :=
  steps.bind steps.enter fun _ => steps.bind (steps.readStatementHere hself) fun _ =>
    steps.bind steps.leave fun _ => steps.pure _

theorem production : ∀ nonterminal,
    P (Grammar.production self nonterminal) (Grammar.production self' nonterminal)
  | .Expression => steps.readExpression hself
  | .Assignment => steps.readAssignment hself
  | .Conditional => steps.readConditional hself
  | .Binary level => steps.readBinary hself level
  | .Unary => steps.readUnary hself
  | .Type => steps.readType (hself .Type)
  | .Statement => steps.readStatement hself

end Productions

-- Nonterminals that may nest deeper are read alike, where nothing is lost by giving up early.
theorem readWithin (hgivesUp : ∀ {α : Type} (body : Parse α), P (fun _ _ => .error .Fuel) body)
    {low high : Nat} (hlevels : low ≤ high) (nonterminal : Nonterminal) :
    P (Grammar.readWithin low nonterminal) (Grammar.readWithin high nonterminal) := by
  induction low generalizing high nonterminal with
  | zero => exact hgivesUp _
  | succ low ih =>
      obtain ⟨high, rfl⟩ : ∃ fewer, high = fewer + 1 := ⟨high - 1, by omega⟩
      exact steps.production (fun inner => ih (by omega) inner) nonterminal

end Climbing

end Parse

end EffectLint
