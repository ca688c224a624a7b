import EffectLint.Proofs.Grammar.Listed
import EffectLint.Proofs.Grammar.Relocation

/-!
Types and expressions read at other places. Each production hands on what it reads, and the places
that it compares are those of tokens that it has seen.
-/

namespace EffectLint

namespace Grammar

open Parse Movable

variable {relocation : Relocation}

theorem moves_readPromises : Moves relocation readPromises readPromises := by
  apply Moves.rounds trivial
  intro promises _
  exact (Moves.eat _).bind fun _ _ => .branch (.pure trivial)
    ((Moves.eat _).bind fun _ _ => .branch (.pure trivial) (.pure trivial))

theorem moves_readBaseType : Moves relocation readBaseType readBaseType := by
  apply Moves.here.bind
  intro span hspan
  apply Moves.inspectThen
  intro next
  split
  · exact Moves.skip.bind fun _ _ => .pure trivial
  · apply Moves.expectName.bind
    intro name hname
    cases name with
    | none => exact .pure trivial
    | some name => exact .pure trivial
  · exact (Moves.complain hspan).bind fun _ _ => .pure trivial

theorem isError_relocate (offset : Nat → Nat) (type : TypeTree) :
    (type.relocate offset).isError = type.isError := by
  cases type <;> rfl

theorem move_nothing {α : Type} [Movable α] : move relocation (#[] : Array α) = #[] :=
  Array.map_empty

theorem move_push {α : Type} [Movable α] (found : Array α) (one : α) :
    (move relocation found).push (move relocation one) = move relocation (found.push one) :=
  Array.map_push.symm

theorem moves_gathered {α β : Type} [Movable α] [Movable β]
    {round round' : Array α → Parse (Round (Array α) β)}
    (hround : ∀ found, Moves relocation (round found) (round' (move relocation found))) :
    Moves relocation (rounds #[] round) (rounds #[] round') := by
  have hrounds : Moves relocation (rounds #[] round) (rounds (move relocation #[]) round') :=
    .rounds trivial fun found _ => hround found
  rwa [move_nothing] at hrounds

theorem moves_listed {α : Type} [Movable α] {item item' : Parse α} (hitem : Moves relocation item item') :
    Moves relocation (rounds #[] (listRound item)) (rounds #[] (listRound item')) := by
  refine moves_gathered fun found => (Moves.isAt _).bind fun _ _ => .branch (.pure trivial) <|
    Moves.atEnd.bind fun _ _ => .branch (.pure trivial) <| hitem.bind fun one _ => ?_
  rw [move_push]
  exact (Moves.eat _).bind fun _ _ => .branch (.pure trivial) (.pure trivial)

theorem move_toList {α : Type} [Movable α] (found : Array α) :
    (move relocation found).toList = move relocation found.toList :=
  Array.toList_map

section Types

variable {self : Reading} (hself : ∀ nonterminal, Moves relocation (self nonterminal) (self nonterminal))

include hself

theorem moves_readParameter : Moves relocation (readParameter self) (readParameter self) := by
  apply (Moves.eat _).bind
  intro isRef _
  apply (hself .Type).bind
  intro type _
  apply (Moves.isAt _).bind
  intro _ _
  apply Moves.branch
  · exact Moves.expectName.bind fun _ _ => .pure trivial
  · exact Moves.bind (.pure nofun) fun _ _ => .pure trivial

theorem moves_readParameters : Moves relocation (readParameters self) (readParameters self) := by
  apply Moves.here.bind
  intro opened _
  refine (Moves.expect _ _).bind fun _ _ => .branch ?_ (.pure trivial)
  apply (moves_listed (moves_readParameter hself)).bind
  intro parameters _
  apply (Moves.close _ _ _ opened).bind
  intro _ _
  rw [move_toList]
  exact .pure trivial

theorem moves_readBracketSuffix {start : Nat} (hstart : relocation.starts start) (element : TypeTree) :
    Moves relocation (readBracketSuffix self start element)
      (readBracketSuffix self (relocation.offset start) (move relocation element)) := by
  apply Moves.here.bind
  intro opened _
  apply Moves.skip.bind
  intro _ _
  refine (Moves.eat _).bind fun _ _ => .branch ?_ ?_
  · exact (Moves.since hstart).bind fun _ _ => .pure trivial
  · exact (hself .Type).bind fun key _ => (Moves.close _ _ _ opened).bind fun _ _ =>
      (Moves.since hstart).bind fun _ _ => .pure trivial

theorem moves_readCallableSuffix {start : Nat} (hstart : relocation.starts start) (isDelegate : Bool)
    (result : TypeTree) :
    Moves relocation (readCallableSuffix self start isDelegate result)
      (readCallableSuffix self (relocation.offset start) isDelegate (move relocation result)) := by
  apply Moves.skip.bind
  intro _ _
  apply (moves_readParameters hself).bind
  intro parameters _
  apply moves_readPromises.bind
  intro promises _
  apply (Moves.since hstart).bind
  intro span _
  have hcallable : TypeTree.Callable (move relocation span) isDelegate promises
      (move relocation result) (move relocation parameters) =
      move relocation (TypeTree.Callable span isDelegate promises result parameters) := by
    show _ = TypeTree.Callable _ _ _ _ (TypeTree.relocateParameters _ parameters)
    rw [TypeTree.relocateParameters_eq]
    rfl
  exact hcallable ▸ .pure trivial

theorem moves_readTypeSuffix {start : Nat} (hstart : relocation.starts start) (type : TypeTree) :
    Moves relocation (readTypeSuffix self start type)
      (readTypeSuffix self (relocation.offset start) (move relocation type)) := by
  apply Moves.inspectThen
  intro next
  split
  · exact Moves.skip.bind fun _ _ => (Moves.since hstart).bind fun _ _ => .pure trivial
  · exact (moves_readBracketSuffix hself hstart type).bind fun _ _ => .pure trivial
  · exact (moves_readCallableSuffix hself hstart false type).bind fun _ _ => .pure trivial
  · exact (moves_readCallableSuffix hself hstart true type).bind fun _ _ => .pure trivial
  · exact .pure trivial

theorem moves_readType : Moves relocation (readType self) (readType self) := by
  apply Moves.here.bind
  intro span hspan
  apply moves_readBaseType.bind
  intro base _
  have herror : (move relocation base).isError = base.isError := isError_relocate _ base
  rw [herror]
  exact .branch (.pure trivial)
    (.rounds trivial fun type _ => moves_readTypeSuffix hself hspan type)

end Types

theorem moves_readConnective : Moves relocation readConnective readConnective := by
  apply Moves.inspectThen
  intro next
  split
  case h_4 =>
    apply Moves.beyond.bind
    intro tokens _
    have hkind : (move relocation tokens).head?.map Token.kind = tokens.head?.map Token.kind := by
      cases tokens <;> rfl
    rw [hkind]
    exact .branch (.pure trivial) (.pure trivial)
  all_goals exact .pure trivial

theorem moves_readNew {start : Nat} (hstart : relocation.starts start) :
    Moves relocation (readNew start) (readNew (relocation.offset start)) := by
  apply Moves.skip.bind
  intro _ _
  refine (Moves.eat _).bind fun _ _ => .branch ?_ ?_
  · exact Moves.here.bind fun opened _ => (Moves.expect _ _).bind fun _ _ =>
      (Moves.close _ _ _ opened).bind fun _ _ => (Moves.since hstart).bind fun _ _ => .pure trivial
  · apply Moves.expectName.bind
    intro name _
    cases name with
    | none => exact (Moves.since hstart).bind fun _ _ => .pure trivial
    | some name => exact (Moves.since hstart).bind fun _ _ => .pure trivial

theorem moves_some {body body' : Parse Expr} (h : Moves relocation body body') :
    Moves relocation (some <$> body) (some <$> body') := by
  simp only [map_eq_pure_bind]
  apply h.bind
  intro value _
  exact Moves.pure fun _ _ => trivial

section Expressions

variable {self : Reading} (hself : ∀ nonterminal, Moves relocation (self nonterminal) (self nonterminal))

include hself

theorem moves_readArguments : Moves relocation (readArguments self) (readArguments self) := by
  apply Moves.here.bind
  intro opened _
  apply Moves.skip.bind
  intro _ _
  apply (moves_listed (hself .Assignment)).bind
  intro arguments _
  apply (Moves.closeParen opened).bind
  intro _ _
  rw [move_toList]
  exact .pure trivial

theorem moves_readParen {start : Nat} (hstart : relocation.starts start) (opened : Span) :
    Moves relocation (readParen self start opened)
      (readParen self (relocation.offset start) (move relocation opened)) :=
  (hself .Expression).bind fun _ _ => (Moves.closeParen opened).bind fun _ _ =>
    (Moves.since hstart).bind fun _ _ => .pure trivial

theorem moves_readAssert {start : Nat} (hstart : relocation.starts start) :
    Moves relocation (readAssert self start) (readAssert self (relocation.offset start)) := by
  apply Moves.here.bind
  intro opened _
  refine (Moves.expect _ _).bind fun _ _ => (hself .Assignment).bind fun condition _ =>
    (Moves.eat _).bind fun more _ => ?_
  have hbehind : ∀ message : Option Expr, Moves relocation (do
      closeParen opened
      return Expr.Assert (← since start) condition message) (do
      closeParen (move relocation opened)
      return Expr.Assert (← since (relocation.offset start)) (move relocation condition)
        (move relocation message)) := by
    intro message
    apply (Moves.closeParen opened).bind
    intro _ _
    apply (Moves.since hstart).bind
    intro span _
    cases message with
    | none => exact .pure trivial
    | some message => exact .pure trivial
  cases more with
  | true => exact (moves_some (hself .Assignment)).bind fun message _ => hbehind message
  | false => exact Moves.bind (.pure nofun) fun message _ => hbehind message

theorem moves_readDeclare {start : Nat} (hstart : relocation.starts start) :
    Moves relocation (readDeclare self start) (readDeclare self (relocation.offset start)) := by
  apply Moves.expectName.bind
  intro name _
  cases name with
  | none => exact (Moves.since hstart).bind fun _ _ => .pure trivial
  | some name =>
      exact (Moves.expect _ _).bind fun _ _ => (hself .Assignment).bind fun _ _ =>
        (Moves.since hstart).bind fun _ _ => .pure trivial

theorem moves_readTraits {start : Nat} (hstart : relocation.starts start) :
    Moves relocation (readTraits self start) (readTraits self (relocation.offset start)) := by
  apply Moves.here.bind
  intro opened _
  refine (Moves.expect _ _).bind fun _ _ => Moves.expectName.bind fun trait htrait => ?_
  have hbehind : ∀ known : Bool, Moves relocation (do
      let _ ← expect (.Sign .Comma) .UnexpectedToken
      let operand ← self .Assignment
      closeParen opened
      let span ← since start
      return if known then Expr.Compiles span operand else .Error span) (do
      let _ ← expect (.Sign .Comma) .UnexpectedToken
      let operand ← self .Assignment
      closeParen (move relocation opened)
      let span ← since (relocation.offset start)
      return if known then Expr.Compiles span operand else .Error span) := by
    intro known
    refine (Moves.expect _ _).bind fun _ _ => (hself .Assignment).bind fun operand _ =>
      (Moves.closeParen opened).bind fun _ _ => (Moves.since hstart).bind fun span _ => ?_
    cases known with
    | true => exact .pure trivial
    | false => exact .pure trivial
  cases trait with
  | none => exact Moves.bind (.pure trivial) fun known _ => hbehind known
  | some name =>
      have hname : relocation.starts name.span.start := htrait name rfl
      exact .branch (Moves.bind (.pure trivial) fun known _ => hbehind known)
        ((Moves.complain hname).bind fun _ _ => Moves.bind (.pure trivial) fun known _ => hbehind known)

theorem moves_readPrimary : Moves relocation (readPrimary self) (readPrimary self) := by
  apply Moves.here.bind
  intro span hspan
  apply Moves.inspectThen
  intro next
  have htaken : ∀ node node' : Span → Expr,
      (∀ place, node' (move relocation place) = move relocation (node place)) →
      Moves relocation (do
        skip
        return node (← since span.start)) (do
        skip
        return node' (← since (relocation.offset span.start))) := by
    intro node node' hnode
    apply Moves.skip.bind
    intro _ _
    apply (Moves.since hspan).bind
    intro place _
    rw [hnode]
    exact .pure trivial
  split
  · exact (Moves.complain hspan).bind fun _ _ => .pure trivial
  · exact Moves.take.bind fun _ _ => (Moves.since hspan).bind fun _ _ => .pure trivial
  · exact Moves.take.bind fun _ _ => .branch ((Moves.since hspan).bind fun _ _ => .pure trivial)
      ((Moves.complain hspan).bind fun _ _ => (Moves.since hspan).bind fun _ _ => .pure trivial)
  · exact Moves.take.bind fun _ _ => (Moves.since hspan).bind fun _ _ => .pure trivial
  · exact htaken _ _ fun _ => rfl
  · exact htaken _ _ fun _ => rfl
  · exact htaken _ _ fun _ => rfl
  · exact Moves.skip.bind fun _ _ => moves_readParen hself hspan span
  · apply Moves.skip.bind
    intro _ _
    apply (moves_readArguments hself).bind
    intro elements _
    apply (Moves.since hspan).bind
    intro place _
    have htuple : Expr.Tuple (move relocation place) (move relocation elements) =
        move relocation (Expr.Tuple place elements) :=
      congrArg _ (Expr.relocateList_eq relocation.offset elements).symm
    rw [htuple]
    exact .pure trivial
  · exact Moves.skip.bind fun _ _ => moves_readAssert hself hspan
  · exact Moves.skip.bind fun _ _ => moves_readDeclare hself hspan
  · exact Moves.skip.bind fun _ _ => moves_readTraits hself hspan
  · exact (Moves.complain hspan).bind fun _ _ => .pure trivial

theorem moves_readMember {start : Nat} (hstart : relocation.starts start) (container : Expr) :
    Moves relocation (readMember self start container)
      (readMember self (relocation.offset start) (move relocation container)) := by
  apply Moves.expectName.bind
  intro name hname
  cases name with
  | none => exact (Moves.since hstart).bind fun _ _ => .pure trivial
  | some name =>
      have hstop : relocation.starts name.span.start := hname name rfl
      refine .branch ((Moves.isAt _).bind ?behind) (Moves.bind (.pure trivial) ?behind)
      intro isCall _
      refine .branch (Moves.here.bind fun opened hopened => (moves_readArguments hself).bind
        fun arguments _ => ?_) ((Moves.complain hstop).bind fun _ _ =>
          (Moves.since hstart).bind fun _ _ => .pure trivial)
      have hlength : (move relocation arguments).length = arguments.length := List.length_map _
      have hwrong : Moves relocation (do
          let span ← since opened.start
          complain (.about .WrongArgumentCount span
            ("`remove` takes 1 argument but " ++ toString arguments.length ++ " were given"))
          return Expr.Error (← since start)) (do
          let span ← since (relocation.offset opened.start)
          complain (.about .WrongArgumentCount span
            ("`remove` takes 1 argument but " ++ toString (move relocation arguments).length ++
              " were given"))
          return Expr.Error (← since (relocation.offset start))) := by
        rw [hlength]
        exact (Moves.since hopened).bind fun _ hspan => (Moves.complain hspan).bind fun _ _ =>
          (Moves.since hstart).bind fun _ _ => .pure trivial
      match arguments with
      | [key] => exact (Moves.since hstart).bind fun _ _ => .pure trivial
      | [] => exact hwrong
      | _ :: _ :: _ => exact hwrong

theorem moves_readAttachment {start : Nat} (hstart : relocation.starts start) (operand : Expr) :
    Moves relocation (readAttachment self start operand)
      (readAttachment self (relocation.offset start) (move relocation operand)) := by
  apply Moves.inspectThen
  intro next
  refine .branch (Moves.enter.bind fun _ _ => Moves.inspectThen fun next => ?_) (.pure trivial)
  split
  · apply (moves_readArguments hself).bind
    intro arguments _
    apply (Moves.since hstart).bind
    intro place _
    have hcall : Expr.Call (move relocation place) (move relocation operand)
        (move relocation arguments) = move relocation (Expr.Call place operand arguments) :=
      congrArg _ (Expr.relocateList_eq relocation.offset arguments).symm
    rw [hcall]
    exact .pure trivial
  · exact Moves.here.bind fun opened _ => Moves.skip.bind fun _ _ => (hself .Assignment).bind fun _ _ =>
      (Moves.close _ _ _ opened).bind fun _ _ => (Moves.since hstart).bind fun _ _ => .pure trivial
  · exact Moves.skip.bind fun _ _ => (Moves.since hstart).bind fun _ _ => .pure trivial
  · exact Moves.skip.bind fun _ _ => (Moves.since hstart).bind fun _ _ => .pure trivial
  · exact Moves.skip.bind fun _ _ => (moves_readMember hself hstart operand).bind fun _ _ => .pure trivial
  · exact .pure trivial

theorem moves_readAttached : Moves relocation (readAttached self) (readAttached self) :=
  .restoringDepth <| Moves.here.bind fun _ hspan => (moves_readPrimary hself).bind fun _ _ =>
    .rounds trivial fun operand _ => moves_readAttachment hself hspan operand

theorem moves_readPower : Moves relocation (readPower self) (readPower self) :=
  Moves.here.bind fun _ hspan => (moves_readAttached hself).bind fun _ _ =>
    (Moves.eat _).bind fun _ _ => .branch ((hself .Unary).bind fun _ _ =>
      (Moves.since hspan).bind fun _ _ => .pure trivial) (.pure trivial)

theorem moves_readCast {start : Nat} (hstart : relocation.starts start) :
    Moves relocation (readCast self start) (readCast self (relocation.offset start)) :=
  Moves.skip.bind fun _ _ => Moves.here.bind fun opened _ => (Moves.expect _ _).bind fun _ _ =>
    (hself .Type).bind fun _ _ => (Moves.closeParen opened).bind fun _ _ =>
    (hself .Unary).bind fun _ _ => (Moves.since hstart).bind fun _ _ => .pure trivial

theorem moves_readUnary : Moves relocation (readUnary self) (readUnary self) := by
  apply Moves.enter.bind
  intro _ _
  apply Moves.here.bind
  intro span hspan
  apply Moves.inspectThen
  intro next
  have hbehind : ∀ unary : Expr, Moves relocation (do leave; return unary)
      (do leave; return move relocation unary) :=
    fun unary => Moves.leave.bind fun _ _ => .pure trivial
  split
  · exact (moves_readCast hself hspan).bind fun unary _ => hbehind unary
  · exact (moves_readNew hspan).bind fun unary _ => hbehind unary
  · split
    · exact Moves.skip.bind fun _ _ => (hself .Unary).bind fun _ _ => (Moves.since hspan).bind
        fun _ _ => Moves.bind (.pure trivial) fun unary _ => hbehind unary
    · exact (moves_readPower hself).bind fun unary _ => hbehind unary

theorem moves_readLink (level : Nat) {start : Nat} (hstart : relocation.starts start) (left : Expr) :
    Moves relocation (readLink self level start left)
      (readLink self level (relocation.offset start) (move relocation left)) := by
  apply moves_readConnective.bind
  intro found _
  cases found with
  | none => exact .pure trivial
  | some op =>
      have hbehind : Moves relocation (do
          let right ← self (.Binary (op.level + 1))
          return (.Again (Expr.Binary (← since start) op left right) : Round Expr Expr)) (do
          let right ← self (.Binary (op.level + 1))
          return .Again (Expr.Binary (← since (relocation.offset start)) op (move relocation left)
            right)) :=
        (hself (.Binary (op.level + 1))).bind fun _ _ => (Moves.since hstart).bind fun _ _ =>
          .pure trivial
      exact .branch (.pure trivial) (Moves.enter.bind fun _ _ => Moves.skip.bind fun _ _ =>
        .branch (Moves.skip.bind fun _ _ => hbehind) hbehind)

theorem moves_readBinary (level : Nat) :
    Moves relocation (readBinary self level) (readBinary self level) :=
  .restoringDepth <| Moves.here.bind fun _ hspan => (hself .Unary).bind fun _ _ =>
    .rounds trivial fun left _ => moves_readLink hself level hspan left

theorem moves_readConditional : Moves relocation (readConditional self) (readConditional self) :=
  Moves.here.bind fun _ hspan => (hself (.Binary Level.orOr)).bind fun _ _ =>
    (Moves.eat _).bind fun _ _ => .branch (Moves.enter.bind fun _ _ =>
      (hself .Expression).bind fun _ _ => (Moves.expect _ _).bind fun _ _ =>
      (hself .Conditional).bind fun _ _ => Moves.leave.bind fun _ _ =>
      (Moves.since hspan).bind fun _ _ => .pure trivial) (.pure trivial)

theorem moves_readAssignment : Moves relocation (readAssignment self) (readAssignment self) := by
  apply Moves.here.bind
  intro span hspan
  apply (hself .Conditional).bind
  intro target _
  apply Moves.inspectThen
  intro next
  split
  · exact .pure trivial
  · exact Moves.skip.bind fun _ _ => Moves.enter.bind fun _ _ => (hself .Assignment).bind fun _ _ =>
      Moves.leave.bind fun _ _ => (Moves.since hspan).bind fun _ _ => .pure trivial

theorem moves_readCommaLink {start : Nat} (hstart : relocation.starts start) (first : Expr) :
    Moves relocation (readCommaLink self start first)
      (readCommaLink self (relocation.offset start) (move relocation first)) :=
  (Moves.eat _).bind fun _ _ => .branch (Moves.enter.bind fun _ _ => (hself .Assignment).bind fun _ _ =>
    (Moves.since hstart).bind fun _ _ => .pure trivial) (.pure trivial)

theorem moves_readExpression : Moves relocation (readExpression self) (readExpression self) :=
  .restoringDepth <| Moves.here.bind fun _ hspan => (hself .Assignment).bind fun _ _ =>
    .rounds trivial fun first _ => moves_readCommaLink hself hspan first

end Expressions

end Grammar

end EffectLint
