import EffectLint.Proofs.Grammar.PlacedType

/-!
An expression stands between the place where its reading began and the place that it reached, with
its parts in order in it.
-/

namespace EffectLint

namespace Parse

-- A place of which the offset is known.
def At (before : Spot → Prop) (start : Nat) (spot : Spot) : Prop :=
  before spot ∧ start = spot.offset

-- An expression of which the reading began at a given offset.
def Grown (before : Spot → Prop) (start : Nat) : Expr → Spot → Prop :=
  From (At before start) (Between Expr.Laid)

-- An expression of which something is read: a token at least, and then what it owns and the
-- parts that it has so far.
def Held (before : Spot → Prop) (start : Nat) (owns : Nat → Nat → Prop) (parts : List Expr)
    (spot : Spot) : Prop :=
  ∃ earlier middle, At before start earlier ∧ earlier.offset < spot.offset ∧
    owns earlier.offset middle ∧ InOrder Expr.Laid parts middle spot.offset

variable {before : Spot → Prop} {start textEnd : Nat} {spot : Spot} {owns : Nat → Nat → Prop}
  {parts : List Expr}

theorem Grown.between {expr : Expr} (h : Grown before start expr spot) :
    From before (Between Expr.Laid) expr spot :=
  h.imp fun _ ⟨hat, hlaid⟩ => ⟨hat.1, hlaid⟩

theorem Grown.of_error {span : Span} (h : Behind (At before start) spot) :
    Grown before start (.Error span) spot :=
  h.imp fun _ ⟨hat, hle⟩ => ⟨hat, hle, .Error hle⟩

theorem Held.opened (h : Beyond (At before start) spot) : Held before start (· ≤ ·) [] spot :=
  h.elim fun earlier ⟨hat, hlt⟩ =>
    ⟨earlier, earlier.offset, hat, hlt, Nat.le_refl _, .nil (Nat.le_of_lt hlt)⟩

-- Behind an expression that what follows makes the first part of another one.
theorem Held.linked {operand : Expr} (h : Beyond (Grown before start operand) spot) :
    Held before start (· ≤ ·) [operand] spot := by
  obtain ⟨last, ⟨earlier, hat, hle, hlaid⟩, hlt⟩ := h
  exact ⟨earlier, earlier.offset, hat, by omega, Nat.le_refl _,
    .cons (Nat.le_refl _) hle hlaid (.nil (Nat.le_of_lt hlt))⟩

theorem Held.behind (h : Held before start owns parts spot) : Behind (At before start) spot := by
  obtain ⟨earlier, middle, hat, hlt, -, -⟩ := h
  exact ⟨earlier, hat, Nat.le_of_lt hlt⟩

theorem Held.whole {whole : Expr} (h : Held before start whole.Owns whole.parts spot)
    (hspan : whole.span.start = start) : Grown before start whole spot := by
  obtain ⟨earlier, middle, hat, hlt, howns, hparts⟩ := h
  have hstart := hat.2
  exact ⟨earlier, hat, Nat.le_of_lt hlt, .Whole (by omega) (by omega) howns hparts⟩

namespace Places

theorem past {α : Type} {body : Parse α} (hbody : MovesOn body) :
    Places textEnd (Held before start owns parts) body fun _ => Held before start owns parts := by
  refine hbody.places.imp fun _ spot h => ?_
  obtain ⟨last, ⟨earlier, middle, hat, hlt, howns, hparts⟩, hle⟩ := h
  exact ⟨earlier, middle, hat, by omega, howns, hparts.mono (Nat.le_refl _) hle⟩

theorem listed {body : Parse (List Expr)}
    (hbody : ∀ before, Places textEnd before body (From before (Between (InOrder Expr.Laid)))) :
    Places textEnd (Held before start owns parts) body fun found =>
      Held before start owns (parts ++ found) := by
  refine (hbody _).imp fun found spot h => ?_
  obtain ⟨last, ⟨earlier, middle, hat, hlt, howns, hparts⟩, hle, hfound⟩ := h
  exact ⟨earlier, middle, hat, by omega, howns, hparts.append hfound⟩

theorem part {body : Parse Expr}
    (hbody : ∀ before, Places textEnd before body (From before (Between Expr.Laid))) :
    Places textEnd (Held before start owns parts) body fun found =>
      Held before start owns (parts ++ [found]) := by
  refine (hbody _).imp fun found spot h => ?_
  obtain ⟨last, ⟨earlier, middle, hat, hlt, howns, hparts⟩, hle, hfound⟩ := h
  exact ⟨earlier, middle, hat, by omega, howns, hparts.append (.one hle hfound)⟩

-- A node is made when all of its parts are read.
theorem whole {node : Span → Expr} (hspan : ∀ span, (node span).span = span)
    (howns : ∀ span, (node span).Owns = owns) (hparts : ∀ span, (node span).parts = parts) :
    Places textEnd (Held before start owns parts) (Parse.since start) fun span =>
      Grown before start (node span) := by
  refine (since start).imp fun span spot ⟨h, hstart⟩ => ?_
  rw [← howns span, ← hparts span] at h
  exact h.whole ((congrArg Span.start (hspan span)).trans hstart)

theorem made {node : Span → Expr} (hspan : ∀ span, (node span).span = span)
    (howns : ∀ span, (node span).Owns = owns) (hparts : ∀ span, (node span).parts = parts) :
    Places textEnd (Held before start owns parts) (do return node (← Parse.since start))
      (Grown before start) :=
  (whole hspan howns hparts).bind fun _ => .pure fun _ h => h

theorem again {node : Span → Expr} (hspan : ∀ span, (node span).span = span)
    (howns : ∀ span, (node span).Owns = owns) (hparts : ∀ span, (node span).parts = parts) :
    Places textEnd (Held before start owns parts)
      (do return Round.Again (node (← Parse.since start)))
      (Round.holdsAt (Grown before start) (Grown before start)) :=
  (whole hspan howns hparts).bind fun _ => .pure fun _ h => h

theorem linked {α : Type} {operand : Expr} {body : Parse α} {after : α → Spot → Prop}
    (h : Places textEnd (Held before start (· ≤ ·) [operand]) body after) :
    Places textEnd (Beyond (Grown before start operand)) body after :=
  h.of_before fun _ => .linked

theorem grown {body : Parse Expr} {begun : Spot → Prop} (start : Nat)
    (h : Places textEnd begun body (Grown before start)) :
    Places textEnd begun body (From before (Between Expr.Laid)) :=
  h.imp fun _ _ => Grown.between

theorem nothing :
    Places textEnd (Behind (At before start)) (do return Expr.Error (← Parse.since start))
      (Grown before start) :=
  (since start).bind fun _ => .pure fun _ h => .of_error h.1

end Places

end Parse

namespace Grammar

open Parse

variable {textEnd start : Nat} {before : Spot → Prop} {self : Reading}
  (hself : ReadsPlaced textEnd self)

include hself

-- What is known of the opening token is known of the place behind it.
theorem placed_opened {opened : Spot → Prop} (hskip : Places textEnd before skip fun _ => opened) :
    Places textEnd before (readArguments self) (From opened (Between (InOrder Expr.Laid))) := by
  refine Places.here.bind fun span => (hskip.of_before fun _ => And.left).bind fun _ =>
    (placed_listed fun _ => hself .Assignment _).bind fun arguments =>
    (stepwise_movesOn.closeParen span).places.bind fun _ => .pure fun spot h => ?_
  obtain ⟨last, ⟨earlier, hearlier, hle, hlaid⟩, hle'⟩ := h
  exact ⟨earlier, hearlier, by omega, hlaid.mono (Nat.le_refl _) hle'⟩

theorem placed_readArguments :
    Places textEnd before (readArguments self) (From before (Between (InOrder Expr.Laid))) := by
  refine (placed_opened hself stepwise_movesOn.skip.places).imp fun arguments spot h => ?_
  obtain ⟨opened, ⟨earlier, hbefore, hle⟩, hle', hlaid⟩ := h
  exact ⟨earlier, hbefore, by omega, hlaid.mono hle (Nat.le_refl _)⟩

theorem placed_readParen (opened : Span) :
    Places textEnd (Held before start (· ≤ ·) []) (readParen self start opened)
      (Grown before start) :=
  (Places.part (hself .Expression)).bind fun _ =>
    (Places.past (stepwise_movesOn.closeParen opened)).bind fun _ =>
    .made (fun _ => rfl) (fun _ => rfl) fun _ => rfl

theorem placed_readAssert :
    Places textEnd (Held before start (· ≤ ·) []) (readAssert self start) (Grown before start) := by
  refine Places.here.bind fun opened => Places.of_before ?_ fun _ => And.left
  refine (Places.past (stepwise_movesOn.expect _ _ rfl)).bind fun _ =>
    (Places.part (hself .Assignment)).bind fun condition =>
    (Places.past (stepwise_movesOn.eat _)).bind fun more => ?_
  have hbehind : ∀ message : Option Expr, Places textEnd
      (Held before start (· ≤ ·) (condition :: message.toList))
      (do closeParen opened; return Expr.Assert (← since start) condition message)
      (Grown before start) := fun message =>
    (Places.past (stepwise_movesOn.closeParen opened)).bind fun _ =>
      .made (fun _ => rfl) (fun _ => rfl) fun _ => rfl
  cases more with
  | true =>
      have hmessage : Places textEnd (Held before start (· ≤ ·) [condition])
          (some <$> self .Assignment) fun message : Option Expr =>
            Held before start (· ≤ ·) (condition :: message.toList) := by
        rw [map_eq_pure_bind]
        exact (Places.part (hself .Assignment)).bind fun _ => .pure fun _ h => h
      exact hmessage.bind hbehind
  | false => exact (Places.pure fun _ h => h).bind hbehind

theorem placed_readDeclare :
    Places textEnd (Held before start (· ≤ ·) []) (readDeclare self start) (Grown before start) := by
  refine Places.expectName.bind fun found => ?_
  cases found with
  | none => exact Places.nothing.of_before fun _ h => h.1.behind
  | some name =>
      have hbehind : Places textEnd (Held before start
          (fun low middle => low < name.span.start ∧ name.span.start ≤ middle) []) (do
            let _ ← expect (.Sign .Equal) .UnexpectedToken
            let value ← self .Assignment
            return Expr.Declare (← since start) name value) (Grown before start) :=
        (Places.past (stepwise_movesOn.expect _ _ rfl)).bind fun _ =>
          (Places.part (hself .Assignment)).bind fun _ =>
          .made (fun _ => rfl) (fun _ => rfl) fun _ => rfl
      refine hbehind.of_before ?_
      rintro spot ⟨last, ⟨earlier, middle, hat, hlt, howns, hparts⟩, -, hstart, hlt'⟩
      exact ⟨earlier, spot.offset, hat, by omega, ⟨by omega, by omega⟩, .nil (Nat.le_refl _)⟩

theorem placed_readTraits :
    Places textEnd (Held before start (· ≤ ·) []) (readTraits self start) (Grown before start) := by
  refine Places.here.bind fun opened => Places.of_before ?_ fun _ => And.left
  refine (Places.past (stepwise_movesOn.expect _ _ rfl)).bind fun _ =>
    (Places.past stepwise_movesOn.expectName).bind fun trait => ?_
  have hbehind : ∀ known : Bool, Places textEnd (Held before start (· ≤ ·) []) (do
        let _ ← expect (.Sign .Comma) .UnexpectedToken
        let operand ← self .Assignment
        closeParen opened
        let span ← since start
        return if known then Expr.Compiles span operand else .Error span)
      (Grown before start) := by
    refine fun known => (Places.past (stepwise_movesOn.expect _ _ rfl)).bind fun _ =>
      (Places.part (hself .Assignment)).bind fun operand =>
      (Places.past (stepwise_movesOn.closeParen opened)).bind fun _ => ?_
    cases known with
    | true => exact .made (fun _ => rfl) (fun _ => rfl) fun _ => rfl
    | false => exact Places.nothing.of_before fun _ => Held.behind
  cases trait with
  | none => exact (Places.pure fun _ h => h).bind hbehind
  | some name =>
      exact .either ((Places.pure fun _ h => h).bind hbehind)
        ((Places.complain _).bind fun _ => (Places.pure fun _ h => h).bind hbehind)

theorem placed_readPrimary :
    Places textEnd before (readPrimary self) (From before (Between Expr.Laid)) := by
  refine Places.here.bind fun span => Places.inspect.bind fun next => ?_
  have hfailed : ∀ {kind : Option TokenKind} (diagnostic : Diagnostic), Places textEnd
      (fun spot => (before spot ∧ span.start = spot.offset) ∧ spot.next = kind)
      (do complain diagnostic; return .Error span) (From before (Between Expr.Laid)) := by
    refine fun diagnostic => (Places.complain _).bind fun _ => .pure fun spot h => ?_
    exact ⟨spot, h.1.1, Nat.le_refl _, .Error (Nat.le_refl _)⟩
  have htaken : ∀ {kind : TokenKind} {body : String → Parse Expr},
      (∀ text, Places textEnd (Held before span.start (· ≤ ·) []) (body text)
        (Grown before span.start)) →
      Places textEnd (fun spot => (before spot ∧ span.start = spot.offset) ∧ spot.next = some kind)
        (take >>= body) (From before (Between Expr.Laid)) :=
    fun hbody => (Places.take fun _ h => ⟨_, h.2⟩).bind fun text => (hbody text).weaken
      (fun _ h => .opened (h.imp fun _ ⟨hat, hlt⟩ => ⟨hat.1, hlt⟩)) fun _ _ => Grown.between
  have hskipped : ∀ {kind : TokenKind} {body : Parse Expr},
      Places textEnd (Held before span.start (· ≤ ·) []) body (Grown before span.start) →
      Places textEnd (fun spot => (before spot ∧ span.start = spot.offset) ∧ spot.next = some kind)
        (do skip; body) (From before (Between Expr.Laid)) :=
    fun hbody => (Places.skip fun _ h => ⟨_, h.2⟩).bind fun _ => hbody.weaken
      (fun _ h => .opened (h.imp fun _ ⟨hat, hlt⟩ => ⟨hat.1, hlt⟩)) fun _ _ => Grown.between
  split
  · exact hfailed _
  · exact htaken fun _ => .made (fun _ => rfl) (fun _ => rfl) fun _ => rfl
  · refine htaken fun text => .either (.made (fun _ => rfl) (fun _ => rfl) fun _ => rfl) ?_
    exact (Places.complain _).bind fun _ => Places.nothing.of_before fun _ => Held.behind
  · exact htaken fun _ => .made (fun _ => rfl) (fun _ => rfl) fun _ => rfl
  · exact hskipped <| .made (fun _ => rfl) (fun _ => rfl) fun _ => rfl
  · exact hskipped <| .made (fun _ => rfl) (fun _ => rfl) fun _ => rfl
  · exact hskipped <| .made (fun _ => rfl) (fun _ => rfl) fun _ => rfl
  · exact hskipped (placed_readParen hself span)
  · exact hskipped <| (Places.listed fun _ => placed_readArguments hself).bind fun _ =>
      .made (fun _ => rfl) (fun _ => rfl) fun _ => rfl
  · exact hskipped (placed_readAssert hself)
  · exact hskipped (placed_readDeclare hself)
  · exact hskipped (placed_readTraits hself)
  · exact hfailed _

-- What is read behind an operand makes it the first part of another expression.
theorem placed_readMember (container : Expr) :
    Places textEnd (Held before start (· ≤ ·) [container]) (readMember self start container)
      (Grown before start) := by
  refine (Places.past stepwise_movesOn.expectName).bind fun found => ?_
  have hnothing : Places textEnd (Held before start (· ≤ ·) [container])
      (do return Expr.Error (← since start)) (Grown before start) :=
    Places.nothing.of_before fun _ => Held.behind
  cases found with
  | none => exact hnothing
  | some name =>
      refine .either ((Places.isAt_still _).bind ?behind) ((Places.pure fun _ h => h).bind ?behind)
      refine fun isCall => .either ?_ ((Places.complain _).bind fun _ => hnothing)
      refine Places.here.bind fun opened => Places.of_before ?_ fun _ => And.left
      refine (Places.listed fun _ => placed_readArguments hself).bind fun arguments => ?_
      split
      · exact .made (fun _ => rfl) (fun _ => rfl) fun _ => rfl
      · exact (Places.since _).bind fun _ => (Places.complain _).bind fun _ =>
          Places.nothing.of_before fun _ h => h.1.behind

theorem placed_readAttachment (operand : Expr) :
    Places textEnd (Grown before start operand) (readAttachment self start operand)
      (Round.holdsAt (Grown before start) (Grown before start)) := by
  refine Places.inspect.bind fun next => .either ((Places.enter.of_before fun _ => And.left).bind
    fun _ => Places.inspect.bind fun next => ?_) (.pure fun _ h => h.1)
  have hskip : ∀ {kind : TokenKind},
      Places textEnd (fun spot => Grown before start operand spot ∧ spot.next = some kind) skip
        fun _ => Held before start (· ≤ ·) [operand] :=
    (Places.skip fun _ h => ⟨_, h.2⟩).imp fun _ _ h =>
      .linked (h.imp fun _ ⟨hgrown, hlt⟩ => ⟨hgrown.1, hlt⟩)
  split
  · have harguments : Places textEnd (fun spot => Grown before start operand spot ∧
          spot.next = some (.Sign .ParenOpen)) (readArguments self) fun arguments =>
        Held before start (· ≤ ·) (operand :: arguments) := by
      refine (placed_opened hself hskip).imp fun arguments spot h => ?_
      obtain ⟨opened, ⟨earlier, middle, hat, hlt, hle, hoperand⟩, hle', harguments⟩ := h
      exact ⟨earlier, middle, hat, by omega, hle, hoperand.append harguments⟩
    exact harguments.bind fun _ => .again (fun _ => rfl) (fun _ => rfl) fun _ => rfl
  · exact Places.here.bind fun opened => (hskip.of_before fun _ => And.left).bind fun _ =>
      (Places.part (hself .Assignment)).bind fun index =>
      (Places.past (stepwise_movesOn.close _ _ _ opened rfl)).bind fun _ =>
      .again (fun _ => rfl) (fun _ => rfl) fun _ => rfl
  · exact hskip.bind fun _ => .again (fun _ => rfl) (fun _ => rfl) fun _ => rfl
  · exact hskip.bind fun _ => .again (fun _ => rfl) (fun _ => rfl) fun _ => rfl
  · exact hskip.bind fun _ => (placed_readMember hself operand).bind fun _ => .pure fun _ h => h
  · exact .pure fun _ h => h.1

theorem placed_readAttached :
    Places textEnd before (readAttached self) (From before (Between Expr.Laid)) :=
  .restoringDepth <| Places.here.bind fun span => (placed_readPrimary hself).bind fun _ =>
    .grown _ (Places.rounds (Grown before span.start) fun operand =>
      placed_readAttachment hself operand)

theorem placed_readPower :
    Places textEnd before (readPower self) (From before (Between Expr.Laid)) :=
  Places.here.bind fun _ => (placed_readAttached hself).bind fun _ =>
    .eaten (.grown _ (.linked ((Places.part (hself .Unary)).bind fun _ =>
      .made (fun _ => rfl) (fun _ => rfl) fun _ => rfl))) (.pure fun _ => Grown.between)

theorem placed_readCast :
    Places textEnd (fun spot => At before start spot ∧ spot.next = some (.Word .Cast))
      (readCast self start) (Grown before start) := by
  refine (Places.skip fun _ h => ⟨_, h.2⟩).bind fun _ => Places.here.bind fun opened =>
    (stepwise_movesOn.expect _ _ rfl).places.bind fun _ => (hself .Type _).bind fun type => ?_
  have hbehind : Places textEnd (Held before start type.Laid []) (do
      closeParen opened
      let operand ← self .Unary
      return Expr.Cast (← since start) type operand) (Grown before start) :=
    (Places.past (stepwise_movesOn.closeParen opened)).bind fun _ =>
      (Places.part (hself .Unary)).bind fun _ => .made (fun _ => rfl) (fun _ => rfl) fun _ => rfl
  refine hbehind.of_before ?_
  rintro spot ⟨named, ⟨last, ⟨⟨earlier, ⟨hat, -⟩, hlt⟩, -⟩, hle⟩, htype⟩
  have hle' := htype.laid.le
  exact ⟨earlier, spot.offset, hat, by omega, htype.laid.mono (by omega) (Nat.le_refl _),
    .nil (Nat.le_refl _)⟩

omit hself in
theorem placed_readNew :
    Places textEnd (fun spot => At before start spot ∧ spot.next = some (.Word .New))
      (readNew start) (Grown before start) := by
  have hskip : Places textEnd (fun spot => At before start spot ∧ spot.next = some (.Word .New))
      skip fun _ => Held before start (· ≤ ·) [] :=
    (Places.skip fun _ h => ⟨_, h.2⟩).imp fun _ _ h =>
      .opened (h.imp fun _ ⟨hat, hlt⟩ => ⟨hat.1, hlt⟩)
  refine hskip.bind fun _ => (Places.past (stepwise_movesOn.eat _)).bind
    fun _ => .either ?anonymous ?named
  case anonymous =>
    exact Places.here.bind fun opened => ((Places.past (stepwise_movesOn.expect _ _ rfl)).of_before
      fun _ => And.left).bind fun _ => (Places.past (stepwise_movesOn.close _ _ _ opened rfl)).bind
      fun _ => .made (fun _ => rfl) (fun _ => rfl) fun _ => rfl
  case named =>
    refine Places.expectName.bind fun found => ?_
    cases found with
    | none => exact Places.nothing.of_before fun _ h => h.1.behind
    | some name =>
        have hnamed : Places textEnd (Held before start
            (fun low middle => low ≤ name.span.start ∧ name.span.start < middle) [])
            (do return Expr.New (← since start) name) (Grown before start) :=
          .made (fun _ => rfl) (fun _ => rfl) fun _ => rfl
        refine hnamed.of_before ?_
        rintro spot ⟨last, ⟨earlier, middle, hat, hlt, howns, hparts⟩, -, hstart, hlt'⟩
        exact ⟨earlier, spot.offset, hat, by omega, ⟨by omega, by omega⟩, .nil (Nat.le_refl _)⟩

theorem placed_readUnary :
    Places textEnd before (readUnary self) (From before (Between Expr.Laid)) := by
  refine Places.enter.bind fun _ => Places.here.bind fun span => Places.inspect.bind fun next => ?_
  have hbehind : ∀ unary : Expr, Places textEnd (From before (Between Expr.Laid) unary)
      (do leave; return unary) (From before (Between Expr.Laid)) :=
    fun unary => Places.leave.bind fun _ => .pure fun _ h => h
  split
  · exact (Places.grown _ (placed_readCast hself)).bind hbehind
  · exact (Places.grown _ placed_readNew).bind hbehind
  · split
    · next op hop =>
      obtain ⟨kind, hkind, -⟩ := Option.bind_eq_some_iff.mp hop
      have hskip : Places textEnd
          (fun spot => (before spot ∧ span.start = spot.offset) ∧ spot.next = next) skip
          fun _ => Held before span.start (· ≤ ·) [] :=
        (Places.skip fun _ h => ⟨kind, h.2.trans hkind⟩).imp fun _ _ h =>
          .opened (h.imp fun _ ⟨hat, hlt⟩ => ⟨hat.1, hlt⟩)
      refine hskip.bind fun _ => (Places.part (hself .Unary)).bind fun operand => ?_
      have hmade : Places textEnd (Held before span.start (· ≤ ·) [operand])
          (do return Expr.Leading (← since span.start) op operand)
          (From before (Between Expr.Laid)) :=
        .grown _ (.made (fun _ => rfl) (fun _ => rfl) fun _ => rfl)
      exact hmade.bind hbehind
    · refine (placed_readPower hself).bind fun unary => ?_
      refine (hbehind unary).of_before fun spot h => ?_
      exact h.imp fun _ ⟨hat, hlaid⟩ => ⟨hat.1.1, hlaid⟩

omit hself in
theorem placed_readConnective :
    Places textEnd before readConnective fun found spot =>
      before spot ∧ (found.isSome = true → ∃ kind, spot.next = some kind) := by
  refine Places.inspect.bind fun next => ?_
  have hsome : ∀ {kind : TokenKind} (op : Option Connective), Places textEnd
      (fun spot => before spot ∧ spot.next = some kind) (pure op) fun found spot =>
        before spot ∧ (found.isSome = true → ∃ kind, spot.next = some kind) :=
    fun op => .pure fun _ h => ⟨h.1, fun _ => ⟨_, h.2⟩⟩
  split
  case h_4 =>
    exact (Places.still fun _ _ _ _ hrun => by cases hrun; rfl).bind fun _ =>
      .either (hsome _) (hsome _)
  case h_24 => exact .pure fun _ h => ⟨h.1, nofun⟩
  all_goals exact hsome _

theorem placed_readLink (level : Nat) (left : Expr) :
    Places textEnd (Grown before start left) (readLink self level start left)
      (Round.holdsAt (Grown before start) (Grown before start)) := by
  refine placed_readConnective.bind fun found => ?_
  cases found with
  | none => exact .pure fun _ h => h.1
  | some op =>
      have hskip : Places textEnd (fun spot => Grown before start left spot ∧
            ((some op).isSome = true → ∃ kind, spot.next = some kind)) skip fun _ =>
          Held before start (· ≤ ·) [left] :=
        (Places.skip fun _ h => h.2 rfl).imp fun _ _ h =>
          .linked (h.imp fun _ ⟨hgrown, hlt⟩ => ⟨hgrown.1, hlt⟩)
      have hbehind : Places textEnd (Held before start (· ≤ ·) [left]) (do
          let right ← self (.Binary (op.level + 1))
          return Round.Again (Expr.Binary (← since start) op left right))
          (Round.holdsAt (Grown before start) (Grown before start)) :=
        (Places.part (hself (.Binary _))).bind fun _ =>
          .again (fun _ => rfl) (fun _ => rfl) fun _ => rfl
      exact .either (.pure fun _ h => h.1) (Places.enter.bind fun _ => hskip.bind fun _ =>
        .either ((Places.past stepwise_movesOn.skip).bind fun _ => hbehind) hbehind)

theorem placed_readBinary (level : Nat) :
    Places textEnd before (readBinary self level) (From before (Between Expr.Laid)) :=
  .restoringDepth <| Places.here.bind fun span => (hself .Unary _).bind fun _ =>
    .grown _ (Places.rounds (Grown before span.start) fun left =>
      placed_readLink hself level left)

theorem placed_readConditional :
    Places textEnd before (readConditional self) (From before (Between Expr.Laid)) :=
  Places.here.bind fun _ => (hself (.Binary _) _).bind fun _ =>
    .eaten (Places.enter.bind fun _ => .grown _ (.linked ((Places.part (hself .Expression)).bind
      fun _ => (Places.past (stepwise_movesOn.expect _ _ rfl)).bind fun _ =>
      (Places.part (hself .Conditional)).bind fun _ => Places.leave.bind fun _ =>
      .made (fun _ => rfl) (fun _ => rfl) fun _ => rfl))) (.pure fun _ => Grown.between)

theorem placed_readAssignment :
    Places textEnd before (readAssignment self) (From before (Between Expr.Laid)) := by
  refine Places.here.bind fun span => (hself .Conditional _).bind fun target =>
    Places.inspect.bind fun next => ?_
  split
  · exact .pure fun _ h => Grown.between h.1
  · next op hop =>
    have hthere : ∃ kind, next = some kind := by
      cases next with
      | none => cases hop
      | some kind => exact ⟨kind, rfl⟩
    refine (Places.skip fun _ h => hthere.imp fun _ => h.2.trans).bind fun _ =>
      Places.enter.bind fun _ => ?_
    have hbehind : Places textEnd (Held before span.start (· ≤ ·) [target]) (do
        let value ← self .Assignment
        leave
        return Expr.Assign (← since span.start) op target value)
        (From before (Between Expr.Laid)) :=
      .grown _ ((Places.part (hself .Assignment)).bind fun _ => Places.leave.bind fun _ =>
        .made (fun _ => rfl) (fun _ => rfl) fun _ => rfl)
    exact hbehind.of_before fun _ h => .linked (h.imp fun _ ⟨hgrown, hlt⟩ => ⟨hgrown.1, hlt⟩)

theorem placed_readCommaLink (first : Expr) :
    Places textEnd (Grown before start first) (readCommaLink self start first)
      (Round.holdsAt (Grown before start) (Grown before start)) :=
  .eaten (Places.enter.bind fun _ => .linked ((Places.part (hself .Assignment)).bind fun _ =>
    .again (fun _ => rfl) (fun _ => rfl) fun _ => rfl)) (.pure fun _ h => h)

theorem placed_readExpression :
    Places textEnd before (readExpression self) (From before (Between Expr.Laid)) :=
  .restoringDepth <| Places.here.bind fun span => (hself .Assignment _).bind fun _ =>
    .grown _ (Places.rounds (Grown before span.start) fun first =>
      placed_readCommaLink hself first)

end Grammar

end EffectLint
