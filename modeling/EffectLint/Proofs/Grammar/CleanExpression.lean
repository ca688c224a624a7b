import EffectLint.Proofs.Grammar.CleanType

/-!
An expression that is read in a quiet reading is written of what can be read back, and its
delimiters are closed.
-/

namespace EffectLint

theorem Expr.AllWritten.of_leaf {whole : Expr} (hwritten : whole.WellWritten) (hparts : whole.parts = []) :
    whole.AllWritten :=
  .of_parts hwritten fun part hmem => by simp [hparts] at hmem

theorem Expr.AllWritten.of_one {whole part : Expr} (hwritten : whole.WellWritten)
    (hparts : whole.parts = [part]) (hpart : part.AllWritten) : whole.AllWritten :=
  .of_parts hwritten fun other hmem => by
    rw [hparts, List.mem_singleton] at hmem
    exact hmem ▸ hpart

theorem Expr.AllWritten.of_two {whole left right : Expr} (hwritten : whole.WellWritten)
    (hparts : whole.parts = [left, right]) (hleft : left.AllWritten) (hright : right.AllWritten) :
    whole.AllWritten :=
  .of_parts hwritten fun other hmem => by
    rw [hparts, List.mem_cons, List.mem_singleton] at hmem
    rcases hmem with rfl | rfl
    · exact hleft
    · exact hright

-- The quotes of a quoted text are its first and its last character.
theorem Lexeme.quoted_quotedText {text : String} (h : (Lexeme.mk .Text text).Valid) :
    Lexeme.quoted (Grammar.quotedText text) = ⟨.Text, text⟩ := by
  cases h.form with
  | Spelled hfixed _ => simp [TokenKind.fixed] at hfixed
  | Name hkind _ => cases hkind
  | Number hkind _ => cases hkind
  | Quoted _ hquoted =>
      obtain ⟨rest, htext, hends⟩ := Pattern.matches_text.mp hquoted
      obtain ⟨front, rfl, _⟩ := Pattern.many_of_endsQuoted hends
      have htext : text.toList = '"' :: (front ++ ['"']) := htext
      have hinside : (Grammar.quotedText text).toList = front := by
        simp [Grammar.quotedText, htext]
      refine congrArg (Lexeme.mk .Text) (String.toList_injective ?_)
      rw [String.toList_append, String.toList_append, hinside, htext]
      rfl

namespace Parse

variable {tokens : List Token} {bound : Nat} {stack : List Delimiter} {fact : Prop}

-- What stands where the list behind `tuple` opens, or a list of arguments does.
def AtList (tokens : List Token) (bound : Nat) (stack : List Delimiter) (fact : Prop)
    (rest : List Token) : Prop :=
  Midway tokens bound stack fact rest ∧
    (TuplesOpen tokens → nextKind rest = some (.Sign .ParenOpen))

theorem clean_skip_tuple :
    Ensures (fun rest => Midway tokens bound stack fact rest ∧ nextKind rest = some (.Word .Tuple))
      skip fun _ => AtList tokens (bound - 1) stack fact := by
  refine .skip (fun token rest h => ?_) fun h => nomatch h.2
  obtain ⟨hmidway, hnext⟩ := h
  have hkind : token.kind = .Word .Tuple := Option.some.inj hnext
  refine ⟨hmidway.step (by rw [hkind]; rfl) (by simp [hkind]), fun hopen => ?_⟩
  exact (hmidway.closes hopen).1.1 hkind

theorem clean_skip_opening :
    Ensures (AtList tokens bound stack fact) skip fun _ =>
      Midway tokens bound (.Paren :: stack) fact := by
  refine .skip (fun token rest h => ?_) fun h => ?_
  · obtain ⟨hmidway, hopens⟩ := h
    have hlength := hmidway.bound
    rw [List.length_cons] at hlength
    refine ⟨hmidway.fact, by omega,
      fun other hmem => hmidway.sound other (List.mem_cons_of_mem _ hmem), fun hopen => ?_⟩
    have hkind : token.kind = .Sign .ParenOpen := Option.some.inj (hopens hopen)
    exact (hmidway.step (by rw [hkind]; rfl) (by simp [hkind])).closes hopen
  · obtain ⟨hmidway, hopens⟩ := h
    exact ⟨hmidway.fact, hmidway.bound, hmidway.sound, fun hopen => nomatch hopens hopen⟩

end Parse

namespace Grammar

open Parse

variable {tokens : List Token} {bound : Nat} {stack : List Delimiter} {fact : Prop} {self : Reading}
  (hself : ReadsClean tokens self)

-- A prefix operator opens and closes nothing.
theorem plain_of_leadingOp {kind : TokenKind} {op : LeadingOp} (h : leadingOp? kind = some op) :
    (∀ stack, kind.delimit stack = some stack) ∧ kind ≠ .Garbage := by
  unfold leadingOp? at h
  split at h <;> simp_all [TokenKind.delimit]

theorem plain_of_assignment {next : Option TokenKind} {op : Option AssignOp}
    (h : assignment? next = some op) :
    ∃ kind, next = some kind ∧ (∀ stack, kind.delimit stack = some stack) ∧ kind ≠ .Garbage := by
  unfold assignment? at h
  split at h <;> simp_all [TokenKind.delimit]

-- The kinds that the next tokens have.
def Ahead (kinds : List TokenKind) (rest : List Token) : Prop :=
  kinds <+: rest.map Token.kind

theorem ahead_cons {kind : TokenKind} {kinds : List TokenKind} {rest : List Token} :
    Ahead (kind :: kinds) rest ↔ nextKind rest = some kind ∧ Ahead kinds rest.tail := by
  cases rest <;> simp [Ahead, nextKind, List.cons_prefix_cons, eq_comm]

-- An operator is found where its tokens are the next ones, and none of them is taken yet.
theorem of_readConnective {limits : Limits} {state after : ParseState} {found : Option Connective}
    (hrun : readConnective limits state = .ok (found, after)) :
    (∃ fuel, after = { state with fuel }) ∧
      ∀ op ∈ found, Ahead (op.lexemes.map Lexeme.kind) state.rest := by
  obtain ⟨next, middle, hinspect, hrun⟩ := of_bind hrun
  obtain ⟨fuel, -, hnext, rfl⟩ := of_inspect hinspect
  have hone : ∀ {kind : TokenKind} {op : Connective}, op.lexemes.map Lexeme.kind = [kind] →
      nextKind state.rest = some kind →
      ∀ other ∈ some op, Ahead (other.lexemes.map Lexeme.kind) state.rest := by
    intro kind op hkinds hkind other hother
    obtain rfl := Option.some.inj hother
    rw [hkinds]
    exact ahead_cons.mpr ⟨hkind, List.nil_prefix⟩
  split at hrun
  case h_4 =>
    obtain ⟨others, middle, hbeyond, hrun⟩ := of_bind hrun
    cases hbeyond
    split at hrun
    · rename_i his
      cases hrun
      refine ⟨⟨fuel, rfl⟩, fun other hother => ?_⟩
      obtain rfl := Option.some.inj hother
      refine ahead_cons.mpr ⟨hnext.symm, ahead_cons.mpr ⟨?_, List.nil_prefix⟩⟩
      cases hrest : state.rest.tail with
      | nil => simp [hrest] at his
      | cons second others =>
          rw [hrest, List.head?_cons, Option.map_some, beq_iff_eq] at his
          exact his
    · cases hrun
      exact ⟨⟨fuel, rfl⟩, nofun⟩
  case h_24 =>
    cases hrun
    exact ⟨⟨fuel, rfl⟩, nofun⟩
  all_goals
    cases hrun
    exact ⟨⟨fuel, rfl⟩, hone rfl hnext.symm⟩

theorem clean_readConnective :
    Ensures (Midway tokens bound stack fact) readConnective fun found rest =>
      Midway tokens bound stack fact rest ∧ ∀ op ∈ found, Ahead (op.lexemes.map Lexeme.kind) rest := by
  intro limits state found after hrun
  obtain ⟨⟨fuel, rfl⟩, hahead⟩ := of_readConnective hrun
  exact ⟨id, fun hquiet hbefore =>
    .inr ⟨⟨hquiet.unreported, hquiet.uncomplained⟩, hbefore, hahead⟩⟩

-- A connective that is written by one token opens and closes nothing.
theorem plain_of_connective {op : Connective} (hop : op ≠ .Value .NotIdentical) :
    ∃ kind, op.lexemes.map Lexeme.kind = [kind] ∧ (∀ stack, kind.delimit stack = some stack) ∧
      kind ≠ .Garbage := by
  rcases op with op | _ | _ | _
  · cases op with
    | NotIdentical => exact absurd rfl hop
    | _ => exact ⟨_, rfl, fun _ => rfl, by simp [Lexeme.sign, Lexeme.word]⟩
  all_goals exact ⟨_, rfl, fun _ => rfl, by simp [Lexeme.sign, Lexeme.word]⟩

theorem clean_skip_ahead {kind : TokenKind} {kinds : List TokenKind}
    (hstep : kind.delimit stack = some stack) (hknown : kind ≠ .Garbage) :
    Ensures (fun rest => Midway tokens bound stack fact rest ∧ Ahead (kind :: kinds) rest) skip
      fun _ rest => Midway tokens bound stack fact rest ∧ Ahead kinds rest := by
  refine .skip (fun token rest h => ?_) fun h => nomatch (ahead_cons.mp h.2).1
  obtain ⟨hmidway, hahead⟩ := h
  obtain ⟨hnext, hrest⟩ := ahead_cons.mp hahead
  obtain rfl := Option.some.inj hnext
  exact ⟨(hmidway.step hstep hknown).mono (Nat.sub_le _ _) id, hrest⟩

-- What a round of a chain leaves, whether another one follows or not.
def LinksClean (tokens : List Token) (bound : Nat) (stack : List Delimiter) (fact : Prop) :
    Round Expr Expr → List Token → Prop :=
  Round.meets (fun next => Midway tokens bound stack (fact ∧ next.AllWritten))
    fun last => Midway tokens bound stack (fact ∧ last.AllWritten)

include hself

theorem clean_readArguments :
    Ensures (AtList tokens bound stack fact) (readArguments self) fun arguments =>
      Midway tokens bound stack (fact ∧ ∀ argument ∈ arguments, argument.AllWritten) :=
  Ensures.here.bind fun opened => clean_skip_opening.bind fun _ =>
    (clean_listed fun _ _ => (hself .Assignment _ _ _).weaken (fun _ h => h) fun _ _ h =>
      h.mono (Nat.sub_le _ _) id).bind fun _ =>
    (clean_closeParen opened).bind fun _ => .pure fun _ h => h.mono (Nat.sub_le _ _) id

theorem clean_readParen (start : Nat) (opened : Span) :
    Ensures (Midway tokens bound (.Paren :: stack) fact) (readParen self start opened) fun expr =>
      Midway tokens bound stack (fact ∧ expr.AllWritten) :=
  (hself .Expression _ _ _).bind fun _ => (clean_closeParen opened).bind fun _ =>
    (Ensures.since start).bind fun _ => .pure fun _ h => h.mono (by omega) fun ⟨hfact, hinner⟩ =>
      ⟨hfact, Expr.AllWritten.of_one trivial rfl hinner⟩

theorem clean_readAssert (start : Nat) :
    Ensures (Midway tokens bound stack fact) (readAssert self start) fun expr =>
      Midway tokens bound stack (fact ∧ expr.AllWritten) := by
  refine Ensures.here.bind fun opened => (clean_expect _ rfl (by simp) rfl).bind fun _ =>
    (hself .Assignment _ _ _).bind fun condition => (clean_eat_plain rfl (by simp)).bind fun more => ?_
  have hbehind : ∀ message, Ensures
      (Midway tokens (bound - 1 - 1) (.Paren :: stack)
        ((fact ∧ condition.AllWritten) ∧ ∀ text ∈ message, text.AllWritten))
      (do closeParen opened; return Expr.Assert (← since start) condition message)
      fun expr => Midway tokens bound stack (fact ∧ expr.AllWritten) := by
    refine fun message => (clean_closeParen opened).bind fun _ => (Ensures.since start).bind fun _ =>
      .pure fun _ h => h.mono (by omega) ?_
    rintro ⟨⟨hfact, hcondition⟩, hmessage⟩
    refine ⟨hfact, .of_parts trivial fun part hpart => ?_⟩
    rcases List.mem_cons.mp hpart with rfl | hpart
    · exact hcondition
    · exact hmessage part (Option.mem_toList.mp hpart)
  cases more with
  | true => exact (clean_some ((hself .Assignment _ _ _).weaken (fun _ h => h) fun _ _ h =>
      h.mono (Nat.sub_le _ _) id)).bind hbehind
  | false => exact clean_none.bind hbehind

theorem clean_readDeclare (start : Nat) :
    Ensures (Midway tokens bound stack fact) (readDeclare self start) fun expr =>
      Midway tokens bound stack (fact ∧ expr.AllWritten) := by
  refine clean_expectName.bind fun found => ?_
  cases found with
  | none =>
      exact (Ensures.since start).bind fun _ => .pure fun _ h => nomatch h.fact.2
  | some name =>
      refine (clean_expect _ rfl (by simp) rfl).bind fun _ => (hself .Assignment _ _ _).bind fun _ =>
        (Ensures.since start).bind fun _ => .pure fun _ h => h.mono (by omega) ?_
      rintro ⟨hfound, hvalue⟩
      exact (valid_of_found hfound).imp_right fun hvalid => .of_one hvalid rfl hvalue

theorem clean_readTraits (start : Nat) :
    Ensures (Midway tokens bound stack fact) (readTraits self start) fun expr =>
      Midway tokens bound stack (fact ∧ expr.AllWritten) := by
  refine Ensures.here.bind fun opened => (clean_expect _ rfl (by simp) rfl).bind fun _ =>
    clean_expectName.bind fun trait => ?_
  have hbehind : ∀ known : Bool, Ensures
      (Midway tokens (bound - 1 - 1) (.Paren :: stack) (fact ∧ known = true)) (do
        let _ ← expect (.Sign .Comma) .UnexpectedToken
        let operand ← self .Assignment
        closeParen opened
        let span ← since start
        return if known then Expr.Compiles span operand else .Error span)
      fun expr => Midway tokens bound stack (fact ∧ expr.AllWritten) := by
    refine fun known => (clean_expect _ rfl (by simp) rfl).bind fun _ =>
      (hself .Assignment _ _ _).bind fun operand => (clean_closeParen opened).bind fun _ =>
      (Ensures.since start).bind fun span => .pure fun _ h => h.mono (by omega) ?_
    rintro ⟨⟨hfact, rfl⟩, hoperand⟩
    exact ⟨hfact, .of_one trivial rfl hoperand⟩
  cases trait with
  | none => exact (Ensures.pure fun _ h => nomatch h.fact.2).bind hbehind
  | some name =>
      exact .choose
        (fun _ => (Ensures.pure fun _ h => h.imp fun hfact => ⟨hfact.1, rfl⟩).bind hbehind)
        fun _ => (Ensures.complain rfl).bind fun _ => (Ensures.pure fun _ h => h.elim).bind hbehind

theorem clean_readPrimary :
    Ensures (Midway tokens bound stack fact) (readPrimary self) fun expr =>
      Midway tokens (bound - 1) stack (fact ∧ expr.AllWritten) := by
  refine Ensures.here.bind fun span => Ensures.inspect.bind fun next => ?_
  have hword : ∀ {word : Keyword} (node : Span → Expr),
      (∀ place, (node place).WellWritten) → (∀ place, (node place).parts = []) →
      Ensures (fun rest => Midway tokens bound stack fact rest ∧ nextKind rest = some (.Word word))
        (do skip; return node (← since span.start))
        fun expr => Midway tokens (bound - 1) stack (fact ∧ expr.AllWritten) :=
    fun node hwritten hparts => (clean_skip rfl (by simp)).bind fun _ => (Ensures.since _).bind
      fun place => .pure fun _ h => h.imp fun hfact => ⟨hfact, .of_leaf (hwritten place) (hparts place)⟩
  split
  · exact (Ensures.complain rfl).bind fun _ => .pure fun _ h => h.elim
  · exact (clean_take rfl (by simp)).bind fun _ => (Ensures.since _).bind fun _ => .pure fun _ h =>
      h.imp fun ⟨hfact, hvalid⟩ => ⟨hfact, .of_leaf hvalid rfl⟩
  · refine (clean_take rfl (by simp)).bind fun text => ?_
    exact .choose
      (fun hsmall => (Ensures.since _).bind fun _ => .pure fun _ h =>
        h.imp fun ⟨hfact, _⟩ => ⟨hfact, .of_leaf hsmall rfl⟩)
      fun _ => (Ensures.complain rfl).bind fun _ => (Ensures.since _).bind fun _ => .pure fun _ h => h.elim
  · exact (clean_take rfl (by simp)).bind fun text => (Ensures.since _).bind fun _ => .pure fun _ h =>
      h.imp fun ⟨hfact, hvalid⟩ => ⟨hfact, .of_leaf (by
        rw [Expr.WellWritten, Lexeme.quoted_quotedText hvalid]
        exact hvalid) rfl⟩
  · exact hword (Expr.Boolean · true) (fun _ => trivial) fun _ => rfl
  · exact hword (Expr.Boolean · false) (fun _ => trivial) fun _ => rfl
  · exact hword Expr.Null (fun _ => trivial) fun _ => rfl
  · exact (clean_skip rfl (by simp)).bind fun _ => clean_readParen hself _ span
  · exact clean_skip_tuple.bind fun _ => (clean_readArguments hself).bind fun _ =>
      (Ensures.since _).bind fun _ => .pure fun _ h => h.imp fun ⟨hfact, helements⟩ =>
        ⟨hfact, .of_parts trivial helements⟩
  · exact (clean_skip rfl (by simp)).bind fun _ => clean_readAssert hself _
  · exact (clean_skip rfl (by simp)).bind fun _ => clean_readDeclare hself _
  · exact (clean_skip rfl (by simp)).bind fun _ => clean_readTraits hself _
  · exact (Ensures.complain rfl).bind fun _ => .pure fun _ h => h.elim

theorem clean_readMember (start : Nat) (container : Expr) :
    Ensures (Midway tokens bound stack (fact ∧ container.AllWritten))
      (readMember self start container) fun expr =>
      Midway tokens bound stack (fact ∧ expr.AllWritten) := by
  refine clean_expectName.bind fun found => ?_
  cases found with
  | none => exact (Ensures.since start).bind fun _ => .pure fun _ h => nomatch h.fact.2
  | some name =>
      refine Ensures.weaken ?_ (fun _ h => h.imp And.left) fun _ _ h => h
      have hasked : Ensures (Midway tokens (bound - 1) stack (fact ∧ container.AllWritten))
          (isAt (.Sign .ParenOpen)) fun isCall rest =>
            Midway tokens (bound - 1) stack (fact ∧ container.AllWritten) rest ∧
              (isCall = true → nextKind rest = some (.Sign .ParenOpen)) := by
        refine (Ensures.isAt _).weaken (fun _ h => h) fun isCall rest h => ?_
        cases isCall with
        | true => exact ⟨h.1, fun _ => h.2⟩
        | false => exact ⟨h, nofun⟩
      have hother : Ensures (Midway tokens (bound - 1) stack (fact ∧ container.AllWritten))
          (pure false) fun isCall rest =>
            Midway tokens (bound - 1) stack (fact ∧ container.AllWritten) rest ∧
              (isCall = true → nextKind rest = some (.Sign .ParenOpen)) :=
        .pure fun _ h => ⟨h, nofun⟩
      refine .either (hasked.bind ?behind) (hother.bind ?behind)
      intro isCall
      cases isCall with
      | true =>
          refine Ensures.here.bind fun opened => ((clean_readArguments hself).weaken
            (fun _ h => ⟨h.1, fun _ => h.2 rfl⟩) fun _ _ h => h).bind fun arguments => ?_
          split
          · refine (Ensures.since start).bind fun _ => .pure fun _ h => h.mono (Nat.sub_le _ _) ?_
            rintro ⟨⟨hfact, hcontainer⟩, hkey⟩
            exact ⟨hfact, .of_two trivial rfl hcontainer (hkey _ List.mem_cons_self)⟩
          · exact (Ensures.since _).bind fun _ => (Ensures.complain rfl).bind fun _ =>
              (Ensures.since start).bind fun _ => .pure fun _ h => h.elim
      | false =>
          exact (Ensures.complain rfl).bind fun _ => (Ensures.since start).bind fun _ =>
            .pure fun _ h => h.elim

theorem clean_readAttachment (start : Nat) (operand : Expr) :
    Ensures (Midway tokens bound stack (fact ∧ operand.AllWritten))
      (readAttachment self start operand)
      (LinksClean tokens bound stack fact) := by
  refine Ensures.inspect.bind fun next => .choose (fun _ => Ensures.enter.bind fun _ =>
    (Ensures.inspect.weaken (fun _ h => h.1) fun _ _ h => h).bind fun next => ?_)
    fun _ => .pure fun _ h => h.1
  split
  · refine ((clean_readArguments hself).weaken (fun _ h => ⟨h.1, fun _ => h.2⟩) fun _ _ h => h).bind
      fun arguments => (Ensures.since start).bind fun _ => .pure fun _ h => h.imp ?_
    rintro ⟨⟨hfact, hcallee⟩, harguments⟩
    exact ⟨hfact, .of_parts trivial (List.forall_mem_cons.mpr ⟨hcallee, harguments⟩)⟩
  · refine Ensures.here.bind fun opened => (clean_skip rfl (by simp)).bind fun _ =>
      (hself .Assignment _ _ _).bind fun _ => (clean_close _ _ opened rfl rfl).bind fun _ =>
      (Ensures.since start).bind fun _ => .pure fun _ h => h.mono (by omega) ?_
    rintro ⟨⟨hfact, hbase⟩, hindex⟩
    exact ⟨hfact, .of_two trivial rfl hbase hindex⟩
  · exact (clean_skip rfl (by simp)).bind fun _ => (Ensures.since start).bind fun _ =>
      .pure fun _ h => h.mono (Nat.sub_le _ _) fun ⟨hfact, hoperand⟩ =>
        ⟨hfact, .of_one trivial rfl hoperand⟩
  · exact (clean_skip rfl (by simp)).bind fun _ => (Ensures.since start).bind fun _ =>
      .pure fun _ h => h.mono (Nat.sub_le _ _) fun ⟨hfact, hoperand⟩ =>
        ⟨hfact, .of_one trivial rfl hoperand⟩
  · exact (clean_skip rfl (by simp)).bind fun _ => (clean_readMember hself start operand).bind
      fun _ => .pure fun _ h => h.mono (Nat.sub_le _ _) id
  · exact .pure fun _ h => h.1

theorem clean_readAttached :
    Ensures (Midway tokens bound stack fact) (readAttached self) fun expr =>
      Midway tokens (bound - 1) stack (fact ∧ expr.AllWritten) :=
  .restoringDepth <| Ensures.here.bind fun _ => (clean_readPrimary hself).bind fun _ =>
    .rounds (fun operand => Midway tokens (bound - 1) stack (fact ∧ operand.AllWritten))
      fun operand => clean_readAttachment hself _ operand

theorem clean_readPower :
    Ensures (Midway tokens bound stack fact) (readPower self) fun expr =>
      Midway tokens (bound - 1) stack (fact ∧ expr.AllWritten) := by
  refine Ensures.here.bind fun _ => (clean_readAttached hself).bind fun base =>
    (clean_eat rfl (by simp)).bind fun _ => .branch ?_ (.pure fun _ h => h)
  refine (hself .Unary _ _ _).bind fun exponent => (Ensures.since _).bind fun _ =>
    .pure fun _ h => h.mono (by omega) ?_
  rintro ⟨⟨hfact, hbase⟩, hexponent⟩
  exact ⟨hfact, .of_two trivial rfl hbase hexponent⟩

theorem clean_readCast (start : Nat) :
    Ensures (fun rest => Midway tokens bound stack fact rest ∧ nextKind rest = some (.Word .Cast))
      (readCast self start) fun expr =>
      Midway tokens (bound - 1) stack (fact ∧ expr.AllWritten) := by
  refine (clean_skip rfl (by simp)).bind fun _ => Ensures.here.bind fun opened =>
    (clean_expect _ rfl (by simp) rfl).bind fun _ => (hself .Type _ _ _).bind fun type =>
    (clean_closeParen opened).bind fun _ => (hself .Unary _ _ _).bind fun operand =>
    (Ensures.since start).bind fun _ => .pure fun _ h => h.mono (by omega) ?_
  rintro ⟨⟨hfact, htype⟩, hoperand⟩
  exact ⟨hfact, .of_one htype rfl hoperand⟩

omit hself in
theorem clean_readNew (start : Nat) :
    Ensures (fun rest => Midway tokens bound stack fact rest ∧ nextKind rest = some (.Word .New))
      (readNew start) fun expr =>
      Midway tokens (bound - 1) stack (fact ∧ expr.AllWritten) := by
  refine (clean_skip rfl (by simp)).bind fun _ => (clean_eat rfl (by simp)).bind fun _ =>
    .branch ?anonymous ?named
  case anonymous =>
    exact Ensures.here.bind fun opened => (clean_expect _ rfl (by simp) rfl).bind fun _ =>
      (clean_close _ _ opened rfl rfl).bind fun _ => (Ensures.since start).bind fun _ =>
      .pure fun _ h => h.mono (by omega) fun hfact => ⟨hfact, .of_leaf trivial rfl⟩
  case named =>
    refine clean_expectName.bind fun found => ?_
    cases found with
    | none => exact (Ensures.since start).bind fun _ => .pure fun _ h => nomatch h.fact.2
    | some name =>
        refine (Ensures.since start).bind fun _ => .pure fun _ h => h.mono (by omega) ?_
        exact fun hfound => (valid_of_found hfound).imp_right fun hvalid => .of_leaf hvalid rfl

theorem clean_readUnary :
    Ensures (Midway tokens bound stack fact) (readUnary self) fun expr =>
      Midway tokens (bound - 1) stack (fact ∧ expr.AllWritten) := by
  refine Ensures.enter.bind fun _ => Ensures.here.bind fun _ => Ensures.inspect.bind fun next => ?_
  have hbehind : ∀ unary : Expr, Ensures
      (Midway tokens (bound - 1) stack (fact ∧ unary.AllWritten)) (do leave; return unary)
      fun expr => Midway tokens (bound - 1) stack (fact ∧ expr.AllWritten) :=
    fun unary => Ensures.leave.bind fun _ => .pure fun _ h => h
  split
  · exact (clean_readCast hself _).bind hbehind
  · exact (clean_readNew _).bind hbehind
  · split
    · next op hop =>
      obtain ⟨kind, rfl, hkind⟩ := Option.bind_eq_some_iff.mp hop
      obtain ⟨hstep, hknown⟩ := plain_of_leadingOp hkind
      refine (clean_skip (hstep stack) hknown).bind fun _ => (hself .Unary _ _ _).bind fun operand =>
        (Ensures.since _).bind fun _ => (Ensures.pure fun _ h => h.mono (by omega) ?_).bind hbehind
      exact fun ⟨hfact, hoperand⟩ => ⟨hfact, .of_one trivial rfl hoperand⟩
    · exact ((clean_readPower hself).weaken (fun _ h => h.1) fun _ _ h => h).bind hbehind

theorem clean_readLink (level start : Nat) (left : Expr) :
    Ensures (Midway tokens bound stack (fact ∧ left.AllWritten)) (readLink self level start left)
      (LinksClean tokens bound stack fact) := by
  refine clean_readConnective.bind fun found => ?_
  cases found with
  | none => exact .pure fun _ h => h.1
  | some op =>
      refine .either (.pure fun _ h => h.1) (Ensures.enter.bind fun _ => ?_)
      have hbehind : Ensures (Midway tokens bound stack (fact ∧ left.AllWritten)) (do
          let right ← self (.Binary (op.level + 1))
          return Round.Again (Expr.Binary (← since start) op left right))
        (LinksClean tokens bound stack fact) := by
        refine (hself _ _ _ _).bind fun right => (Ensures.since start).bind fun _ =>
          .pure fun _ h => h.mono (Nat.sub_le _ _) ?_
        rintro ⟨⟨hfact, hleft⟩, hright⟩
        exact ⟨hfact, .of_two trivial rfl hleft hright⟩
      by_cases hop : op = .Value .NotIdentical
      · subst hop
        refine ((clean_skip_ahead rfl (by simp [Lexeme.sign])).weaken (fun _ h => ⟨h.1, h.2 _ rfl⟩)
          fun _ _ h => h).bind
          fun _ => ?_
        rw [if_pos rfl]
        exact ((clean_skip_ahead rfl (by simp [Lexeme.word])).weaken (fun _ h => h) fun _ _ h => h.1).bind
          fun _ => hbehind
      · obtain ⟨kind, hkinds, hstep, hknown⟩ := plain_of_connective hop
        refine ((clean_skip_ahead (hstep stack) hknown).weaken
          (fun _ h => ⟨h.1, hkinds ▸ h.2 op rfl⟩) fun _ _ h => h.1).bind fun _ => ?_
        rw [if_neg hop]
        exact hbehind

theorem clean_readBinary (level : Nat) :
    Ensures (Midway tokens bound stack fact) (readBinary self level) fun expr =>
      Midway tokens (bound - 1) stack (fact ∧ expr.AllWritten) :=
  .restoringDepth <| Ensures.here.bind fun _ => (hself .Unary _ _ _).bind fun _ =>
    .rounds (fun left => Midway tokens (bound - 1) stack (fact ∧ left.AllWritten))
      fun left => clean_readLink hself level _ left

theorem clean_readConditional :
    Ensures (Midway tokens bound stack fact) (readConditional self) fun expr =>
      Midway tokens (bound - 1) stack (fact ∧ expr.AllWritten) := by
  refine Ensures.here.bind fun _ => (hself _ _ _ _).bind fun condition =>
    (clean_eat rfl (by simp)).bind fun _ => .branch ?_ (.pure fun _ h => h)
  refine Ensures.enter.bind fun _ => (hself .Expression _ _ _).bind fun yes =>
    (clean_expect _ rfl (by simp) rfl).bind fun _ => (hself .Conditional _ _ _).bind fun no =>
    Ensures.leave.bind fun _ => (Ensures.since _).bind fun _ => .pure fun _ h => h.mono (by omega) ?_
  rintro ⟨⟨⟨hfact, hcondition⟩, hyes⟩, hno⟩
  refine ⟨hfact, .of_parts trivial ?_⟩
  exact List.forall_mem_cons.mpr ⟨hcondition, List.forall_mem_cons.mpr ⟨hyes,
    List.forall_mem_singleton.mpr hno⟩⟩

theorem clean_readAssignment :
    Ensures (Midway tokens bound stack fact) (readAssignment self) fun expr =>
      Midway tokens (bound - 1) stack (fact ∧ expr.AllWritten) := by
  refine Ensures.here.bind fun _ => (hself .Conditional _ _ _).bind fun target =>
    Ensures.inspect.bind fun next => ?_
  split
  · exact .pure fun _ h => h.1
  · next op hop =>
    obtain ⟨kind, rfl, hstep, hknown⟩ := plain_of_assignment hop
    refine (clean_skip (hstep stack) hknown).bind fun _ => Ensures.enter.bind fun _ =>
      (hself .Assignment _ _ _).bind fun value => Ensures.leave.bind fun _ =>
      (Ensures.since _).bind fun _ => .pure fun _ h => h.mono (by omega) ?_
    rintro ⟨⟨hfact, htarget⟩, hvalue⟩
    exact ⟨hfact, .of_two trivial rfl htarget hvalue⟩

theorem clean_readCommaLink (start : Nat) (first : Expr) :
    Ensures (Midway tokens bound stack (fact ∧ first.AllWritten)) (readCommaLink self start first)
      (LinksClean tokens bound stack fact) := by
  refine (clean_eat_plain rfl (by simp)).bind fun _ => .either ?_ (.pure fun _ h => h)
  refine Ensures.enter.bind fun _ => (hself .Assignment _ _ _).bind fun second =>
    (Ensures.since start).bind fun _ => .pure fun _ h => h.mono (Nat.sub_le _ _) ?_
  rintro ⟨⟨hfact, hfirst⟩, hsecond⟩
  exact ⟨hfact, .of_two trivial rfl hfirst hsecond⟩

theorem clean_readExpression :
    Ensures (Midway tokens bound stack fact) (readExpression self) fun expr =>
      Midway tokens (bound - 1) stack (fact ∧ expr.AllWritten) :=
  .restoringDepth <| Ensures.here.bind fun _ => (hself .Assignment _ _ _).bind fun _ =>
    .rounds (fun first => Midway tokens (bound - 1) stack (fact ∧ first.AllWritten))
      fun first => clean_readCommaLink hself _ first

end Grammar

end EffectLint
