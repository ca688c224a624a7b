import EffectLint.Proofs.Grammar.Clean

/-!
The delimiters that stand open in the middle of a text, and what each step of a quiet reading does
to them. The word `tuple` takes the token behind it whatever it is, so all that is said about
delimiters is said of texts where that token opens a list. A type that is read in a quiet reading is
well written, and its delimiters are closed.
-/

namespace EffectLint

inductive Delimiter where
  | Paren
  | Bracket
  | Brace
  deriving DecidableEq

-- What stands open behind a token, from the inside out. Nothing does where the token closes
-- anything but the innermost one.
def TokenKind.delimit (kind : TokenKind) (stack : List Delimiter) : Option (List Delimiter) :=
  match kind with
  | .Sign .ParenOpen => some (.Paren :: stack)
  | .Sign .BracketOpen => some (.Bracket :: stack)
  | .Sign .BraceOpen => some (.Brace :: stack)
  | .Sign .ParenClose => if stack.head? = some .Paren then some stack.tail else none
  | .Sign .BracketClose => if stack.head? = some .Bracket then some stack.tail else none
  | .Sign .BraceClose => if stack.head? = some .Brace then some stack.tail else none
  | _ => some stack

-- What stands open behind all tokens.
def unclosed : List Delimiter → List Token → Option (List Delimiter)
  | stack, [] => some stack
  | stack, token :: rest => (token.kind.delimit stack).bind fun stack => unclosed stack rest

-- Tokens that are all known and close what stands open in front of them, and nothing else.
structure Closes (stack : List Delimiter) (tokens : List Token) : Prop where
  known : ∀ token ∈ tokens, token.kind ≠ .Garbage
  closed : unclosed stack tokens = some []

theorem Closes.cons {stack stack' : List Delimiter} {token : Token} {rest : List Token}
    (h : Closes stack' rest) (hknown : token.kind ≠ .Garbage)
    (hstep : token.kind.delimit stack = some stack') : Closes stack (token :: rest) :=
  ⟨List.forall_mem_cons.mpr ⟨hknown, h.known⟩, by rw [unclosed, hstep]; exact h.closed⟩

open Parse

-- Whether every `tuple` is followed by an opening parenthesis.
def TuplesOpen : List Token → Prop
  | [] => True
  | token :: rest =>
      (token.kind = .Word .Tuple → nextKind rest = some (.Sign .ParenOpen)) ∧ TuplesOpen rest

instance TuplesOpen.decidable : (tokens : List Token) → Decidable (TuplesOpen tokens)
  | [] => inferInstanceAs (Decidable True)
  | _ :: rest =>
      have := TuplesOpen.decidable rest
      inferInstanceAs (Decidable (_ ∧ _))

-- In the middle of some tokens, where at most `bound` are left, those on the stack stand open and
-- a fact is known about what has been read.
structure Midway (tokens : List Token) (bound : Nat) (stack : List Delimiter) (fact : Prop)
    (rest : List Token) : Prop where
  fact : fact
  bound : rest.length ≤ bound
  sound : ∀ token ∈ rest, token.kind ≠ .Garbage → token.lexeme.Valid
  closes : TuplesOpen tokens → TuplesOpen rest ∧ (Closes stack rest → Closes [] tokens)

namespace Midway

variable {tokens rest : List Token} {bound bound' : Nat} {stack stack' : List Delimiter}
  {fact fact' : Prop}

theorem start (hsound : ∀ token ∈ tokens, token.kind ≠ .Garbage → token.lexeme.Valid) :
    Midway tokens tokens.length [] True tokens :=
  ⟨trivial, Nat.le_refl _, hsound, fun hopen => ⟨hopen, id⟩⟩

theorem mono (h : Midway tokens bound stack fact rest) (hbound : bound ≤ bound')
    (hfact : fact → fact') : Midway tokens bound' stack fact' rest :=
  ⟨hfact h.fact, Nat.le_trans h.bound hbound, h.sound, h.closes⟩

theorem imp (h : Midway tokens bound stack fact rest) (hfact : fact → fact') :
    Midway tokens bound stack fact' rest :=
  h.mono (Nat.le_refl _) hfact

theorem step {token : Token} (h : Midway tokens bound stack fact (token :: rest))
    (hstep : token.kind.delimit stack = some stack') (hknown : token.kind ≠ .Garbage) :
    Midway tokens (bound - 1) stack' fact rest := by
  refine ⟨h.fact, ?_, fun other hmem => h.sound other (List.mem_cons_of_mem _ hmem), fun hopen => ?_⟩
  · have hlength := h.bound
    rw [List.length_cons] at hlength
    omega
  · obtain ⟨hrest, hcloses⟩ := h.closes hopen
    exact ⟨hrest.2, fun hback => hcloses (hback.cons hknown hstep)⟩

end Midway

namespace Parse

variable {tokens : List Token} {bound : Nat} {stack stack' : List Delimiter} {fact : Prop}
  {kind : TokenKind}

theorem clean_take (hstep : kind.delimit stack = some stack') (hknown : kind ≠ .Garbage) :
    Ensures (fun rest => Midway tokens bound stack fact rest ∧ nextKind rest = some kind) take
      fun text => Midway tokens (bound - 1) stack' (fact ∧ (Lexeme.mk kind text).Valid) := by
  refine .take (fun token rest h => ?_) fun h => nomatch h.2
  obtain ⟨hmidway, hnext⟩ := h
  obtain rfl := Option.some.inj hnext
  have hvalid := hmidway.sound token List.mem_cons_self hknown
  exact (hmidway.step hstep hknown).imp fun hfact => ⟨hfact, hvalid⟩

theorem clean_skip (hstep : kind.delimit stack = some stack') (hknown : kind ≠ .Garbage) :
    Ensures (fun rest => Midway tokens bound stack fact rest ∧ nextKind rest = some kind) skip
      fun _ => Midway tokens (bound - 1) stack' fact :=
  (clean_take hstep hknown).bind fun _ => .pure fun _ h => h.imp And.left

theorem clean_eat (hstep : kind.delimit stack = some stack') (hknown : kind ≠ .Garbage) :
    Ensures (Midway tokens bound stack fact) (eat kind) fun found rest =>
      if found = true then Midway tokens (bound - 1) stack' fact rest
      else Midway tokens bound stack fact rest :=
  (Ensures.isAt kind).bind fun _ => .branch
    ((clean_skip hstep hknown).bind fun _ => .pure fun _ h => by rwa [if_pos rfl])
    (.pure fun _ h => by rwa [if_neg Bool.false_ne_true])

-- A token that opens and closes nothing, whether or not it is there.
theorem clean_eat_plain (hstep : kind.delimit stack = some stack) (hknown : kind ≠ .Garbage) :
    Ensures (Midway tokens bound stack fact) (eat kind) fun _ =>
      Midway tokens bound stack fact := by
  refine (clean_eat hstep hknown).weaken (fun _ h => h) fun found rest h => ?_
  split at h
  · exact h.mono (Nat.sub_le _ _) id
  · exact h

theorem clean_expect_found (missing : DiagnosticKind) (hstep : kind.delimit stack = some stack')
    (hknown : kind ≠ .Garbage) (hmissing : missing.severity = .Error) :
    Ensures (Midway tokens bound stack fact) (expect kind missing) fun found =>
      Midway tokens (bound - 1) stack' (fact ∧ found = true) :=
  (clean_eat hstep hknown).bind fun _ => .branch
    (.pure fun _ h => h.imp fun hfact => ⟨hfact, rfl⟩)
    (Ensures.here.bind fun _ => (Ensures.complain (beq_of_eq hmissing)).bind fun _ =>
      .pure fun _ h => h.elim)

theorem clean_expect (missing : DiagnosticKind) (hstep : kind.delimit stack = some stack')
    (hknown : kind ≠ .Garbage) (hmissing : missing.severity = .Error) :
    Ensures (Midway tokens bound stack fact) (expect kind missing) fun _ =>
      Midway tokens (bound - 1) stack' fact :=
  (clean_expect_found missing hstep hknown hmissing).weaken (fun _ h => h) fun _ _ h => h.imp And.left

theorem clean_expectName :
    Ensures (Midway tokens bound stack fact) expectName fun found =>
      Midway tokens (bound - 1) stack
        (fact ∧ ∃ name, found = some name ∧ (Lexeme.name name.text).Valid) := by
  refine (Ensures.isAt .Identifier).bind fun _ => .branch (Ensures.here.bind fun span =>
    (clean_take rfl (by simp)).bind fun text => .pure fun _ h => h.imp ?_)
    (Ensures.here.bind fun _ => (Ensures.complain rfl).bind fun _ => .pure fun _ h => h.elim)
  exact And.imp_right fun hvalid => ⟨⟨text, span⟩, rfl, hvalid⟩

theorem valid_of_found {name : Name}
    (h : fact ∧ ∃ written, some name = some written ∧ (Lexeme.name written.text).Valid) :
    fact ∧ (Lexeme.name name.text).Valid := by
  obtain ⟨hfact, written, hname, hvalid⟩ := h
  obtain rfl := Option.some.inj hname
  exact ⟨hfact, hvalid⟩

theorem clean_close {sign : Sign} (missing : DiagnosticKind) (opening : String) (opened : Span)
    (hstep : (TokenKind.Sign sign).delimit stack = some stack')
    (hmissing : missing.severity = .Error) :
    Ensures (Midway tokens bound stack fact) (close sign missing opening opened) fun _ =>
      Midway tokens (bound - 1) stack' fact :=
  (clean_eat hstep (by simp)).bind fun _ => .branch (.pure fun _ h => h)
    (Ensures.here.bind fun _ => (Ensures.report (beq_of_eq hmissing)).weaken (fun _ h => h)
      fun _ _ h => h.elim)

theorem clean_closeParen (opened : Span) :
    Ensures (Midway tokens bound (.Paren :: stack) fact) (closeParen opened) fun _ =>
      Midway tokens (bound - 1) stack fact :=
  clean_close _ _ opened rfl rfl

theorem clean_expectSemicolon :
    Ensures (Midway tokens bound stack fact) expectSemicolon fun _ =>
      Midway tokens (bound - 1) stack fact :=
  (clean_eat rfl (by simp)).bind fun _ => .branch (.pure fun _ h => h)
    (Ensures.here.bind fun _ => (Ensures.complain rfl).bind fun _ =>
      stepwise_kept.recoverStatement.ensures fun _ => id)

end Parse

-- What a reading of a nonterminal gives where nothing is wrong.
def Nonterminal.Good : (nonterminal : Nonterminal) → nonterminal.Result → Prop
  | .Expression, expr | .Assignment, expr | .Conditional, expr | .Binary _, expr | .Unary, expr =>
      Expr.AllWritten expr
  | .Type, type => TypeTree.WellWritten type
  | .Statement, statement => ∀ written ∈ statement, Statement.AllWritten written

namespace Grammar

open Parse

-- A reading of the nonterminals that closes what it opens and takes a token where there is one.
def ReadsClean (tokens : List Token) (self : Reading) : Prop :=
  ∀ nonterminal bound stack fact,
    Ensures (Midway tokens bound stack fact) (self nonterminal) fun result =>
      Midway tokens (bound - 1) stack (fact ∧ nonterminal.Good result)

variable {tokens : List Token} {bound : Nat} {stack : List Delimiter} {fact : Prop}

theorem clean_readPromises :
    Ensures (Midway tokens bound stack fact) readPromises fun _ =>
      Midway tokens bound stack fact :=
  .rounds (fun _ => Midway tokens bound stack fact) fun _ =>
    (clean_eat rfl (by simp)).bind fun _ => .branch
      (.pure fun _ h => h.mono (Nat.sub_le _ _) id)
      ((clean_eat rfl (by simp)).bind fun _ => .branch
        (.pure fun _ h => h.mono (Nat.sub_le _ _) id) (.pure fun _ h => h))

theorem clean_readBaseType :
    Ensures (Midway tokens bound stack fact) readBaseType fun type =>
      Midway tokens (bound - 1) stack (fact ∧ type.WellWritten) := by
  refine Ensures.here.bind fun span => Ensures.inspect.bind fun next => ?_
  split
  · exact (clean_skip rfl (by simp)).bind fun _ => .pure fun _ h => h.imp fun hfact => ⟨hfact, .Basic⟩
  · refine (clean_expectName.weaken (fun _ h => h.1) fun _ _ h => h).bind fun found => ?_
    cases found with
    | none => exact .pure fun _ h => h.imp fun ⟨_, _, hnone, _⟩ => nomatch hnone
    | some name =>
        exact .pure fun _ h => h.imp fun hfound => (valid_of_found hfound).imp_right .Named
  · exact (Ensures.complain rfl).bind fun _ => .pure fun _ h => h.elim

theorem clean_listed {α : Type} {item : Parse α} {good : α → Prop}
    (hitem : ∀ bound fact, Ensures (Midway tokens bound stack fact) item fun result =>
      Midway tokens bound stack (fact ∧ good result)) :
    Ensures (Midway tokens bound stack fact) (rounds #[] (listRound item)) fun found =>
      Midway tokens bound stack (fact ∧ ∀ one ∈ found.toList, good one) := by
  refine (Ensures.rounds (fun found => Midway tokens bound stack
    (fact ∧ ∀ one ∈ found.toList, good one)) fun found => ?_).weaken
    (fun _ h => h.imp fun hfact => ⟨hfact, fun _ hmem => nomatch hmem⟩) fun _ _ h => h
  refine (Ensures.isAt _).bind fun _ => .branch (.pure fun _ h => h.1) <|
    Ensures.atEnd.bind fun ends => ?_
  split
  · exact .pure fun _ h => h.1
  · refine ((hitem bound _).weaken (fun _ h => h.1) fun _ _ h => h).bind fun one =>
      (clean_eat_plain rfl (by simp)).bind fun more => ?_
    have hpushed : (fact ∧ ∀ one ∈ found.toList, good one) ∧ good one →
        fact ∧ ∀ other ∈ (found.push one).toList, good other := by
      rintro ⟨⟨hfact, hfound⟩, hone⟩
      refine ⟨hfact, fun other hmem => ?_⟩
      rw [Array.toList_push, List.mem_append, List.mem_singleton] at hmem
      rcases hmem with hmem | rfl
      · exact hfound other hmem
      · exact hone
    split
    · exact .pure fun _ h => h.imp hpushed
    · exact .pure fun _ h => h.imp hpushed

theorem clean_some {α : Type} {body : Parse α} {before : List Token → Prop} {good : α → Prop}
    (h : Ensures before body fun result => Midway tokens bound stack (fact ∧ good result)) :
    Ensures before (some <$> body) fun found =>
      Midway tokens bound stack (fact ∧ ∀ one ∈ found, good one) := by
  rw [map_eq_pure_bind]
  refine h.bind fun result => .pure fun _ h => h.imp ?_
  rintro ⟨hfact, hgood⟩
  refine ⟨hfact, fun other hmem => ?_⟩
  obtain rfl := Option.some.inj hmem
  exact hgood

theorem clean_none {α : Type} {good : α → Prop} :
    Ensures (Midway tokens bound stack fact) (pure none) fun found =>
      Midway tokens bound stack (fact ∧ ∀ one ∈ found, good one) :=
  .pure fun _ h => h.imp fun hfact => ⟨hfact, fun _ hmem => nomatch hmem⟩

section Types

variable {self : Reading} (hself : ReadsClean tokens self)

include hself

theorem clean_readParameter :
    Ensures (Midway tokens bound stack fact) (readParameter self) fun parameter =>
      Midway tokens bound stack (fact ∧ parameter.type.WellWritten ∧
        ∀ name ∈ parameter.name, (Lexeme.name name.text).Valid) := by
  refine (clean_eat_plain rfl (by simp)).bind fun isRef => (hself .Type _ _ _).bind fun type =>
    (Ensures.isAt _).bind fun _ => .branch ?named ?unnamed
  case named =>
    refine (clean_expectName.weaken (fun _ h => h.1) fun _ _ h => h).bind fun found => ?_
    refine .pure fun _ h => h.mono (by omega) ?_
    rintro ⟨⟨hfact, htype⟩, name, rfl, hvalid⟩
    refine ⟨hfact, htype, fun other hother => ?_⟩
    obtain rfl := Option.some.inj hother
    exact hvalid
  case unnamed =>
    rw [pure_bind]
    exact .pure fun _ h => h.mono (Nat.sub_le _ _) fun ⟨hfact, htype⟩ =>
      ⟨hfact, htype, fun _ hnone => nomatch hnone⟩

theorem clean_readParameters :
    Ensures (Midway tokens bound stack fact) (readParameters self) fun parameters =>
      Midway tokens bound stack (fact ∧ ∀ parameter ∈ parameters, parameter.type.WellWritten ∧
        ∀ name ∈ parameter.name, (Lexeme.name name.text).Valid) := by
  refine Ensures.here.bind fun opened => (clean_expect_found _ rfl (by simp) rfl).bind fun found => ?_
  cases found with
  | true =>
      refine ((clean_listed fun _ _ => clean_readParameter hself).weaken
        (fun _ h => h.imp And.left) fun _ _ h => h).bind fun parameters => ?_
      exact (clean_close _ _ opened rfl rfl).bind fun _ => .pure fun _ h => h.mono (by omega) id
  | false => exact .pure fun _ h => nomatch h.fact.2

theorem clean_readBracketSuffix (start : Nat) (element : TypeTree) :
    Ensures (fun rest => Midway tokens bound stack (fact ∧ element.WellWritten) rest ∧
        nextKind rest = some (.Sign .BracketOpen))
      (readBracketSuffix self start element) fun type =>
      Midway tokens bound stack (fact ∧ type.WellWritten) := by
  refine Ensures.here.bind fun opened => (clean_skip rfl (by simp)).bind fun _ =>
    (clean_eat rfl (by simp)).bind fun _ => .branch ?array ?map
  case array =>
    exact (Ensures.since start).bind fun _ => .pure fun _ h => h.mono (by omega) fun ⟨hfact, helement⟩ =>
      ⟨hfact, .Array helement⟩
  case map =>
    exact (hself .Type _ _ _).bind fun key => (clean_close _ _ opened rfl rfl).bind fun _ =>
      (Ensures.since start).bind fun _ => .pure fun _ h => h.mono (by omega)
        fun ⟨⟨hfact, helement⟩, hkey⟩ => ⟨hfact, .AssocArray helement hkey⟩

theorem clean_readCallableSuffix {keyword : Keyword} (start : Nat) (isDelegate : Bool) (result : TypeTree) :
    Ensures (fun rest => Midway tokens bound stack (fact ∧ result.WellWritten) rest ∧
        nextKind rest = some (.Word keyword))
      (readCallableSuffix self start isDelegate result) fun type =>
      Midway tokens bound stack (fact ∧ type.WellWritten) := by
  refine (clean_skip rfl (by simp)).bind fun _ => (clean_readParameters hself).bind fun parameters =>
    clean_readPromises.bind fun promises => (Ensures.since start).bind fun _ => .pure fun _ h =>
    h.mono (by omega) fun ⟨⟨hfact, hresult⟩, hparameters⟩ => ⟨hfact, .Callable hresult ?_ ?_⟩
  · exact fun parameter hmem => (hparameters parameter hmem).1
  · exact fun parameter hmem => (hparameters parameter hmem).2

theorem clean_readTypeSuffix (start : Nat) (type : TypeTree) :
    Ensures (Midway tokens bound stack (fact ∧ type.WellWritten)) (readTypeSuffix self start type)
      (Round.meets (fun next => Midway tokens bound stack (fact ∧ next.WellWritten))
        fun last => Midway tokens bound stack (fact ∧ last.WellWritten)) := by
  refine Ensures.inspect.bind fun next => ?_
  split
  · exact (clean_skip rfl (by simp)).bind fun _ => (Ensures.since start).bind fun _ =>
      .pure fun _ h => h.mono (by omega) fun ⟨hfact, htype⟩ => ⟨hfact, .Pointer htype⟩
  · exact (clean_readBracketSuffix hself start type).bind fun _ => .pure fun _ h => h
  · exact (clean_readCallableSuffix hself start false type).bind fun _ => .pure fun _ h => h
  · exact (clean_readCallableSuffix hself start true type).bind fun _ => .pure fun _ h => h
  · exact .pure fun _ h => h.1

theorem clean_readType :
    Ensures (Midway tokens bound stack fact) (readType self) fun type =>
      Midway tokens (bound - 1) stack (fact ∧ type.WellWritten) := by
  refine Ensures.here.bind fun start => clean_readBaseType.bind fun base => ?_
  split
  · exact .pure fun _ h => h
  · exact .rounds (fun type => Midway tokens (bound - 1) stack (fact ∧ type.WellWritten))
      fun type => clean_readTypeSuffix hself _ type

end Types

end Grammar

end EffectLint
