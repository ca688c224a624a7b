import EffectLint.Grammar.Production
import EffectLint.Proofs.Grammar.Listed
import EffectLint.Proofs.Grammar.Type

/-!
The levels of the grammar from prefix operators up to the comma: what one level reads the looser
levels read too. Three levels read a first operand and then chain further links behind it: what is
attached, the operators that climb, and the comma. An expression ends where the next token goes on
with something looser than what is being read.
-/

namespace EffectLint

open Parse

namespace Grammar

-- The operator between operands that the next token starts, with what comes behind that token.
def connectiveOf (next : Option TokenKind) (beyond : List Token) : Option Connective :=
  match next with
  | some (.Sign .OrOr) => some .OrOr
  | some (.Sign .AndAnd) => some .AndAnd
  | some (.Word .In) => some .In
  | some (.Sign .Bang) =>
      if beyond.head?.map Token.kind == some (.Word .Is) then some (.Value .NotIdentical)
      else none
  | some (.Sign .Bar) => some (.Value .BitOr)
  | some (.Sign .Caret) => some (.Value .BitXor)
  | some (.Sign .Ampersand) => some (.Value .BitAnd)
  | some (.Sign .EqualEqual) => some (.Value .Eq)
  | some (.Sign .NotEqual) => some (.Value .Ne)
  | some (.Sign .Less) => some (.Value .Lt)
  | some (.Sign .LessEqual) => some (.Value .Le)
  | some (.Sign .Greater) => some (.Value .Gt)
  | some (.Sign .GreaterEqual) => some (.Value .Ge)
  | some (.Word .Is) => some (.Value .Identical)
  | some (.Sign .ShiftLeft) => some (.Value .Shl)
  | some (.Sign .ShiftRight) => some (.Value .Shr)
  | some (.Sign .ShiftRightUnsigned) => some (.Value .Ushr)
  | some (.Sign .Plus) => some (.Value .Add)
  | some (.Sign .Minus) => some (.Value .Sub)
  | some (.Sign .Tilde) => some (.Value .Concat)
  | some (.Sign .Star) => some (.Value .Mul)
  | some (.Sign .Slash) => some (.Value .Div)
  | some (.Sign .Percent) => some (.Value .Mod)
  | _ => none

def connective? (before : List Token) : Option Connective :=
  connectiveOf (nextKind before) before.tail

theorem reads_connective (before : List Token) :
    Reads 1 readConnective before before (· = connective? before) := by
  refine (reads_inspect before).bind (by omega) fun next hnext => ?_
  rw [connective?, ← hnext]
  clear hnext
  split
  case h_4 =>
    refine (reads_beyond before).bind (by omega) fun more hmore => ?_
    subst hmore
    rw [connectiveOf]
    split <;> exact .pure rfl
  case h_24 => exact .pure (by unfold connectiveOf; split <;> first | rfl | contradiction)
  all_goals exact .pure rfl

theorem level_pos (op : Connective) : Level.orOr ≤ op.level := by
  rcases op with op | _ | _ | _
  · cases op <;> decide
  all_goals decide

theorem connective?_ne_pow (before : List Token) : connective? before ≠ some (.Value .Pow) := by
  unfold connective? connectiveOf
  split
  case h_4 => split <;> simp
  all_goals simp

theorem level_le {op : Connective} (h : op ≠ .Value .Pow) : op.level ≤ Level.multiply := by
  rcases op with op | _ | _ | _
  · cases op <;> first | decide | exact absurd rfl h
  all_goals decide

theorem connective?_lexemes {op : Connective} (h : op ≠ .Value .Pow) {tokens : List Token}
    (htokens : tokens.map Token.lexeme = op.lexemes) (after : List Token) :
    connective? (tokens ++ after) = some op := by
  rcases op with op | _ | _ | _
  · cases op <;> try
      obtain ⟨token, tokens, rfl, hkind, _, hnil⟩ := map_lexeme_cons htokens
      obtain rfl := List.map_eq_nil_iff.mp hnil
      simp [connective?, connectiveOf, nextKind, hkind, Lexeme.sign, Lexeme.word]
    · exact absurd rfl h
    · obtain ⟨token, tokens, rfl, hkind, _, hmore⟩ := map_lexeme_cons htokens
      obtain ⟨second, tokens, rfl, hsecond, _, hnil⟩ := map_lexeme_cons hmore
      simp [connective?, connectiveOf, nextKind, hkind, hsecond, Lexeme.sign, Lexeme.word]
  all_goals
    obtain ⟨token, tokens, rfl, hkind, _, hnil⟩ := map_lexeme_cons htokens
    simp [connective?, connectiveOf, nextKind, hkind, Lexeme.sign, Lexeme.word]

-- How tightly the next token can hold on to what stands before it, and nothing where it cannot.
def continuation (before : List Token) : Nat :=
  match nextKind before with
  | some (.Sign .Comma) => Level.comma
  | some (.Sign .Equal) | some (.Assign _) => Level.assign
  | some (.Sign .Question) => Level.conditional
  | some (.Sign .Power) => Level.power
  | some (.Sign .ParenOpen) | some (.Sign .BracketOpen) | some (.Sign .PlusPlus)
  | some (.Sign .MinusMinus) | some (.Sign .Dot) => Level.attached
  | _ => (connective? before).elim 0 Connective.level

section

variable {before : List Token}

theorem comma_of_continuation (h : continuation before < Level.comma) :
    nextKind before ≠ some (.Sign .Comma) := by
  intro hnext
  simp [continuation, hnext] at h

theorem assignment?_of_continuation (h : continuation before < Level.assign) :
    assignment? (nextKind before) = none := by
  unfold assignment?
  split <;> simp_all [continuation]

theorem question_of_continuation (h : continuation before < Level.conditional) :
    nextKind before ≠ some (.Sign .Question) := by
  intro hnext
  simp [continuation, hnext] at h

theorem power_of_continuation (h : continuation before < Level.power) :
    nextKind before ≠ some (.Sign .Power) := by
  intro hnext
  simp [continuation, hnext] at h

theorem startsAttachment_of_continuation (h : continuation before < Level.attached) :
    startsAttachment (nextKind before) = false := by
  unfold startsAttachment
  split <;> simp_all [continuation]

theorem continuation_of_connective? {op : Connective} (h : connective? before = some op) :
    continuation before = op.level := by
  unfold continuation
  split
  case h_11 => rw [h, Option.elim_some]
  all_goals
    next hnext => simp [connective?, connectiveOf, hnext] at h

theorem level_of_continuation {bound : Nat} (h : continuation before < bound) {op : Connective}
    (hop : connective? before = some op) : op.level < bound := by
  rwa [continuation_of_connective? hop] at h

end

end Grammar

open Parse

namespace Grammar

-- What is written as `whole` is read as `whole`, where nothing behind it holds on as tightly as
-- `bound`.
def ReadsAs (body : Reading → Parse Expr) (bound : Nat) (whole : Expr) : Prop :=
  ∃ need, ∀ levels, need ≤ levels → ∀ tokens after, tokens.map Token.lexeme = whole.lexemes →
    continuation after < bound →
    Reads need (body (readWithin levels)) (tokens ++ after) after (·.bare = whole.bare)

theorem ReadsAs.mono {body : Reading → Parse Expr} {bound bound' : Nat} {whole : Expr}
    (h : ReadsAs body bound whole) (hbound : bound' ≤ bound) : ReadsAs body bound' whole := by
  obtain ⟨need, h⟩ := h
  exact ⟨need, fun levels hlevels tokens after htokens hafter =>
    h levels hlevels tokens after htokens (by omega)⟩

-- A nonterminal is read by its production, one level deeper.
theorem ReadsAs.within (body : Reading → Parse Expr) {outer : Reading → Parse Expr} {bound : Nat}
    {whole : Expr} (h : ReadsAs body bound whole)
    (houter : ∀ levels, outer (readWithin (levels + 1)) = body (readWithin levels)) :
    ReadsAs outer bound whole := by
  obtain ⟨need, h⟩ := h
  refine ⟨need + 1, fun levels hlevels tokens after htokens hafter => ?_⟩
  obtain ⟨levels, rfl⟩ : ∃ fewer, levels = fewer + 1 := ⟨levels - 1, by omega⟩
  rw [houter]
  exact (h levels (by omega) tokens after htokens hafter).mono (Nat.le_succ need)

section

variable {first : Reading → Parse Expr} {further : Reading → Nat → Expr → Parse (Round Expr Expr)}
  {bound : Nat}

-- Reading comes to the links behind `whole` with `whole` as what is read so far.
def Chains (first : Reading → Parse Expr) (further : Reading → Nat → Expr → Parse (Round Expr Expr))
    (bound : Nat) (whole : Expr) : Prop :=
  ∃ need, ∀ levels, need ≤ levels → ∀ start tokens after,
    tokens.map Token.lexeme = whole.lexemes → continuation after < bound → ∀ need' last good,
    (∀ read, read.bare = whole.bare →
      Repeats need' (further (readWithin levels) start) read after last good) →
    Reads (need + need') (do
      let operand ← first (readWithin levels)
      rounds operand (further (readWithin levels) start)) (tokens ++ after) last good

theorem Chains.of_first {whole : Expr} (h : ReadsAs first bound whole) :
    Chains first further bound whole := by
  obtain ⟨need, h⟩ := h
  refine ⟨need, fun levels hlevels start tokens after htokens hafter need' last good hlinks => ?_⟩
  refine (h levels hlevels tokens after htokens hafter).bind (by omega) fun read hread => ?_
  exact (hlinks read hread).rounds.mono (by omega)

-- What one round adds to what is read so far.
def Links (further : Reading → Nat → Expr → Parse (Round Expr Expr)) (bound : Nat) (inner outer : Expr)
    (behind : List Lexeme) : Prop :=
  ∃ need, ∀ levels, need ≤ levels → ∀ start tokens after,
    tokens.map Token.lexeme = behind → continuation after < bound →
    ∀ read, read.bare = inner.bare →
      Reads need (further (readWithin levels) start read) (tokens ++ after) after
        fun result => ∃ next, result = .Again next ∧ next.bare = outer.bare

theorem Chains.link {inner outer : Expr} {behind : List Lexeme} {bound' : Nat}
    (hinner : Chains first further bound inner) (hlexemes : outer.lexemes = inner.lexemes ++ behind)
    (hbehind : ∀ tokens after, tokens.map Token.lexeme = behind →
      continuation (tokens ++ after) < bound)
    (hlink : Links further bound' inner outer behind) : Chains first further bound' outer := by
  obtain ⟨need, hinner⟩ := hinner
  obtain ⟨needLink, hlink⟩ := hlink
  refine ⟨need + needLink + 1,
    fun levels hlevels start tokens after htokens hafter need' last good hlinks => ?_⟩
  obtain ⟨front, back, rfl, hfront, hback⟩ := map_lexeme_append (htokens.trans hlexemes)
  rw [List.append_assoc]
  have htotal : need + needLink + 1 + need' = need + (needLink + 1 + need') := by omega
  rw [htotal]
  refine hinner levels (by omega) start front (back ++ after) hfront (hbehind back after hback)
    _ last good fun read hread => ?_
  have hround := hlink levels (by omega) start back after hback hafter read hread
  refine .again (hround.mono (Nat.le_succ needLink)) (by omega) (by omega) ?_
  rintro _ ⟨next, rfl, hnext⟩
  exact ⟨next, rfl, (hlinks next hnext).mono (by omega)⟩

-- Where nothing goes on, the chain is over.
theorem Chains.done {whole : Expr} {bound' : Nat} (h : Chains first further bound whole)
    (hstop : ∀ self start read after, continuation after < bound' →
      Reads 1 (further self start read) after after (· = .Done read)) :
    ReadsAs (fun self => restoringDepth do
      let start := (← here).start
      let operand ← first self
      rounds operand (further self start)) (min bound bound') whole := by
  obtain ⟨need, h⟩ := h
  refine ⟨need + 1, fun levels hlevels tokens after htokens hafter => .restoringDepth ?_⟩
  refine (reads_here _).bind (by omega) fun span _ => ?_
  refine h levels (by omega) span.start tokens after htokens (by omega) 1 after _ ?_
  intro read hread
  exact .done (hstop _ span.start read after (by omega)) (by omega) fun result hresult =>
    ⟨read, hresult, hread⟩

end

end Grammar

open Parse

namespace Grammar

-- Nothing that a prefix operator, a cast or `new` starts with.
def StartsOperand (first : Lexeme) : Prop :=
  first.kind ≠ .Word .Cast ∧ first.kind ≠ .Word .New ∧ leadingOp? first.kind = none

section

variable {whole : Expr} {bound : Nat}

theorem ReadsAs.power (h : ReadsAs readAttached bound whole) (hbound : bound ≤ Level.power) :
    ReadsAs readPower bound whole := by
  obtain ⟨need, h⟩ := h
  refine ⟨need + 1, fun levels hlevels tokens after htokens hafter => ?_⟩
  refine (reads_here _).bind (by omega) fun span _ => ?_
  refine (h levels (by omega) tokens after htokens hafter).bind (by omega) fun base hbase => ?_
  have hpower := power_of_continuation (Nat.lt_of_lt_of_le hafter hbound)
  refine (reads_eat_other hpower).bind (by omega) fun found hfound => ?_
  rw [if_neg (by simp [hfound])]
  exact .pure hbase

theorem ReadsAs.unary (h : ReadsAs readPower bound whole)
    (hfirst : ∃ first rest, whole.lexemes = first :: rest ∧ StartsOperand first) :
    ReadsAs (· .Unary) bound whole := by
  refine ReadsAs.within readUnary ?_ fun _ => rfl
  obtain ⟨need, h⟩ := h
  obtain ⟨first, rest, hfirst, hcast, hnew, hleading⟩ := hfirst
  refine ⟨need + 2, fun levels hlevels tokens after htokens hafter => ?_⟩
  have hread := h levels (by omega) tokens after htokens hafter
  obtain ⟨token, tokens, rfl, hkind, _⟩ := map_lexeme_cons (htokens.trans hfirst)
  refine (reads_enter _).bind (by omega) fun _ _ => (reads_here _).bind (by omega) fun span _ => ?_
  refine (reads_inspect _).bind (by omega) fun next hnext => ?_
  rw [List.cons_append, nextKind, hkind] at hnext
  subst hnext
  have hdone : Reads need (do
      let unary ← readPower (readWithin levels)
      leave
      return unary) (token :: tokens ++ after) after (·.bare = whole.bare) :=
    hread.bind (by omega) fun unary hunary => (reads_leave after).bind (by omega)
      fun _ _ => .pure hunary
  split
  · next h => exact absurd (Option.some.inj h) hcast
  · next h => exact absurd (Option.some.inj h) hnew
  · rw [Option.bind_some, hleading]
    exact hdone.mono (by omega)

theorem ReadsAs.binary (h : ReadsAs (· .Unary) bound whole) (level : Nat) :
    Chains (· .Unary) (readLink · level) bound whole :=
  .of_first h

-- An operator that binds more loosely than the level ends the chain.
theorem reads_readLink_done {level : Nat} {after : List Token} (hafter : continuation after < level)
    (self : Reading) (start : Nat) (read : Expr) :
    Reads 1 (readLink self level start read) after after (· = .Done read) := by
  refine (reads_connective after).bind (by omega) fun op hop => ?_
  cases op with
  | none => exact .pure rfl
  | some op =>
      have hlevel := level_of_continuation hafter hop.symm
      simp only [if_pos hlevel]
      exact .pure rfl

theorem Chains.readsBinary {level : Nat} (h : Chains (· .Unary) (readLink · level) bound whole) :
    ReadsAs (· (.Binary level)) (min bound level) whole :=
  .within (readBinary · level)
    (h.done fun self start read _ hafter => reads_readLink_done hafter self start read) fun _ => rfl

theorem ReadsAs.conditional (h : ReadsAs (· (.Binary Level.orOr)) bound whole)
    (hbound : bound ≤ Level.conditional) : ReadsAs (· .Conditional) bound whole := by
  refine ReadsAs.within readConditional ?_ fun _ => rfl
  obtain ⟨need, h⟩ := h
  refine ⟨need + 1, fun levels hlevels tokens after htokens hafter => ?_⟩
  refine (reads_here _).bind (by omega) fun span _ => ?_
  refine (h levels (by omega) tokens after htokens hafter).bind (by omega)
    fun condition hcondition => ?_
  have hquestion := question_of_continuation (Nat.lt_of_lt_of_le hafter hbound)
  refine (reads_eat_other hquestion).bind (by omega) fun found hfound => ?_
  rw [if_neg (by simp [hfound])]
  exact .pure hcondition

theorem ReadsAs.assignment (h : ReadsAs (· .Conditional) bound whole)
    (hbound : bound ≤ Level.assign) : ReadsAs (· .Assignment) bound whole := by
  refine ReadsAs.within readAssignment ?_ fun _ => rfl
  obtain ⟨need, h⟩ := h
  refine ⟨need + 1, fun levels hlevels tokens after htokens hafter => ?_⟩
  refine (reads_here _).bind (by omega) fun span _ => ?_
  refine (h levels (by omega) tokens after htokens hafter).bind (by omega) fun target htarget => ?_
  have hassign := assignment?_of_continuation (Nat.lt_of_lt_of_le hafter hbound)
  refine (reads_inspect _).bind (by omega) fun next hnext => ?_
  subst hnext
  rw [hassign]
  exact .pure htarget

theorem reads_readCommaLink_done {after : List Token} (hafter : continuation after < Level.comma)
    (self : Reading) (start : Nat) (read : Expr) :
    Reads 1 (readCommaLink self start read) after after (· = .Done read) := by
  refine (reads_eat_other (comma_of_continuation hafter)).bind (by omega) fun found hfound => ?_
  rw [if_neg (by simp [hfound])]
  exact .pure rfl

theorem Chains.readsExpression (h : Chains (· .Assignment) readCommaLink bound whole) :
    ReadsAs (· .Expression) (min bound Level.comma) whole :=
  .within readExpression
    (h.done fun self start read _ hafter => reads_readCommaLink_done hafter self start read)
    fun _ => rfl

end

end Grammar

end EffectLint
