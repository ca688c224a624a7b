import EffectLint.Proofs.Grammar.Primary

/-!
What is attached behind an operand is read with what stands before it as its operand.
-/

namespace EffectLint

open Parse

namespace Grammar

variable {span : Span} {operand : Expr}

theorem continuation_lt_primary (after : List Token) : continuation after < Level.primary := by
  unfold continuation
  split
  case h_11 =>
    cases hop : connective? after with
    | none => decide
    | some op =>
        have hlevel := level_le fun hpow => connective?_ne_pow after (hpow ▸ hop)
        exact Nat.lt_of_le_of_lt hlevel (by decide)
  all_goals decide

-- One round of the loop, behind the two looks at the token that starts the attachment.
theorem reads_readAttachment (need : Nat) {self : Reading} {start : Nat} {read : Expr}
    {token : Token} {rest after : List Token} {good : Round Expr Expr → Prop}
    (hstarts : startsAttachment (some token.kind) = true)
    (hread : Reads need (match some token.kind with
      | some (.Sign .ParenOpen) => do
          let arguments ← readArguments self
          return .Again (.Call (← since start) read arguments)
      | some (.Sign .BracketOpen) => do
          let opened ← here
          skip
          let index ← self .Assignment
          close .BracketClose .UnclosedBracket "index starts here" opened
          return .Again (.Index (← since start) read index)
      | some (.Sign .PlusPlus) => do
          skip
          return .Again (.Step (← since start) .Increment read)
      | some (.Sign .MinusMinus) => do
          skip
          return .Again (.Step (← since start) .Decrement read)
      | some (.Sign .Dot) => do
          skip
          return .Again (← readMember self start read)
      | _ => return .Done read) (token :: rest) after good) :
    Reads (need + 3) (readAttachment self start read) (token :: rest) after good := by
  refine (reads_inspect _).bind (by omega) fun next hnext => ?_
  rw [nextKind] at hnext
  rw [if_pos (by rw [hnext, hstarts])]
  refine (reads_enter _).bind (by omega) fun _ _ => (reads_inspect _).bind (by omega)
    fun next hnext => ?_
  rw [nextKind] at hnext
  subst hnext
  exact hread.mono (by omega)

theorem links_Call {arguments : List Expr}
    (h : ∀ argument ∈ arguments, ReadsAs (· .Assignment) Level.assign argument)
    (hopens : ∀ argument ∈ arguments, OpensItem argument) :
    Links readAttachment Level.primary operand (.Call span operand arguments)
      (Lexeme.sign .ParenOpen :: (Expr.listLexemes arguments ++ [Lexeme.sign .ParenClose])) := by
  obtain ⟨need, h⟩ := reads_arguments h hopens
  refine ⟨need + 3, fun levels hlevels start tokens after htokens _ read hread => ?_⟩
  obtain ⟨opening, back, rfl, hopening, _, hmore⟩ := map_lexeme_cons htokens
  obtain ⟨inside, back, rfl, hinside, hback⟩ := map_lexeme_append hmore
  obtain ⟨closing, back, rfl, hclosing, _, hnil⟩ := map_lexeme_cons hback
  obtain rfl := List.map_eq_nil_iff.mp hnil
  rw [List.cons_append, List.append_assoc, List.singleton_append]
  refine reads_readAttachment need (by rw [hopening]; rfl) ?_
  simp only [hopening, Lexeme.sign]
  refine (h levels (by omega) opening inside closing after hclosing hinside).bind (by omega)
    fun found hfound => ?_
  refine (reads_since _ after).bind (by omega) fun place _ => .pure ⟨_, rfl, ?_⟩
  rw [Expr.bare, Expr.bare, hread, hfound]

theorem links_Index {index : Expr} (h : ReadsAs (· .Assignment) Level.assign index) :
    Links readAttachment Level.primary operand (.Index span operand index)
      (Lexeme.sign .BracketOpen :: (index.lexemes ++ [Lexeme.sign .BracketClose])) := by
  obtain ⟨need, h⟩ := h
  refine ⟨need + 4, fun levels hlevels start tokens after htokens _ read hread => ?_⟩
  obtain ⟨opening, back, rfl, hopening, _, hmore⟩ := map_lexeme_cons htokens
  obtain ⟨inside, back, rfl, hinside, hback⟩ := map_lexeme_append hmore
  obtain ⟨closing, back, rfl, hclosing, _, hnil⟩ := map_lexeme_cons hback
  obtain rfl := List.map_eq_nil_iff.mp hnil
  have hends := continuation_of_closing hclosing (.inr (.inl rfl)) after
  rw [List.cons_append, List.append_assoc, List.singleton_append]
  refine reads_readAttachment (need + 1) (by rw [hopening]; rfl) ?_
  simp only [hopening, Lexeme.sign]
  refine (reads_here _).bind (by omega) fun opened _ => (reads_skip opening _).bind (by omega)
    fun _ _ => ?_
  refine (h levels (by omega) inside _ hinside (by rw [hends]; decide)).bind (by omega)
    fun found hfound => ?_
  refine (reads_close _ _ opened hclosing after).bind (by omega) fun _ _ => ?_
  refine (reads_since _ after).bind (by omega) fun place _ => .pure ⟨_, rfl, ?_⟩
  rw [Expr.bare, Expr.bare, hread, hfound]

theorem links_Step {op : StepOp} :
    Links readAttachment Level.primary operand (.Step span op operand) [op.lexeme] := by
  refine ⟨3, fun levels hlevels start tokens after htokens _ read hread => ?_⟩
  obtain ⟨token, back, rfl, hkind, _, hnil⟩ := map_lexeme_cons htokens
  obtain rfl := List.map_eq_nil_iff.mp hnil
  rw [List.singleton_append]
  have hstep : ∀ op, Reads 0 (do
      skip
      let place ← since start
      return (.Again (.Step place op read) : Round Expr Expr)) (token :: after) after
      fun result => ∃ next, result = .Again next ∧ next.bare = (Expr.Step span op operand).bare := by
    intro op
    refine (reads_skip token _).bind (by omega) fun _ _ => (reads_since _ after).bind (by omega)
      fun place _ => ?_
    exact .pure ⟨_, rfl, by rw [Expr.bare, Expr.bare, hread]⟩
  cases op with
  | Increment =>
      refine reads_readAttachment 0 (by rw [hkind]; rfl) ?_
      simp only [hkind, StepOp.lexeme, Lexeme.sign]
      exact hstep _
  | Decrement =>
      refine reads_readAttachment 0 (by rw [hkind]; rfl) ?_
      simp only [hkind, StepOp.lexeme, Lexeme.sign]
      exact hstep _

theorem links_Remove {key : Expr} (h : ReadsAs (· .Assignment) Level.assign key)
    (hopens : OpensItem key) :
    Links readAttachment Level.primary operand (.Remove span operand key)
      (Lexeme.sign .Dot :: Lexeme.name "remove" :: Lexeme.sign .ParenOpen ::
        (key.lexemes ++ [Lexeme.sign .ParenClose])) := by
  obtain ⟨need, h⟩ := @reads_arguments [key] (by simpa using h) (by simpa using hopens)
  refine ⟨need + 5, fun levels hlevels start tokens after htokens _ read hread => ?_⟩
  obtain ⟨dot, back, rfl, hdot, _, hmore⟩ := map_lexeme_cons htokens
  obtain ⟨name, back, rfl, hname, htext, hmore⟩ := map_lexeme_cons hmore
  obtain ⟨opening, back, rfl, hopening, _, hmore⟩ := map_lexeme_cons hmore
  obtain ⟨inside, back, rfl, hinside, hback⟩ := map_lexeme_append hmore
  obtain ⟨closing, back, rfl, hclosing, _, hnil⟩ := map_lexeme_cons hback
  obtain rfl := List.map_eq_nil_iff.mp hnil
  have hlist : inside.map Token.lexeme = Expr.listLexemes [key] := by
    rw [hinside, Expr.listLexemes, Lexeme.separator, Expr.listLexemes, List.append_nil,
      List.append_nil]
  have hmember : Reads (need + 2) (readMember (readWithin levels) start read)
      (name :: opening :: (inside ++ closing :: after)) after
      (·.bare = (Expr.Remove span operand key).bare) := by
    refine (reads_expectName hname _).bind (by omega) ?_
    rintro _ ⟨place, rfl⟩
    simp only [if_pos (show name.text = "remove" from htext)]
    refine (reads_isAt _ _).bind (by omega) fun found hfound => ?_
    rw [if_pos (by simp [hfound, nextKind, hopening, Lexeme.sign])]
    refine (reads_here _).bind (by omega) fun opened _ => ?_
    refine (h levels (by omega) opening inside closing after hclosing hlist).bind (by omega)
      fun found hfound => ?_
    rw [Expr.bareList_eq, Expr.bareList_eq] at hfound
    obtain ⟨key', rfl, hkey⟩ := List.map_eq_singleton_iff.mp hfound
    refine (reads_since _ after).bind (by omega) fun place _ => .pure ?_
    rw [Expr.bare, Expr.bare, hread, hkey]
  simp only [List.cons_append, List.append_assoc, List.nil_append]
  refine reads_readAttachment (need + 2) (by rw [hdot]; rfl) ?_
  simp only [hdot, Lexeme.sign]
  refine (reads_skip dot _).bind (by omega) fun _ _ => hmember.bind (by omega) fun next hnext => ?_
  exact .pure ⟨next, rfl, hnext⟩

theorem Chains.readsAttached {whole : Expr} {bound : Nat}
    (h : Chains readPrimary readAttachment bound whole) :
    ReadsAs readAttached (min bound Level.attached) whole := by
  refine h.done fun self start read after hafter => ?_
  refine (reads_inspect _).bind (by omega) fun next hnext => ?_
  rw [if_neg (by rw [hnext, startsAttachment_of_continuation hafter]; decide)]
  exact .pure rfl

end Grammar

end EffectLint
