import EffectLint.Proofs.Grammar.Levels

/-!
What stands in front of its operand is read as one unary expression with it.
-/

namespace EffectLint

open Parse

namespace Grammar

theorem leadingOp?_lexeme (op : LeadingOp) : leadingOp? op.lexeme.kind = some op := by
  rcases op with op | _ | _ | _ | op
  · cases op <;> rfl
  · rfl
  · rfl
  · rfl
  · cases op <;> rfl

theorem readsAs_Leading {span : Span} {op : LeadingOp} {operand : Expr}
    (h : ReadsAs (· .Unary) Level.power operand) :
    ReadsAs (· .Unary) Level.power (.Leading span op operand) := by
  refine ReadsAs.within readUnary ?_ fun _ => rfl
  obtain ⟨need, h⟩ := h
  refine ⟨need + 2, fun levels hlevels tokens after htokens hafter => ?_⟩
  rw [Expr.lexemes] at htokens
  obtain ⟨token, tokens, rfl, hkind, _, hoperand⟩ := map_lexeme_cons htokens
  refine (reads_enter _).bind (by omega) fun _ _ => (reads_here _).bind (by omega) fun start _ => ?_
  refine (reads_inspect _).bind (by omega) fun next hnext => ?_
  rw [List.cons_append, nextKind, hkind] at hnext
  have hleading : next.bind leadingOp? = some op := by rw [hnext, Option.bind_some, leadingOp?_lexeme]
  have hdone : Reads need (do
      skip
      let operand ← readWithin levels .Unary
      let place ← since start.start
      let unary ← Pure.pure (Expr.Leading place op operand)
      leave
      return unary) (token :: (tokens ++ after)) after
      (·.bare = .Leading ⟨0, 0⟩ op operand.bare) := by
    refine (reads_skip token _).bind (by omega) fun _ _ => ?_
    refine (h levels (by omega) tokens after hoperand hafter).bind (by omega) fun read hread => ?_
    refine (reads_since _ after).bind (by omega) fun place _ => ?_
    rw [pure_bind]
    exact (reads_leave after).bind (by omega) fun _ _ => .pure (by rw [Expr.bare, hread])
  rw [Expr.bare]
  split
  · next h => simp [leadingOp?] at hleading
  · next h => simp [leadingOp?] at hleading
  · rw [hleading]
    exact hdone.mono (by omega)

theorem readsAs_Cast {span : Span} {type : TypeTree} {operand : Expr} (htype : type.WellWritten)
    (h : ReadsAs (· .Unary) Level.power operand) :
    ReadsAs (· .Unary) Level.power (.Cast span type operand) := by
  refine ReadsAs.within readUnary ?_ fun _ => rfl
  obtain ⟨need, h⟩ := h
  obtain ⟨needType, htype⟩ := readsType_of_wellWritten htype
  refine ⟨need + needType + 4, fun levels hlevels tokens after htokens hafter => ?_⟩
  rw [Expr.lexemes] at htokens
  obtain ⟨token, tokens, rfl, hkind, _, hmore⟩ := map_lexeme_cons htokens
  obtain ⟨opening, tokens, rfl, hopening, _, hmore⟩ := map_lexeme_cons hmore
  obtain ⟨typeTokens, back, rfl, htypeTokens, hback⟩ := map_lexeme_append hmore
  obtain ⟨closing, tokens, rfl, hclosing, _, hoperand⟩ := map_lexeme_cons hback
  have hends : EndsType (closing :: (tokens ++ after)) := by
    simp [EndsType, nextKind, hclosing, Lexeme.sign]
  have hcast : ∀ start, Reads (need + needType + 2) (readCast (readWithin levels) start)
      (token :: opening :: (typeTokens ++ closing :: (tokens ++ after))) after
      (·.bare = .Cast ⟨0, 0⟩ type.bare operand.bare) := by
    intro start
    refine (reads_skip token _).bind (by omega) fun _ _ => (reads_here _).bind (by omega)
      fun opened _ => ?_
    refine (reads_expect _ hopening _).bind (by omega) fun _ _ => ?_
    refine (htype levels (by omega) typeTokens _ htypeTokens hends).bind (by omega)
      fun read hread => ?_
    refine (reads_close _ _ opened hclosing _).bind (by omega) fun _ _ => ?_
    refine (h levels (by omega) tokens after hoperand hafter).bind (by omega) fun read' hread' => ?_
    exact (reads_since _ after).bind (by omega)
      fun place _ => .pure (by rw [Expr.bare, hread, hread'])
  simp only [List.cons_append, List.append_assoc]
  rw [Expr.bare]
  refine (reads_enter _).bind (by omega) fun _ _ => (reads_here _).bind (by omega) fun start _ => ?_
  refine (reads_inspect _).bind (by omega) fun next hnext => ?_
  subst hnext
  simp only [nextKind, hkind, Lexeme.word]
  refine (hcast start.start).bind (by omega) fun unary hunary => ?_
  exact (reads_leave after).bind (by omega) fun _ _ => .pure hunary

theorem readsAs_New {span : Span} {target : Name} :
    ReadsAs (· .Unary) Level.power (.New span target) := by
  refine ReadsAs.within readUnary ?_ fun _ => rfl
  refine ⟨4, fun levels hlevels tokens after htokens hafter => ?_⟩
  rw [Expr.lexemes] at htokens
  obtain ⟨token, tokens, rfl, hkind, _, hmore⟩ := map_lexeme_cons htokens
  obtain ⟨name, tokens, rfl, hname, htext, hnil⟩ := map_lexeme_cons hmore
  obtain rfl := List.map_eq_nil_iff.mp hnil
  have hnew : ∀ start, Reads 2 (readNew start) (token :: name :: after) after
      (·.bare = .New ⟨0, 0⟩ ⟨target.text, ⟨0, 0⟩⟩) := by
    intro start
    refine (reads_skip token _).bind (by omega) fun _ _ => ?_
    have hclass : nextKind (name :: after) ≠ some (.Word .Class) := by
      simp [nextKind, hname, Lexeme.name]
    refine (reads_eat_other hclass).bind (by omega) fun found hfound => ?_
    rw [if_neg (by simp [hfound])]
    refine (reads_expectName hname after).bind (by omega) ?_
    rintro _ ⟨place, rfl⟩
    refine (reads_since _ after).bind (by omega) fun place _ => .pure ?_
    rw [Expr.bare, htext, Lexeme.name]
  simp only [List.cons_append, List.nil_append]
  rw [Expr.bare]
  refine (reads_enter _).bind (by omega) fun _ _ => (reads_here _).bind (by omega) fun start _ => ?_
  refine (reads_inspect _).bind (by omega) fun next hnext => ?_
  subst hnext
  simp only [nextKind, hkind, Lexeme.word]
  refine (hnew start.start).bind (by omega) fun unary hunary => ?_
  exact (reads_leave after).bind (by omega) fun _ _ => .pure hunary

theorem readsAs_NewAnonymous {span : Span} :
    ReadsAs (· .Unary) Level.power (.NewAnonymous span) := by
  refine ReadsAs.within readUnary ?_ fun _ => rfl
  refine ⟨5, fun levels hlevels tokens after htokens hafter => ?_⟩
  rw [Expr.lexemes] at htokens
  obtain ⟨token, tokens, rfl, hkind, _, hmore⟩ := map_lexeme_cons htokens
  obtain ⟨word, tokens, rfl, hword, _, hmore⟩ := map_lexeme_cons hmore
  obtain ⟨opening, tokens, rfl, hopening, _, hmore⟩ := map_lexeme_cons hmore
  obtain ⟨closing, tokens, rfl, hclosing, _, hnil⟩ := map_lexeme_cons hmore
  obtain rfl := List.map_eq_nil_iff.mp hnil
  have hnew : ∀ start, Reads 3 (readNew start) (token :: word :: opening :: closing :: after) after
      (·.bare = .NewAnonymous ⟨0, 0⟩) := by
    intro start
    refine (reads_skip token _).bind (by omega) fun _ _ => ?_
    refine (reads_eat hword _).bind (by omega) fun found hfound => ?_
    rw [if_pos hfound]
    refine (reads_here _).bind (by omega) fun opened _ => (reads_expect _ hopening _).bind (by omega)
      fun _ _ => ?_
    refine (reads_close _ _ opened hclosing _).bind (by omega) fun _ _ => ?_
    exact (reads_since _ after).bind (by omega) fun place _ => .pure (by rw [Expr.bare])
  simp only [List.cons_append, List.nil_append]
  rw [Expr.bare]
  refine (reads_enter _).bind (by omega) fun _ _ => (reads_here _).bind (by omega) fun start _ => ?_
  refine (reads_inspect _).bind (by omega) fun next hnext => ?_
  subst hnext
  simp only [nextKind, hkind, Lexeme.word]
  refine (hnew start.start).bind (by omega) fun unary hunary => ?_
  exact (reads_leave after).bind (by omega) fun _ _ => .pure hunary

end Grammar

end EffectLint
