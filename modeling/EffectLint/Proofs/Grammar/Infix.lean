import EffectLint.Proofs.Grammar.Levels

/-!
What stands between its operands is read at its own level.
-/

namespace EffectLint

open Parse

namespace Grammar

variable {span : Span}

theorem readsAs_Pow {left right : Expr} (hleft : ReadsAs readAttached Level.attached left)
    (hright : ReadsAs (· .Unary) Level.power right) :
    ReadsAs readPower Level.power (.Binary span (.Value .Pow) left right) := by
  obtain ⟨need, hleft⟩ := hleft
  obtain ⟨need', hright⟩ := hright
  refine ⟨need + need' + 1, fun levels hlevels tokens after htokens hafter => ?_⟩
  rw [Expr.lexemes] at htokens
  obtain ⟨front, back, rfl, hfront, hback⟩ := map_lexeme_append htokens
  obtain ⟨token, back, rfl, hkind, _, hback⟩ := map_lexeme_cons hback
  have hpower : continuation (token :: (back ++ after)) = Level.power := by
    simp [continuation, nextKind, hkind, Lexeme.sign]
  rw [List.append_assoc, List.cons_append, Expr.bare]
  refine (reads_here _).bind (by omega) fun start _ => ?_
  refine (hleft levels (by omega) front _ hfront (by rw [hpower]; decide)).bind (by omega)
    fun base hbase => ?_
  refine (reads_eat hkind _).bind (by omega) fun found hfound => ?_
  rw [if_pos hfound]
  refine (hright levels (by omega) back after hback hafter).bind (by omega)
    fun exponent hexponent => ?_
  exact (reads_since _ after).bind (by omega)
    fun place _ => .pure (by rw [Expr.bare, hbase, hexponent])

-- Only `!is` is spelled by two tokens.
theorem length_lexemes {op : Connective} (hpow : op ≠ .Value .Pow)
    (hidentical : op ≠ .Value .NotIdentical) : op.lexemes.length = 1 := by
  rcases op with op | _ | _ | _
  · cases op <;> first | rfl | contradiction
  all_goals rfl

theorem links_Binary {level : Nat} {op : Connective} {left right : Expr} (hop : op ≠ .Value .Pow)
    (hlevel : level ≤ op.level) (hright : ReadsAs (· (.Binary (op.level + 1))) (op.level + 1) right) :
    Links (readLink · level) (op.level + 1) left (.Binary span op left right)
      (op.lexemes ++ right.lexemes) := by
  obtain ⟨need, hright⟩ := hright
  refine ⟨need + 2, fun levels hlevels start tokens after htokens hafter read hread => ?_⟩
  obtain ⟨front, back, rfl, hfront, hback⟩ := map_lexeme_append htokens
  rw [List.append_assoc]
  have hconnective := connective?_lexemes hop hfront (back ++ after)
  have hrest : Reads need (do
      let right ← readWithin levels (.Binary (op.level + 1))
      let place ← since start
      return (Round.Again (Expr.Binary place op read right) : Round Expr Expr)) (back ++ after) after
      fun result => ∃ next, result = .Again next ∧
        next.bare = (Expr.Binary span op left right).bare := by
    refine (hright levels (by omega) back after hback hafter).bind (by omega) fun right' hright' => ?_
    refine (reads_since _ after).bind (by omega) fun place _ => .pure ⟨_, rfl, ?_⟩
    rw [Expr.bare, Expr.bare, hread, hright']
  refine (reads_connective _).bind (by omega) fun found hfound => ?_
  rw [hconnective] at hfound
  subst hfound
  simp only [if_neg (Nat.not_lt.mpr hlevel)]
  refine (reads_enter _).bind (by omega) fun _ _ => ?_
  by_cases hidentical : op = .Value .NotIdentical
  · subst hidentical
    obtain ⟨bang, front, rfl, _, _, hmore⟩ := map_lexeme_cons hfront
    obtain ⟨word, front, rfl, _, _, hnil⟩ := map_lexeme_cons hmore
    obtain rfl := List.map_eq_nil_iff.mp hnil
    refine (reads_skip bang _).bind (by omega) fun _ _ => ?_
    rw [if_pos rfl]
    exact (reads_skip word _).bind (by omega) fun _ _ => hrest.mono (by omega)
  · have hlength : front.length = 1 := by
      rw [← List.length_map Token.lexeme, hfront, length_lexemes hop hidentical]
    obtain ⟨token, rfl⟩ := List.length_eq_one_iff.mp hlength
    refine (reads_skip token _).bind (by omega) fun _ _ => ?_
    rw [if_neg hidentical]
    exact hrest.mono (by omega)

theorem readsAs_Conditional {condition yes no : Expr}
    (hcondition : ReadsAs (· (.Binary Level.orOr)) Level.orOr condition)
    (hyes : ReadsAs (· .Expression) Level.comma yes)
    (hno : ReadsAs (· .Conditional) Level.conditional no) :
    ReadsAs (· .Conditional) Level.conditional (.Conditional span condition yes no) := by
  refine ReadsAs.within readConditional ?_ fun _ => rfl
  obtain ⟨need, hcondition⟩ := hcondition
  obtain ⟨needYes, hyes⟩ := hyes
  obtain ⟨needNo, hno⟩ := hno
  refine ⟨need + needYes + needNo + 3, fun levels hlevels tokens after htokens hafter => ?_⟩
  rw [Expr.lexemes] at htokens
  obtain ⟨front, back, rfl, hfront, hback⟩ := map_lexeme_append htokens
  obtain ⟨question, back, rfl, hquestion, _, hback⟩ := map_lexeme_cons hback
  obtain ⟨middle, back, rfl, hmiddle, hback⟩ := map_lexeme_append hback
  obtain ⟨colon, back, rfl, hcolon, _, hback⟩ := map_lexeme_cons hback
  have hends : continuation (question :: (middle ++ colon :: (back ++ after))) =
      Level.conditional := by
    simp [continuation, nextKind, hquestion, Lexeme.sign]
  have hends' : continuation (colon :: (back ++ after)) < Level.comma := by
    simp [continuation, connective?, connectiveOf, nextKind, hcolon, Lexeme.sign]
  simp only [List.append_assoc, List.cons_append]
  rw [Expr.bare]
  refine (reads_here _).bind (by omega) fun start _ => ?_
  refine (hcondition levels (by omega) front _ hfront (by rw [hends]; decide)).bind (by omega)
    fun read hread => ?_
  refine (reads_eat hquestion _).bind (by omega) fun found hfound => ?_
  rw [if_pos hfound]
  refine (reads_enter _).bind (by omega) fun _ _ => ?_
  refine (hyes levels (by omega) middle _ hmiddle hends').bind (by omega) fun readYes hreadYes => ?_
  refine (reads_expect _ hcolon _).bind (by omega) fun _ _ => ?_
  refine (hno levels (by omega) back after hback hafter).bind (by omega) fun readNo hreadNo => ?_
  refine (reads_leave after).bind (by omega) fun _ _ => (reads_since _ after).bind (by omega)
    fun place _ => .pure ?_
  rw [Expr.bare, hread, hreadYes, hreadNo]

theorem assignment?_storeLexeme (op : Option AssignOp) :
    assignment? (some (storeLexeme op).kind) = some op := by
  cases op <;> rfl

theorem readsAs_Assign {op : Option AssignOp} {target value : Expr}
    (htarget : ReadsAs (· .Conditional) Level.conditional target)
    (hvalue : ReadsAs (· .Assignment) Level.assign value) :
    ReadsAs (· .Assignment) Level.assign (.Assign span op target value) := by
  refine ReadsAs.within readAssignment ?_ fun _ => rfl
  obtain ⟨need, htarget⟩ := htarget
  obtain ⟨need', hvalue⟩ := hvalue
  refine ⟨need + need' + 2, fun levels hlevels tokens after htokens hafter => ?_⟩
  rw [Expr.lexemes] at htokens
  obtain ⟨front, back, rfl, hfront, hback⟩ := map_lexeme_append htokens
  obtain ⟨token, back, rfl, hkind, _, hback⟩ := map_lexeme_cons hback
  have hends : continuation (token :: (back ++ after)) = Level.assign := by
    cases op <;> simp [continuation, nextKind, hkind, storeLexeme, Lexeme.sign, Lexeme.assign]
  rw [List.append_assoc, List.cons_append, Expr.bare]
  refine (reads_here _).bind (by omega) fun start _ => ?_
  refine (htarget levels (by omega) front _ hfront (by rw [hends]; decide)).bind (by omega)
    fun read hread => ?_
  refine (reads_inspect _).bind (by omega) fun next hnext => ?_
  rw [nextKind, hkind] at hnext
  rw [hnext, assignment?_storeLexeme]
  refine (reads_skip token _).bind (by omega) fun _ _ => (reads_enter _).bind (by omega) fun _ _ => ?_
  refine (hvalue levels (by omega) back after hback hafter).bind (by omega) fun read' hread' => ?_
  refine (reads_leave after).bind (by omega) fun _ _ => (reads_since _ after).bind (by omega)
    fun place _ => .pure ?_
  rw [Expr.bare, hread, hread']

theorem links_Comma {first second : Expr} (h : ReadsAs (· .Assignment) Level.assign second) :
    Links readCommaLink Level.assign first (.Comma span first second)
      (Lexeme.sign .Comma :: second.lexemes) := by
  obtain ⟨need, h⟩ := h
  refine ⟨need + 2, fun levels hlevels start tokens after htokens hafter read hread => ?_⟩
  obtain ⟨comma, back, rfl, hcomma, _, hback⟩ := map_lexeme_cons htokens
  refine (reads_eat hcomma _).bind (by omega) fun found hfound => ?_
  rw [if_pos hfound]
  refine (reads_enter _).bind (by omega) fun _ _ => ?_
  refine (h levels (by omega) back after hback hafter).bind (by omega) fun read' hread' => ?_
  refine (reads_since _ after).bind (by omega) fun place _ => .pure ⟨_, rfl, ?_⟩
  rw [Expr.bare, Expr.bare, hread, hread']

end Grammar

end EffectLint
