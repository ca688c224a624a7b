import EffectLint.Token.Lexer

/-!
Longest matches. The first piece of a text is the longest front that some rule matches, and the
first rule that matches it gives its kind.
-/

namespace EffectLint

namespace Pattern

def accepts (pattern : Pattern) (text : List Char) : Bool :=
  (text.foldl (fun pattern char => pattern.derivative char) pattern).acceptsBlank

theorem accepts_iff (pattern : Pattern) (text : List Char) :
    pattern.accepts text = true ↔ Matches pattern text := by
  induction text generalizing pattern with
  | nil => exact acceptsBlank_iff pattern
  | cons char rest ih => exact (ih _).trans (matches_derivative char pattern rest)

end Pattern

namespace Rule

-- The kind that the first rule that matches a text gives to it.
def first? (rules : List Rule) (text : List Char) : Option (Option TokenKind) :=
  (rules.find? (·.pattern.accepts text)).map Rule.kind

theorem first?_eq_none_iff {rules : List Rule} {text : List Char} :
    first? rules text = none ↔ ∀ rule ∈ rules, ¬rule.pattern.Matches text := by
  simp only [first?, Option.map_eq_none_iff, List.find?_eq_none, Pattern.accepts_iff]

theorem exists_of_first? {rules : List Rule} {text : List Char} {kind : Option TokenKind}
    (h : first? rules text = some kind) :
    ∃ rule ∈ rules, rule.pattern.Matches text ∧ rule.kind = kind := by
  obtain ⟨rule, hfound, hkind⟩ := Option.map_eq_some_iff.mp h
  have hmatch : rule.pattern.accepts text = true := by simpa using List.find?_some hfound
  exact ⟨rule, List.mem_of_find?_eq_some hfound, (Pattern.accepts_iff _ _).mp hmatch, hkind⟩

theorem complete?_map_kind (rules : List Rule) :
    (complete? rules).map Rule.kind = first? rules [] := rfl

theorem first?_cons (rule : Rule) (rules : List Rule) (text : List Char) :
    first? (rule :: rules) text =
      if rule.pattern.accepts text then some rule.kind else first? rules text := by
  unfold first?
  rw [List.find?_cons]
  cases rule.pattern.accepts text <;> rfl

theorem advance_cons (char : Char) (rule : Rule) (rules : List Rule) :
    advance char (rule :: rules) =
      if (rule.pattern.derivative char).isNever then advance char rules
      else { rule with pattern := rule.pattern.derivative char } :: advance char rules := by
  unfold advance
  rw [List.filterMap_cons]
  cases hnever : (rule.pattern.derivative char).isNever <;> simp [hnever]

theorem accepts_of_isNever {pattern : Pattern} (hnever : pattern.isNever = true)
    (text : List Char) : pattern.accepts text = false := by
  cases pattern with
  | Never =>
      rw [← Bool.not_eq_true, Pattern.accepts_iff]
      exact fun h => nomatch h
  | _ => cases hnever

-- A rule that is given up matches nothing any more.
theorem first?_advance (char : Char) (rules : List Rule) (text : List Char) :
    first? (advance char rules) text = first? rules (char :: text) := by
  induction rules with
  | nil => rfl
  | cons rule rules ih =>
      have haccepts : rule.pattern.accepts (char :: text) =
          (rule.pattern.derivative char).accepts text := rfl
      rw [advance_cons, first?_cons, haccepts]
      by_cases hnever : (rule.pattern.derivative char).isNever = true
      · rw [if_pos hnever, accepts_of_isNever hnever, ih]
        rfl
      · rw [if_neg hnever, first?_cons, ih]

theorem first?_of_advance_nil {char : Char} {rules : List Rule}
    (hgone : advance char rules = []) (text : List Char) : first? rules (char :: text) = none := by
  rw [← first?_advance, hgone]
  rfl

end Rule

namespace Lexer

-- The longest front of the text that a rule matches, counted from what was read before.
structure LongestMatch (rules : List Rule) (text : List Char) (length : Nat)
    (kind : Option TokenKind) : Prop where
  positive : 0 < length
  inside : length ≤ text.length
  matched : Rule.first? rules (text.take length) = some kind
  longest : ∀ longer, length < longer → longer ≤ text.length →
    Rule.first? rules (text.take longer) = none

theorem LongestMatch.unique {rules : List Rule} {text : List Char} {length length' : Nat}
    {kind kind' : Option TokenKind} (h : LongestMatch rules text length kind)
    (h' : LongestMatch rules text length' kind') : length = length' ∧ kind = kind' := by
  rcases Nat.lt_trichotomy length length' with hlt | rfl | hlt
  · have hnone := h.longest length' hlt h'.inside
    rw [h'.matched] at hnone
    cases hnone
  · have hsame := h.matched.symm.trans h'.matched
    cases hsame
    exact ⟨rfl, rfl⟩
  · have hnone := h'.longest length hlt h.inside
    rw [h.matched] at hnone
    cases hnone

-- A match behind the first character is one behind what the rules leave of it.
theorem LongestMatch.cons {char : Char} {rules : List Rule} {rest : List Char} {length : Nat}
    {kind : Option TokenKind} (h : LongestMatch (Rule.advance char rules) rest length kind) :
    LongestMatch rules (char :: rest) (length + 1) kind where
  positive := Nat.succ_pos length
  inside := Nat.succ_le_succ h.inside
  matched := by
    rw [List.take_succ_cons, ← Rule.first?_advance]
    exact h.matched
  longest := by
    intro longer hlonger hinside
    cases longer with
    | zero => omega
    | succ longer =>
        rw [List.take_succ_cons, ← Rule.first?_advance]
        rw [List.length_cons] at hinside
        exact h.longest longer (by omega) (by omega)

theorem munchFrom_spec (rules : List Rule) (munch : Munch) (text : List Char) :
    (∃ length kind, LongestMatch rules text length kind ∧
      (munchFrom rules munch text).longest = some (munch.reach + length, kind)) ∨
    ((∀ length, 0 < length → length ≤ text.length →
        Rule.first? rules (text.take length) = none) ∧
      (munchFrom rules munch text).longest = munch.longest) := by
  induction text generalizing rules munch with
  | nil =>
      refine .inr ⟨?_, rfl⟩
      intro length hpositive hlength
      rw [List.length_nil] at hlength
      omega
  | cons char rest ih =>
      rw [munchFrom]
      cases hlive : Rule.advance char rules with
      | nil =>
          refine .inr ⟨?_, rfl⟩
          intro length hpositive _
          obtain ⟨shorter, rfl⟩ := Nat.exists_eq_add_of_lt hpositive
          rw [Nat.zero_add, List.take_succ_cons]
          exact Rule.first?_of_advance_nil hlive _
      | cons rule live =>
          simp only
          have hhere := Rule.first?_advance char rules []
          rw [hlive, ← Rule.complete?_map_kind] at hhere
          rcases ih (rule :: live) _ with ⟨length, kind, hmatch, hlongest⟩ | ⟨hnone, hlongest⟩
          · refine .inl ⟨length + 1, kind, .cons (hlive ▸ hmatch), ?_⟩
            rw [hlongest, Nat.add_assoc, Nat.add_comm 1]
          · rw [hlongest]
            have hlater : ∀ length, 1 < length → length ≤ rest.length + 1 →
                Rule.first? rules ((char :: rest).take length) = none := by
              intro length hlength hinside
              obtain ⟨shorter, rfl⟩ := Nat.exists_eq_add_of_lt (Nat.zero_lt_of_lt hlength)
              rw [Nat.zero_add, List.take_succ_cons, ← Rule.first?_advance, hlive]
              exact hnone shorter (by omega) (by omega)
            cases hcomplete : Rule.complete? (rule :: live) with
            | some complete =>
                rw [hcomplete] at hhere
                refine .inl ⟨1, complete.kind, ⟨Nat.one_pos, by simp, ?_, hlater⟩, rfl⟩
                rw [List.take_succ_cons, List.take_zero]
                exact hhere.symm
            | none =>
                rw [hcomplete] at hhere
                refine .inr ⟨?_, rfl⟩
                intro length hpositive hinside
                by_cases hone : length = 1
                · subst hone
                  rw [List.take_succ_cons, List.take_zero]
                  exact hhere.symm
                · exact hlater length (by omega) hinside

-- The first piece is the longest match where there is any.
theorem firstPiece_of_longest {text : List Char} {length : Nat} {kind : Option TokenKind}
    (h : LongestMatch Rule.all text length kind) :
    firstPiece text = (.ofRule kind, length) := by
  unfold firstPiece
  rcases munchFrom_spec Rule.all ⟨0, none⟩ text with ⟨length', kind', h', hmunch⟩ | ⟨hnone, _⟩
  · obtain ⟨rfl, rfl⟩ := h.unique h'
    have hlongest : (munch text).longest = some (length, kind) := by
      rw [munch, hmunch, Nat.zero_add]
    simp only [hlongest]
  · have hmatched := h.matched
    rw [hnone length h.positive h.inside] at hmatched
    cases hmatched

theorem firstPiece_positive (text : List Char) : 0 < (firstPiece text).2 := by
  unfold firstPiece
  rcases munchFrom_spec Rule.all ⟨0, none⟩ text with ⟨length, kind, h, hmunch⟩ | ⟨_, hmunch⟩
  · have hlongest : (munch text).longest = some (length, kind) := by
      rw [munch, hmunch, Nat.zero_add]
    simp only [hlongest]
    exact h.positive
  · have hlongest : (munch text).longest = none := by rw [munch, hmunch]
    simp only [hlongest]
    omega

theorem piecesFrom_found (bound : Nat) (text : List Char) (found : List Piece) :
    piecesFrom bound text found = found.reverse ++ piecesFrom bound text [] := by
  induction bound generalizing text found with
  | zero => simp [piecesFrom]
  | succ bound ih =>
      cases text with
      | nil => simp [piecesFrom]
      | cons char rest =>
          simp only [piecesFrom]
          rw [ih _ (_ :: found), ih _ [_]]
          simp

-- Every bound that leaves room for all characters gives the same pieces.
theorem piecesFrom_bound {bound bound' : Nat} {text : List Char} (hbound : text.length ≤ bound)
    (hbound' : text.length ≤ bound') : piecesFrom bound text [] = piecesFrom bound' text [] := by
  induction bound generalizing bound' text with
  | zero =>
      rw [List.length_eq_zero_iff.mp (Nat.le_zero.mp hbound)]
      cases bound' <;> rfl
  | succ bound ih =>
      cases text with
      | nil => cases bound' <;> rfl
      | cons char rest =>
          cases bound' with
          | zero => simp at hbound'
          | succ bound' =>
              have hpositive := firstPiece_positive (char :: rest)
              have hshorter : ((char :: rest).drop (firstPiece (char :: rest)).2).length ≤
                  rest.length := by
                rw [List.length_drop, List.length_cons]
                omega
              rw [List.length_cons] at hbound hbound'
              simp only [piecesFrom]
              rw [piecesFrom_found bound, piecesFrom_found bound']
              congr 1
              exact ih (by omega) (by omega)

-- A text whose front is the longest match is that front and the pieces of what is left.
theorem pieces_append {front rest : List Char} {kind : Option TokenKind}
    (h : LongestMatch Rule.all (front ++ rest) front.length kind) :
    pieces (front ++ rest) = ⟨.ofRule kind, front⟩ :: pieces rest := by
  have hpiece := firstPiece_of_longest h
  have hpositive := h.positive
  cases front with
  | nil => simp at hpositive
  | cons char front =>
      have hpieces : pieces (char :: front ++ rest) =
          ⟨.ofRule kind, char :: front⟩ :: piecesFrom (front ++ rest).length rest [] := by
        unfold pieces
        rw [List.cons_append, List.length_cons, piecesFrom]
        · rw [← List.cons_append, hpiece]
          simp only
          rw [piecesFrom_found, List.drop_left, List.take_left]
          rfl
        · simp
      rw [hpieces]
      congr 1
      exact piecesFrom_bound (by simp) (Nat.le_refl _)

end Lexer

end EffectLint
