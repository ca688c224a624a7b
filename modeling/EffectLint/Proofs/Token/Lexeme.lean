import EffectLint.Proofs.Token.Patterns

/-!
Lexemes: what a token says apart from its place. A lexeme that is followed by a character which
continues none of the rules is read back as it is.
-/

namespace EffectLint

structure Lexeme where
  kind : TokenKind
  text : String
  deriving DecidableEq

def Token.lexeme (token : Token) : Lexeme :=
  ⟨token.kind, token.text⟩

namespace Rule

theorem forall_mem_all {p : Rule → Prop} :
    (∀ rule ∈ Rule.all, p rule) ↔
      (p ⟨.whitespace, none⟩ ∧ p ⟨.lineComment, none⟩ ∧ p ⟨.blockComment, none⟩) ∧
        (∀ kind ∈ TokenKind.fixed, p kind.rule) ∧
        p TokenKind.Identifier.rule ∧ p TokenKind.Integer.rule ∧ p TokenKind.Text.rule := by
  simp only [Rule.all, trivia, List.forall_mem_append, List.forall_mem_map, List.forall_mem_cons,
    List.not_mem_nil, false_imp_iff, implies_true, and_true, and_assoc]

end Rule

namespace TokenKind

theorem spelling?_of_fixed {kind : TokenKind} (hkind : kind ∈ fixed) :
    ∃ spelling, kind.spelling? = some spelling ∧ kind.pattern = .literal spelling.toList := by
  cases kind with
  | Sign sign => exact ⟨sign.spelling, rfl, rfl⟩
  | Assign op => exact ⟨op.spelling, rfl, rfl⟩
  | Word word => exact ⟨word.spelling, rfl, rfl⟩
  | Basic type => exact ⟨type.name, rfl, rfl⟩
  | Identifier | Integer | Text | Garbage => simp [fixed] at hkind

-- The spellings of all kinds that are always written alike.
def spellings : List (List Char) :=
  fixed.filterMap fun kind => kind.spelling?.map String.toList

theorem mem_spellings {text : List Char} :
    text ∈ spellings ↔ ∃ kind ∈ fixed, ∃ spelling, kind.spelling? = some spelling ∧
      spelling.toList = text := by
  simp only [spellings, List.mem_filterMap, Option.map_eq_some_iff]

-- What may follow a text in a spelling that starts with it.
def continuations (text : List Char) : List Char :=
  spellings.filterMap fun spelling =>
    if text.isPrefixOf spelling then (spelling.drop text.length).head? else none

theorem mem_continuations {text extra : List Char} {char : Char}
    (hspelling : text ++ char :: extra ∈ spellings) : char ∈ continuations text := by
  refine List.mem_filterMap.mpr ⟨_, hspelling, ?_⟩
  rw [if_pos (List.isPrefixOf_iff_prefix.mpr (List.prefix_append text _)), List.drop_left]
  rfl

theorem exists_of_mem_continuations {text : List Char} {char : Char}
    (hchar : char ∈ continuations text) : ∃ extra, text ++ char :: extra ∈ spellings := by
  obtain ⟨spelling, hspelling, hnext⟩ := List.mem_filterMap.mp hchar
  split at hnext
  · next hprefix =>
    obtain ⟨rest, rfl⟩ := List.isPrefixOf_iff_prefix.mp hprefix
    rw [List.drop_left] at hnext
    cases rest with
    | nil => cases hnext
    | cons first rest =>
        cases hnext
        exact ⟨rest, hspelling⟩
  · cases hnext

end TokenKind

namespace Lexeme

-- A text that is read as a token of the kind.
def Valid (lexeme : Lexeme) : Prop :=
  Rule.first? Rule.all lexeme.text.toList = some (some lexeme.kind)

instance (lexeme : Lexeme) : Decidable lexeme.Valid :=
  inferInstanceAs (Decidable (_ = _))

-- A spelled text holds no blank, starts neither like a number nor like a quoted text nor like a
-- comment, and where it starts like a name it is made like one.
def isSpelled (text : List Char) : Bool :=
  !text.contains ' ' && !(['/', '/'].isPrefixOf text) && !(['/', '*'].isPrefixOf text) &&
    match text with
    | [] => false
    | first :: rest =>
        first != '"' && !first.isDigit && !Pattern.isBlank first &&
          (!Pattern.startsName first || rest.all Pattern.continuesName)

theorem isSpelled_of_mem {spelling : List Char} (h : spelling ∈ TokenKind.spellings) :
    isSpelled spelling = true := by
  have hall : TokenKind.spellings.all isSpelled = true := by decide +kernel
  exact List.all_eq_true.mp hall spelling h

theorem valid_of_fixed : ∀ kind ∈ TokenKind.fixed, ∀ spelling, kind.spelling? = some spelling →
    (Lexeme.mk kind spelling).Valid := by
  have hall : TokenKind.fixed.all (fun kind => kind.spelling?.all fun spelling =>
      decide (Lexeme.mk kind spelling).Valid) = true := by decide +kernel
  intro kind hkind spelling hspelling
  have hvalid := List.all_eq_true.mp hall kind hkind
  rw [hspelling] at hvalid
  exact of_decide_eq_true hvalid

-- The forms of what is read as a token.
inductive Form (lexeme : Lexeme) : Prop where
  | Spelled (fixed : lexeme.kind ∈ TokenKind.fixed)
      (spelled : lexeme.kind.spelling? = some lexeme.text)
  | Name (kind : lexeme.kind = .Identifier) (name : Pattern.Matches .identifier lexeme.text.toList)
  | Number (kind : lexeme.kind = .Integer) (digits : Pattern.Matches .integer lexeme.text.toList)
  | Quoted (kind : lexeme.kind = .Text) (quoted : Pattern.Matches .text lexeme.text.toList)

theorem Valid.form {lexeme : Lexeme} (h : lexeme.Valid) : lexeme.Form := by
  have hall : ∀ rule ∈ Rule.all, rule.pattern.Matches lexeme.text.toList →
      rule.kind = some lexeme.kind → lexeme.Form := by
    refine Rule.forall_mem_all.mpr ⟨⟨?_, ?_, ?_⟩, ?_, ?_, ?_, ?_⟩
    · intro _ hkind
      cases hkind
    · intro _ hkind
      cases hkind
    · intro _ hkind
      cases hkind
    · intro kind hfixed hmatch hkind
      obtain ⟨spelling, hspelling, hpattern⟩ := TokenKind.spelling?_of_fixed hfixed
      rw [TokenKind.rule, hpattern, Pattern.matches_literal, String.toList_inj] at hmatch
      cases hkind
      exact .Spelled hfixed (hmatch ▸ hspelling)
    · intro hmatch hkind
      exact .Name (Option.some.inj hkind).symm hmatch
    · intro hmatch hkind
      exact .Number (Option.some.inj hkind).symm hmatch
    · intro hmatch hkind
      exact .Quoted (Option.some.inj hkind).symm hmatch
  obtain ⟨rule, hrule, hmatch, hkind⟩ := Rule.exists_of_first? h
  exact hall rule hrule hmatch hkind

theorem of_startsName {char : Char} (h : Pattern.startsName char = true) :
    Pattern.isBlank char = false ∧ char ≠ '/' ∧ char ≠ '"' ∧ char.isDigit = false := by
  refine ⟨?_, ?_, ?_, ?_⟩
  · rw [← Bool.not_eq_true]
    intro hblank
    simp only [Pattern.isBlank, Bool.or_eq_true, beq_iff_eq] at hblank
    rcases hblank with (((rfl | rfl) | rfl) | rfl) | rfl <;> revert h <;> decide
  · rintro rfl
    revert h
    decide
  · rintro rfl
    revert h
    decide
  · rw [← Bool.not_eq_true]
    intro hdigit
    unfold Pattern.startsName Char.isAlpha Char.isUpper Char.isLower at h
    unfold Char.isDigit at hdigit
    simp only [Bool.or_eq_true, Bool.and_eq_true, decide_eq_true_eq, beq_iff_eq,
      UInt32.le_iff_toNat_le, ge_iff_le] at h hdigit
    rcases h with (h | h) | rfl
    · have hlow : 65 ≤ char.val.toNat := h.1
      have hhigh : char.val.toNat ≤ 57 := hdigit.2
      omega
    · have hlow : 97 ≤ char.val.toNat := h.1
      have hhigh : char.val.toNat ≤ 57 := hdigit.2
      omega
    · exact absurd hdigit.2 (by decide)

theorem of_isDigit {char : Char} (h : char.isDigit = true) :
    Pattern.isBlank char = false ∧ char ≠ '/' ∧ char ≠ '"' ∧ Pattern.startsName char = false := by
  refine ⟨?_, ?_, ?_, ?_⟩
  · rw [← Bool.not_eq_true]
    intro hblank
    simp only [Pattern.isBlank, Bool.or_eq_true, beq_iff_eq] at hblank
    rcases hblank with (((rfl | rfl) | rfl) | rfl) | rfl <;> revert h <;> decide
  · rintro rfl
    revert h
    decide
  · rintro rfl
    revert h
    decide
  · rw [← Bool.not_eq_true]
    intro hname
    rw [(of_startsName hname).2.2.2] at h
    cases h

-- What is known of a lexeme from its first character.
theorem Valid.first {lexeme : Lexeme} (h : lexeme.Valid) :
    ∃ first rest, lexeme.text.toList = first :: rest ∧ Pattern.isBlank first = false ∧
      (first = '/' → ∀ second ∈ rest.head?, second ≠ '/' ∧ second ≠ '*') ∧
      (first = '"' → Pattern.endsQuoted rest = true) := by
  cases h.form with
  | Spelled hfixed hspelled =>
      have hmem : lexeme.text.toList ∈ TokenKind.spellings :=
        TokenKind.mem_spellings.mpr ⟨_, hfixed, _, hspelled, rfl⟩
      have hshape := isSpelled_of_mem hmem
      cases htext : lexeme.text.toList with
      | nil =>
          rw [htext] at hshape
          cases hshape
      | cons first rest =>
          rw [htext] at hshape
          simp only [isSpelled, Bool.and_eq_true, Bool.not_eq_true', bne_iff_ne] at hshape
          obtain ⟨⟨⟨_, hline⟩, hblock⟩, ⟨⟨hquote, _⟩, hblank⟩, _⟩ := hshape
          refine ⟨first, rest, rfl, hblank, ?_, fun h => absurd h hquote⟩
          rintro rfl second hsecond
          cases rest with
          | nil => cases hsecond
          | cons other rest =>
              cases hsecond
              constructor
              · rintro rfl
                simp [List.isPrefixOf] at hline
              · rintro rfl
                simp [List.isPrefixOf] at hblock
  | Name _ hname =>
      obtain ⟨first, rest, htext, hfirst, _⟩ := Pattern.matches_identifier.mp hname
      obtain ⟨hblank, hslash, hquote, _⟩ := of_startsName hfirst
      exact ⟨first, rest, htext, hblank, fun h => absurd h hslash, fun h => absurd h hquote⟩
  | Number _ hnumber =>
      obtain ⟨first, rest, htext, hfirst, _⟩ := Pattern.matches_integer.mp hnumber
      obtain ⟨hblank, hslash, hquote, _⟩ := of_isDigit hfirst
      exact ⟨first, rest, htext, hblank, fun h => absurd h hslash, fun h => absurd h hquote⟩
  | Quoted _ hquoted =>
      obtain ⟨rest, htext, hrest⟩ := Pattern.matches_text.mp hquoted
      refine ⟨'"', rest, htext, by decide, ?_, fun _ => hrest⟩
      intro h
      exact absurd h (by decide)

-- Where a lexeme may end in a text: no rule takes the next character along with it.
structure Parts (front : List Char) (next : Char) : Prop where
  name : ∀ first ∈ front.head?, Pattern.startsName first = true →
    Pattern.continuesName next = false
  number : ∀ first ∈ front.head?, first.isDigit = true → Pattern.continuesInteger next = false
  spelled : next ∉ TokenKind.continuations front
  comment : front = ['/'] → next ≠ '/' ∧ next ≠ '*'

theorem no_comment {first next : Char} {rest extra : List Char}
    (hparts : Parts (first :: rest) next)
    (hslash : first = '/' → ∀ second ∈ rest.head?, second ≠ '/' ∧ second ≠ '*') :
    ¬∃ others, first :: rest ++ next :: extra = '/' :: '/' :: others ∨
      first :: rest ++ next :: extra = '/' :: '*' :: others := by
  rintro ⟨others, heq | heq⟩
  · cases rest with
    | nil =>
        simp only [List.cons_append, List.nil_append, List.cons.injEq] at heq
        obtain ⟨rfl, rfl, _⟩ := heq
        exact (hparts.comment rfl).1 rfl
    | cons second rest =>
        simp only [List.cons_append, List.cons.injEq] at heq
        exact (hslash heq.1 second rfl).1 heq.2.1
  · cases rest with
    | nil =>
        simp only [List.cons_append, List.nil_append, List.cons.injEq] at heq
        obtain ⟨rfl, rfl, _⟩ := heq
        exact (hparts.comment rfl).2 rfl
    | cons second rest =>
        simp only [List.cons_append, List.cons.injEq] at heq
        exact (hslash heq.1 second rfl).2 heq.2.1

theorem no_match_of_parts {lexeme : Lexeme} (h : lexeme.Valid) {next : Char}
    (hparts : Parts lexeme.text.toList next) (extra : List Char) :
    Rule.first? Rule.all (lexeme.text.toList ++ next :: extra) = none := by
  obtain ⟨first, rest, htext, hblank, hslash, hquote⟩ := h.first
  rw [htext] at hparts ⊢
  refine Rule.first?_eq_none_iff.mpr (Rule.forall_mem_all.mpr ⟨⟨?_, ?_, ?_⟩, ?_, ?_, ?_, ?_⟩)
  · intro hmatch
    obtain ⟨char, others, heq, hchar, _⟩ := Pattern.matches_whitespace.mp hmatch
    obtain ⟨rfl, _⟩ := List.cons.inj heq
    rw [hblank] at hchar
    cases hchar
  · exact fun hmatch => no_comment hparts hslash (Pattern.starts_of_comment (.inl hmatch))
  · exact fun hmatch => no_comment hparts hslash (Pattern.starts_of_comment (.inr hmatch))
  · intro kind hfixed hmatch
    obtain ⟨spelling, hspelling, hpattern⟩ := TokenKind.spelling?_of_fixed hfixed
    rw [TokenKind.rule, hpattern, Pattern.matches_literal] at hmatch
    refine hparts.spelled (@TokenKind.mem_continuations _ extra _ ?_)
    rw [hmatch]
    exact TokenKind.mem_spellings.mpr ⟨kind, hfixed, spelling, hspelling, rfl⟩
  · intro hmatch
    obtain ⟨char, others, heq, hchar, hothers⟩ := Pattern.matches_identifier.mp hmatch
    obtain ⟨rfl, rfl⟩ := List.cons.inj heq
    have hnext := hothers next (by simp)
    rw [hparts.name _ rfl hchar] at hnext
    cases hnext
  · intro hmatch
    obtain ⟨char, others, heq, hchar, hothers⟩ := Pattern.matches_integer.mp hmatch
    obtain ⟨rfl, rfl⟩ := List.cons.inj heq
    have hnext := hothers next (by simp)
    rw [hparts.number _ rfl hchar] at hnext
    cases hnext
  · intro hmatch
    obtain ⟨others, heq, hothers⟩ := Pattern.matches_text.mp hmatch
    obtain ⟨rfl, rfl⟩ := List.cons.inj heq
    have hended := Pattern.not_endsQuoted_append (hquote rfl) (List.cons_ne_nil next extra)
    rw [List.append_eq, hended] at hothers
    cases hothers

end Lexeme

end EffectLint
