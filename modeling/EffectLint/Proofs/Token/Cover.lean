import Mathlib.Data.List.Chain
import EffectLint.Proofs.Token.Laid

/-!
The tokens of a text and the trivia between them are the whole text: what is no token is trivia,
and a token is as long as any rule can make it.
-/

namespace EffectLint

open Lexer

theorem Rule.first?_append (first second : List Rule) (text : List Char) :
    Rule.first? (first ++ second) text = (Rule.first? first text).or (Rule.first? second text) := by
  simp only [Rule.first?, List.find?_append]
  cases first.find? (·.pattern.accepts text) <;> rfl

-- A word that is always written alike is read as that and not as an identifier.
theorem TokenKind.not_fixed_of_identifier {text : List Char}
    (h : Rule.first? Rule.all text = some (some .Identifier)) :
    ∀ kind ∈ TokenKind.fixed, ¬kind.pattern.Matches text := by
  intro kind hkind hmatch
  have hearlier : ∀ rule ∈ Rule.trivia ++ TokenKind.fixed.map TokenKind.rule,
      rule.kind ≠ some .Identifier := by decide +kernel
  rw [Rule.all, Rule.first?_append] at h
  cases hfirst : Rule.first? (Rule.trivia ++ TokenKind.fixed.map TokenKind.rule) text with
  | none =>
      have hnone := Rule.first?_eq_none_iff.mp hfirst kind.rule
      exact hnone (List.mem_append_right _ (List.mem_map_of_mem hkind)) hmatch
  | some found =>
      obtain ⟨rule, hrule, _, hfound⟩ := Rule.exists_of_first? hfirst
      rw [hfirst] at h
      obtain rfl : found = some .Identifier := by simpa using h
      exact hearlier rule hrule hfound

-- A token is as long as any rule can make it, and a keyword is no identifier. Garbage starts where
-- no rule matches anything.
structure Token.Munched (token : Token) (after : List Char) : Prop where
  filled : token.text.toList ≠ []
  matched : token.kind ≠ .Garbage → token.kind.pattern.Matches token.text.toList
  reserved : token.kind = .Identifier →
    ∀ kind ∈ TokenKind.fixed, ¬kind.pattern.Matches token.text.toList
  longest : token.kind ≠ .Garbage → ∀ longer, longer <+: token.text.toList ++ after →
    token.text.toList.length < longer.length → ∀ rule ∈ Rule.all, ¬rule.pattern.Matches longer
  unmatched : token.kind = .Garbage → ∀ front, front <+: token.text.toList ++ after →
    front ≠ [] → ∀ rule ∈ Rule.all, ¬rule.pattern.Matches front

theorem Token.munched_of_longest {front after : List Char} {kind : TokenKind} {span : Span}
    (h : LongestMatch Rule.all (front ++ after) front.length (some kind)) :
    Token.Munched ⟨kind, span, String.ofList front⟩ after := by
  have hmatched := h.matched
  rw [List.take_left] at hmatched
  have hkind := h.not_garbage
  constructor
  · have hpositive := h.positive
    simpa using List.length_pos_iff.mp hpositive
  · intro _
    have hall : ∀ rule ∈ Rule.all, rule.kind = some kind → rule.pattern = kind.pattern := by
      refine Rule.forall_mem_all.mpr ⟨⟨nofun, nofun, nofun⟩, ?_, ?_, ?_, ?_⟩
      · intro other _ heq
        obtain rfl := Option.some.inj heq
        rfl
      all_goals
        intro heq
        obtain rfl := Option.some.inj heq
        rfl
    obtain ⟨rule, hrule, hmatch, heq⟩ := Rule.exists_of_first? hmatched
    rw [hall rule hrule heq] at hmatch
    simpa using hmatch
  · intro hidentifier
    obtain rfl : kind = .Identifier := hidentifier
    simpa using TokenKind.not_fixed_of_identifier hmatched
  · intro _ longer hlonger hlength
    simp only [String.toList_ofList] at hlonger hlength
    have hnone := h.longest longer.length hlength hlonger.length_le
    rw [← List.prefix_iff_eq_take.mp hlonger] at hnone
    exact Rule.first?_eq_none_iff.mp hnone
  · intro hgarbage
    exact absurd hgarbage hkind

theorem Token.munched_of_stuck {front after : List Char} {span : Span} (hfront : front ≠ [])
    (h : Stuck (front ++ after)) : Token.Munched ⟨.Garbage, span, String.ofList front⟩ after := by
  constructor
  · simpa using hfront
  · exact fun hkind => absurd rfl hkind
  · nofun
  · exact fun hkind => absurd rfl hkind
  · intro _ shorter hshorter hnil
    rw [String.toList_ofList] at hshorter
    have hnone := h shorter.length (List.length_pos_iff.mpr hnil) hshorter.length_le
    rw [← List.prefix_iff_eq_take.mp hshorter] at hnone
    exact Rule.first?_eq_none_iff.mp hnone

-- Where a token stands in a text that starts at the offset.
def Token.StandsIn (token : Token) (offset : Nat) (text : List Char) : Prop :=
  ∃ before after, text = before ++ token.text.toList ++ after ∧
    token.span = ⟨offset + Text.width before, offset + Text.width (before ++ token.text.toList)⟩ ∧
    token.Munched after

theorem Token.StandsIn.behind {token : Token} {offset : Nat} {front rest : List Char}
    (h : token.StandsIn (offset + Text.width front) rest) : token.StandsIn offset (front ++ rest) := by
  obtain ⟨before, after, rfl, hspan, hmunched⟩ := h
  refine ⟨front ++ before, after, by simp, ?_, hmunched⟩
  rw [hspan]
  simp only [Text.width_append, Nat.add_assoc]

theorem Token.StandsIn.first {token : Token} {offset : Nat} {front rest : List Char}
    (hspan : token.span = ⟨offset, offset + Text.width front⟩)
    (htext : token.text = String.ofList front) (h : token.Munched rest) :
    token.StandsIn offset (front ++ rest) := by
  refine ⟨[], rest, by simp [htext], ?_, h⟩
  rw [hspan, htext]
  simp

theorem Text.width_pos {text : List Char} (h : text ≠ []) : 0 < Text.width text := by
  obtain ⟨char, rest, rfl⟩ := List.exists_cons_of_ne_nil h
  have hpositive := char.utf8Size_pos
  rw [Text.width_cons]
  omega

theorem Token.StandsIn.bounds {token : Token} {offset : Nat} {text : List Char}
    (h : token.StandsIn offset text) : offset ≤ token.span.start ∧
      token.span.start < token.span.stop ∧ token.span.stop ≤ offset + Text.width text := by
  obtain ⟨before, after, rfl, hspan, hmunched⟩ := h
  have hpositive := Text.width_pos hmunched.filled
  rw [hspan]
  simp only [Text.width_append]
  omega

-- A byte between tokens, in blanks or in a comment that no token reaches into.
def LeftOut (byte offset : Nat) (text : List Char) (tokens : List Token) : Prop :=
  ∃ before gap after, text = before ++ gap ++ after ∧ Skipped after gap ∧
    offset + Text.width before ≤ byte ∧ byte < offset + Text.width (before ++ gap) ∧
    ∀ token ∈ tokens, token.span.stop ≤ offset + Text.width before ∨
      offset + Text.width (before ++ gap) ≤ token.span.start

theorem LeftOut.behind {byte offset : Nat} {front rest : List Char} {tokens : List Token}
    (h : LeftOut byte (offset + Text.width front) rest tokens) :
    LeftOut byte offset (front ++ rest) tokens := by
  obtain ⟨before, gap, after, rfl, hgap, hlow, hhigh, hapart⟩ := h
  refine ⟨front ++ before, gap, after, by simp, hgap, ?_⟩
  simp only [Text.width_append, Nat.add_assoc] at hlow hhigh hapart ⊢
  exact ⟨hlow, hhigh, hapart⟩

theorem LeftOut.cons {byte offset : Nat} {text : List Char} {token : Token} {tokens : List Token}
    (h : LeftOut byte offset text tokens) (htoken : token.span.stop ≤ offset) :
    LeftOut byte offset text (token :: tokens) := by
  obtain ⟨before, gap, after, htext, hgap, hlow, hhigh, hapart⟩ := h
  refine ⟨before, gap, after, htext, hgap, hlow, hhigh, List.forall_mem_cons.mpr ⟨?_, hapart⟩⟩
  left
  omega

def Token.Holds (token : Token) (byte : Nat) : Prop :=
  token.span.start ≤ byte ∧ byte < token.span.stop

namespace Lexer.Laid

variable {offset : Nat} {text : List Char} {tokens : List Token}

theorem stands (h : Laid offset text tokens) : ∀ token ∈ tokens, token.StandsIn offset text := by
  induction h with
  | End => simp
  | Skip _ _ ih => exact fun token htoken => (ih token htoken).behind
  | Read hlongest _ ih =>
      refine List.forall_mem_cons.mpr ⟨?_, fun token htoken => (ih token htoken).behind⟩
      exact .first rfl rfl (Token.munched_of_longest hlongest)
  | Garbage hfront hstuck _ _ ih =>
      refine List.forall_mem_cons.mpr ⟨?_, fun token htoken => (ih token htoken).behind⟩
      exact .first rfl rfl (Token.munched_of_stuck hfront hstuck)

theorem ordered (h : Laid offset text tokens) :
    tokens.Pairwise fun first second => first.span.stop ≤ second.span.start := by
  induction h with
  | End => exact .nil
  | Skip _ _ ih => exact ih
  | Read _ hrest ih => exact .cons (fun token htoken => (hrest.stands token htoken).bounds.1) ih
  | Garbage _ _ _ hrest ih =>
      exact .cons (fun token htoken => (hrest.stands token htoken).bounds.1) ih

-- A byte of a token in front, or one of what is behind it.
theorem covers_cons {byte : Nat} {front rest : List Char} {token : Token}
    (hspan : token.span = ⟨offset, offset + Text.width front⟩)
    (hlow : offset ≤ byte)
    (hrest : offset + Text.width front ≤ byte →
      (∃ token ∈ tokens, token.Holds byte) ∨ LeftOut byte (offset + Text.width front) rest tokens) :
    (∃ found ∈ token :: tokens, found.Holds byte) ∨
      LeftOut byte offset (front ++ rest) (token :: tokens) := by
  by_cases hbyte : byte < offset + Text.width front
  · left
    refine ⟨token, List.mem_cons_self, ?_⟩
    rw [Token.Holds, hspan]
    exact ⟨hlow, hbyte⟩
  · rcases hrest (by omega) with ⟨other, hother, hholds⟩ | hleft
    · left
      exact ⟨other, List.mem_cons_of_mem _ hother, hholds⟩
    · right
      exact (hleft.cons (by rw [hspan])).behind

theorem covers (h : Laid offset text tokens) : ∀ byte, offset ≤ byte →
    byte < offset + Text.width text →
      (∃ token ∈ tokens, token.Holds byte) ∨ LeftOut byte offset text tokens := by
  induction h with
  | End =>
      intro byte hlow hhigh
      rw [Text.width_nil] at hhigh
      omega
  | @Skip offset front rest tokens hlongest hrest ih =>
      intro byte hlow hhigh
      by_cases hbyte : byte < offset + Text.width front
      · right
        refine ⟨[], front, rest, rfl, skipped_of_longest hlongest, hlow, hbyte, ?_⟩
        intro token htoken
        right
        exact (hrest.stands token htoken).bounds.1
      · rw [Text.width_append] at hhigh
        exact (ih byte (by omega) (by omega)).imp_right LeftOut.behind
  | Read _ _ ih =>
      intro byte hlow hhigh
      rw [Text.width_append] at hhigh
      exact covers_cons rfl hlow fun hbyte => ih byte hbyte (by omega)
  | Garbage _ _ _ _ ih =>
      intro byte hlow hhigh
      rw [Text.width_append] at hhigh
      exact covers_cons rfl hlow fun hbyte => ih byte hbyte (by omega)

theorem garbage_apart (h : Laid offset text tokens) :
    tokens.IsChain fun first second => ¬(first.kind = .Garbage ∧ second.kind = .Garbage) := by
  induction h with
  | End => exact .nil
  | Skip _ _ ih => exact ih
  | Read hlongest _ ih =>
      apply List.isChain_cons.mpr
      exact ⟨fun next _ hboth => hlongest.not_garbage hboth.1, ih⟩
  | Garbage _ _ hnext _ ih =>
      apply List.isChain_cons.mpr
      exact ⟨fun next hmem hboth => hnext next hmem hboth.2, ih⟩

end Lexer.Laid

-- Tokens stand one behind the other between the characters of a text, each as long as any rule can
-- make it, and all that is left out between them is blanks and whole comments.
theorem lex_covers (text : List Char) :
    (∀ token ∈ lex text, token.span.start < token.span.stop ∧
      ∃ before after, text = before ++ token.text.toList ++ after ∧
        token.span = ⟨Text.width before, Text.width (before ++ token.text.toList)⟩ ∧
        token.Munched after) ∧
    ((lex text).Pairwise fun first second =>
      first.span.start < second.span.start ∧ first.span.stop ≤ second.span.start) ∧
    (∀ byte < Text.width text, (∃ token ∈ lex text, token.Holds byte) ∨
      ∃ before gap after, text = before ++ gap ++ after ∧ Skipped after gap ∧
        Text.width before ≤ byte ∧ byte < Text.width (before ++ gap) ∧
        ∀ token ∈ lex text, token.span.stop ≤ Text.width before ∨
          Text.width (before ++ gap) ≤ token.span.start) ∧
    (lex text).IsChain fun first second =>
      ¬(first.kind = .Garbage ∧ second.kind = .Garbage) := by
  have hlaid := laid_lex text
  have hstands := hlaid.stands
  refine ⟨?_, ?_, ?_, hlaid.garbage_apart⟩
  · intro token htoken
    have hfilled := (hstands token htoken).bounds.2.1
    simpa only [Token.StandsIn, Nat.zero_add] using And.intro hfilled (hstands token htoken)
  · apply hlaid.ordered.imp_of_mem
    intro first second hfirst hsecond hle
    have hfilled := (hstands first hfirst).bounds.2.1
    exact ⟨by omega, hle⟩
  · intro byte hbyte
    have hcovers := hlaid.covers byte (Nat.zero_le _) (by omega)
    simpa only [LeftOut, Nat.zero_add] using hcovers

end EffectLint
