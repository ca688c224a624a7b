import EffectLint.Proofs.Token.Lexeme

/-!
Writing lexemes one after the other, some with a space in between. Where each of them may end
before the next character, the text is cut into just these lexemes again.
-/

namespace EffectLint

open Lexer

namespace Lexeme

-- Lexemes written out, with `after` behind them.
inductive Spells (after : List Char) : List Lexeme → List Char → Prop where
  | Nil : Spells after [] []
  | Cons {lexeme lexemes text} : lexeme.Valid →
      (∀ next ∈ (text ++ after).head?, Parts lexeme.text.toList next) →
      Spells after lexemes text → Spells after (lexeme :: lexemes) (lexeme.text.toList ++ text)
  | Space {lexemes text} : (∀ next ∈ (text ++ after).head?, Pattern.isBlank next = false) →
      Spells after lexemes text → Spells after lexemes (' ' :: text)

theorem Spells.append {after : List Char} {first second : List Lexeme} {front back : List Char}
    (hfirst : Spells (back ++ after) first front) (hsecond : Spells after second back) :
    Spells after (first ++ second) (front ++ back) := by
  induction hfirst with
  | Nil => exact hsecond
  | Cons hvalid hparts _ ih =>
      rw [List.append_assoc, List.cons_append]
      refine .Cons hvalid ?_ ih
      rwa [List.append_assoc]
  | Space hblank _ ih =>
      rw [List.cons_append]
      refine .Space ?_ ih
      rwa [List.append_assoc]

-- Nothing longer than a front is matched if its next character starts nothing longer.
theorem longestMatch_of_next {front rest : List Char} {kind : Option TokenKind}
    (hfront : front ≠ []) (hmatched : Rule.first? Rule.all front = some kind)
    (hnext : ∀ next ∈ rest.head?, ∀ extra, Rule.first? Rule.all (front ++ next :: extra) = none) :
    LongestMatch Rule.all (front ++ rest) front.length kind where
  positive := List.length_pos_iff.mpr hfront
  inside := by simp
  matched := by rwa [List.take_left]
  longest := by
    intro longer hlonger hinside
    rw [List.length_append] at hinside
    cases rest with
    | nil =>
        rw [List.length_nil] at hinside
        omega
    | cons next rest =>
        obtain ⟨more, rfl⟩ := Nat.exists_eq_add_of_lt hlonger
        rw [Nat.add_assoc, List.take_length_add_append, List.take_succ_cons]
        exact hnext next rfl _

theorem Valid.longestMatch {lexeme : Lexeme} (h : lexeme.Valid) {rest : List Char}
    (hparts : ∀ next ∈ rest.head?, Parts lexeme.text.toList next) :
    LongestMatch Rule.all (lexeme.text.toList ++ rest) lexeme.text.toList.length
      (some lexeme.kind) := by
  obtain ⟨first, others, htext, _⟩ := h.first
  refine longestMatch_of_next (htext ▸ List.cons_ne_nil first others) h ?_
  intro next hnext extra
  exact no_match_of_parts h (hparts next hnext) extra

-- No rule starts with a single space and goes on with anything but another blank.
theorem space_longestMatch {rest : List Char}
    (hblank : ∀ next ∈ rest.head?, Pattern.isBlank next = false) :
    LongestMatch Rule.all ([' '] ++ rest) [' '].length none := by
  refine longestMatch_of_next (List.cons_ne_nil _ _) (by decide +kernel) ?_
  intro next hnext extra
  refine Rule.first?_eq_none_iff.mpr (Rule.forall_mem_all.mpr ⟨⟨?_, ?_, ?_⟩, ?_, ?_, ?_, ?_⟩)
  · intro hmatch
    obtain ⟨char, others, heq, _, hothers⟩ := Pattern.matches_whitespace.mp hmatch
    obtain ⟨_, rfl⟩ := List.cons.inj heq
    have hnextBlank := hothers next (by simp)
    rw [hblank next hnext] at hnextBlank
    cases hnextBlank
  · intro hmatch
    obtain ⟨others, heq | heq⟩ := Pattern.starts_of_comment (.inl hmatch) <;> cases heq
  · intro hmatch
    obtain ⟨others, heq | heq⟩ := Pattern.starts_of_comment (.inr hmatch) <;> cases heq
  · intro kind hfixed hmatch
    obtain ⟨spelling, hspelling, hpattern⟩ := TokenKind.spelling?_of_fixed hfixed
    rw [TokenKind.rule, hpattern, Pattern.matches_literal] at hmatch
    have hshape := isSpelled_of_mem (TokenKind.mem_spellings.mpr ⟨kind, hfixed, _, hspelling, rfl⟩)
    rw [← hmatch] at hshape
    simp [isSpelled] at hshape
  · intro hmatch
    obtain ⟨char, others, heq, hchar, _⟩ := Pattern.matches_identifier.mp hmatch
    cases heq
    revert hchar
    decide
  · intro hmatch
    obtain ⟨char, others, heq, hchar, _⟩ := Pattern.matches_integer.mp hmatch
    cases heq
    revert hchar
    decide
  · intro hmatch
    obtain ⟨others, heq, _⟩ := Pattern.matches_text.mp hmatch
    cases heq

end Lexeme

namespace Lexer

def Piece.lexeme? (piece : Piece) : Option Lexeme :=
  match piece.kind with
  | .Token kind => some ⟨kind, String.ofList piece.text⟩
  | .Trivia | .Unknown => none

theorem pieces_of_spells {lexemes : List Lexeme} {text : List Char}
    (h : Lexeme.Spells [] lexemes text) :
    (pieces text).filterMap Piece.lexeme? = lexemes ∧
      ∀ piece ∈ pieces text, piece.kind ≠ .Unknown := by
  induction h with
  | Nil => exact ⟨rfl, fun piece hpiece => nomatch hpiece⟩
  | @Cons lexeme lexemes text hvalid hparts _ ih =>
      rw [List.append_nil] at hparts
      rw [pieces_append (hvalid.longestMatch hparts)]
      refine ⟨?_, List.forall_mem_cons.mpr ⟨by simp [PieceKind.ofRule], ih.2⟩⟩
      have hhead : Piece.lexeme? ⟨.ofRule (some lexeme.kind), lexeme.text.toList⟩ = some lexeme := by
        simp [Piece.lexeme?, PieceKind.ofRule]
      rw [List.filterMap_cons_some hhead, ih.1]
  | @Space lexemes text hblank _ ih =>
      rw [List.append_nil] at hblank
      rw [← List.singleton_append, pieces_append (Lexeme.space_longestMatch hblank)]
      refine ⟨?_, List.forall_mem_cons.mpr ⟨by simp [PieceKind.ofRule], ih.2⟩⟩
      rw [List.filterMap_cons_none rfl, ih.1]

-- While no piece is unknown, every token piece becomes a token and no other does.
theorem gather_lexemes (pieces : List Piece) (gathered : Gathered)
    (hknown : ∀ piece ∈ pieces, piece.kind ≠ .Unknown) (hgarbage : gathered.garbage = none) :
    (pieces.foldl Gathered.add gathered).flush.toList.map Token.lexeme =
      gathered.tokens.toList.map Token.lexeme ++ pieces.filterMap Piece.lexeme? := by
  induction pieces generalizing gathered with
  | nil => simp [Gathered.flush, hgarbage]
  | cons piece pieces ih =>
      obtain ⟨hhead, htail⟩ := List.forall_mem_cons.mp hknown
      rw [List.foldl_cons]
      obtain ⟨kind, text⟩ := piece
      cases kind with
      | Unknown => exact absurd rfl hhead
      | Trivia =>
          rw [ih _ htail (by simp [Gathered.add, hgarbage]), List.filterMap_cons_none rfl]
          rfl
      | Token kind =>
          rw [ih _ htail rfl]
          simp [Gathered.add, Gathered.flush, hgarbage, Piece.lexeme?, Token.lexeme]

end Lexer

namespace Lexer

-- The pieces of tokens are what the rules match.
def Piece.Sound (piece : Piece) : Prop :=
  ∀ kind, piece.kind = .Token kind → Rule.first? Rule.all piece.text = some (some kind)

theorem firstPiece_sound (text : List Char) :
    Piece.Sound ⟨(firstPiece text).1, text.take (firstPiece text).2⟩ := by
  intro kind hkind
  unfold firstPiece at hkind ⊢
  rcases munchFrom_spec Rule.all ⟨0, none⟩ text with ⟨length, kind', h, hmunch⟩ | ⟨_, hmunch⟩
  · have hlongest : (munch text).longest = some (length, kind') := by
      rw [munch, hmunch, Nat.zero_add]
    simp only [hlongest] at hkind ⊢
    cases kind' with
    | none => cases hkind
    | some kind' =>
        cases hkind
        exact h.matched
  · have hlongest : (munch text).longest = none := by rw [munch, hmunch]
    simp only [hlongest] at hkind
    cases hkind

theorem piecesFrom_sound (bound : Nat) (text : List Char) (found : List Piece)
    (hfound : ∀ piece ∈ found, piece.Sound) :
    ∀ piece ∈ piecesFrom bound text found, piece.Sound := by
  induction bound generalizing text found with
  | zero =>
      intro piece hpiece
      exact hfound piece (List.mem_reverse.mp hpiece)
  | succ bound ih =>
      cases text with
      | nil =>
          intro piece hpiece
          exact hfound piece (List.mem_reverse.mp hpiece)
      | cons char rest =>
          simp only [piecesFrom]
          exact ih _ _ (List.forall_mem_cons.mpr ⟨firstPiece_sound (char :: rest), hfound⟩)

-- A token that is no garbage holds a text of its kind.
def SoundToken (token : Token) : Prop :=
  token.kind ≠ .Garbage → token.lexeme.Valid

theorem gather_sound (pieces : List Piece) (gathered : Gathered)
    (hpieces : ∀ piece ∈ pieces, piece.Sound) (htokens : ∀ token ∈ gathered.tokens, SoundToken token) :
    ∀ token ∈ (pieces.foldl Gathered.add gathered).flush, SoundToken token := by
  have hflush : ∀ gathered : Gathered, (∀ token ∈ gathered.tokens, SoundToken token) →
      ∀ token ∈ gathered.flush, SoundToken token := by
    intro gathered htokens token htoken
    unfold Gathered.flush at htoken
    split at htoken
    · exact htokens token htoken
    · rcases Array.mem_push.mp htoken with htoken | rfl
      · exact htokens token htoken
      · intro hkind
        exact absurd rfl hkind
  induction pieces generalizing gathered with
  | nil => exact hflush gathered htokens
  | cons piece pieces ih =>
      obtain ⟨hpiece, hrest⟩ := List.forall_mem_cons.mp hpieces
      rw [List.foldl_cons]
      refine ih _ hrest ?_
      obtain ⟨kind, text⟩ := piece
      cases kind with
      | Trivia => exact htokens
      | Unknown => exact htokens
      | Token kind =>
          intro token htoken
          rcases Array.mem_push.mp htoken with htoken | rfl
          · exact hflush gathered htokens token htoken
          · intro _
            have hmatched := hpiece kind rfl
            simpa [Lexeme.Valid, Token.lexeme] using hmatched

end Lexer

theorem lex_sound (text : List Char) :
    ∀ token ∈ lex text, token.kind ≠ .Garbage → token.lexeme.Valid := by
  intro token htoken
  rw [lex, Array.mem_toList_iff] at htoken
  have hpieces := Lexer.piecesFrom_sound text.length text [] fun _ h => nomatch h
  exact Lexer.gather_sound _ .start hpieces (fun _ h => by simp [Lexer.Gathered.start] at h)
    token htoken

theorem lexemes_of_spells {lexemes : List Lexeme} {text : List Char}
    (h : Lexeme.Spells [] lexemes text) : (lex text).map Token.lexeme = lexemes := by
  obtain ⟨hpieces, hknown⟩ := Lexer.pieces_of_spells h
  rw [lex, Lexer.gather_lexemes _ .start hknown rfl, hpieces]
  rfl

end EffectLint
