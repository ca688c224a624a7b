import EffectLint.Proofs.Grammar.MovedModule
import EffectLint.Proofs.Token.Cover

/-!
Texts with the same tokens. Each is read like a text whose tokens are numbered, with the numbers
replaced by the places of its own tokens, so how the tokens are laid out makes no difference.
-/

namespace EffectLint

open Lexer

-- Two offsets, one in each text, that stand for the same place among the tokens.
inductive SamePlace (text text' : List Char) : Nat → Nat → Prop where
  | Start (index : Nat) {token token' : Token} (h : (lex text)[index]? = some token)
      (h' : (lex text')[index]? = some token') :
      SamePlace text text' token.span.start token'.span.start
  | Stop (index : Nat) {token token' : Token} (h : (lex text)[index]? = some token)
      (h' : (lex text')[index]? = some token') :
      SamePlace text text' token.span.stop token'.span.stop
  | End : SamePlace text text' (Text.width text) (Text.width text')

structure SameRange (text text' : List Char) (span span' : Span) : Prop where
  start : SamePlace text text' span.start span'.start
  stop : SamePlace text text' span.stop span'.stop

-- The same diagnostic about the same tokens.
structure SameDiagnostic (text text' : List Char) (diagnostic diagnostic' : Diagnostic) : Prop where
  kind : diagnostic.kind = diagnostic'.kind
  severity : diagnostic.severity = diagnostic'.severity
  message : diagnostic.message = diagnostic'.message
  fix : diagnostic.fix = diagnostic'.fix
  range : SameRange text text' diagnostic.span diagnostic'.span
  related : List.Forall₂ (fun label label' => label.message = label'.message ∧
    SameRange text text' label.span label'.span) diagnostic.related diagnostic'.related

-- Either both texts exhaust the same budget, or they are read as the same tree but for its places,
-- with the same diagnostics.
inductive SameOutcome (text text' : List Char) :
    Except Exhausted Parsed → Except Exhausted Parsed → Prop where
  | Exhausted (reason : Exhausted) : SameOutcome text text' (.error reason) (.error reason)
  | Parsed {parsed parsed' : Parsed}
      (items : parsed.items.map Item.bare = parsed'.items.map Item.bare)
      (diagnostics : List.Forall₂ (SameDiagnostic text text') parsed.diagnostics.toList
        parsed'.diagnostics.toList) :
      SameOutcome text text' (.ok parsed) (.ok parsed')

-- Tokens that start at the even numbers in turn and stop at the odd ones.
def numbered (lexemes : List Lexeme) : List Token :=
  lexemes.mapIdx fun index lexeme => ⟨lexeme.kind, ⟨2 * index, 2 * index + 1⟩, lexeme.text⟩

-- Where the place with a number is among the tokens of a text.
def edge (text : List Char) (number : Nat) : Nat :=
  match (lex text)[number / 2]? with
  | some token => if number % 2 = 0 then token.span.start else token.span.stop
  | none => Text.width text

section Edges

variable {text : List Char} {index : Nat} {token : Token}

theorem edge_start (h : (lex text)[index]? = some token) : edge text (2 * index) = token.span.start := by
  have hhalf : 2 * index / 2 = index := by omega
  have heven : 2 * index % 2 = 0 := by omega
  simp only [edge, hhalf, h, heven, if_true]

theorem edge_stop (h : (lex text)[index]? = some token) :
    edge text (2 * index + 1) = token.span.stop := by
  have hhalf : (2 * index + 1) / 2 = index := by omega
  have hodd : (2 * index + 1) % 2 ≠ 0 := by omega
  simp only [edge, hhalf, h, hodd, if_false]

theorem edge_end {number : Nat} (h : (lex text).length ≤ number / 2) :
    edge text number = Text.width text := by
  simp only [edge, List.getElem?_eq_none h]

theorem numbered_relocate (text : List Char) :
    (numbered ((lex text).map Token.lexeme)).map (Token.relocate (edge text)) = lex text := by
  apply List.ext_getElem?
  intro index
  simp only [numbered, List.getElem?_map, List.getElem?_mapIdx, Option.map_map]
  cases htoken : (lex text)[index]? with
  | none => rfl
  | some token =>
      have hspan : (⟨edge text (2 * index), edge text (2 * index + 1)⟩ : Span) = token.span := by
        rw [edge_start htoken, edge_stop htoken]
      simp only [Option.map_some, Function.comp_apply, Token.relocate, Span.relocate, hspan]
      rfl

-- A token starts before it stops, and stops before the next one starts.
theorem edge_lt_succ {index : Nat} (h : index < (lex text).length) :
    edge text (2 * index) < edge text (2 * index + 1) := by
  have htoken := List.getElem?_eq_getElem h
  rw [edge_start htoken, edge_stop htoken]
  exact ((laid_lex text).stands _ (List.getElem_mem h)).bounds.2.1

theorem edge_le_succ (number : Nat) : edge text number ≤ edge text (number + 1) := by
  by_cases hlast : (lex text).length ≤ number / 2
  · rw [edge_end hlast, edge_end (by omega)]
  · have hindex : number / 2 < (lex text).length := by omega
    by_cases heven : number = 2 * (number / 2)
    · rw [heven]
      exact Nat.le_of_lt (edge_lt_succ hindex)
    · have hodd : number = 2 * (number / 2) + 1 := by omega
      have hstop := edge_stop (List.getElem?_eq_getElem hindex)
      by_cases hnext : number / 2 + 1 < (lex text).length
      · have hstart := edge_start (List.getElem?_eq_getElem hnext)
        have hle := List.pairwise_iff_getElem.mp (laid_lex text).ordered (number / 2)
          (number / 2 + 1) hindex hnext (by omega)
        rw [hodd, hstop, Nat.add_assoc]
        rw [show 2 * (number / 2) + (1 + 1) = 2 * (number / 2 + 1) by omega, hstart]
        exact hle
      · have hwithin := ((laid_lex text).stands _ (List.getElem_mem hindex)).bounds.2.2
        rw [hodd, hstop, edge_end (by omega)]
        omega

theorem edge_mono (text : List Char) {low high : Nat} (h : low ≤ high) :
    edge text low ≤ edge text high := by
  induction high, h using Nat.le_induction with
  | base => exact Nat.le_refl _
  | succ high _ ih => exact Nat.le_trans ih (edge_le_succ high)

end Edges

-- From the numbered tokens to those of a text.
def Relocation.toText (text : List Char) : Relocation where
  offset := edge text
  starts number := ∃ index ≤ (lex text).length, number = 2 * index
  monotone h := edge_mono text h
  apart := by
    rintro _ _ ⟨one, hone, rfl⟩ ⟨other, hother, rfl⟩ heq
    by_cases hlt : one < other
    · have hstop : edge text (2 * one) < edge text (2 * one + 1) := edge_lt_succ (by omega)
      have hle := edge_mono text (show 2 * one + 1 ≤ 2 * other by omega)
      omega
    · by_cases hgt : other < one
      · have hstop : edge text (2 * other) < edge text (2 * other + 1) := edge_lt_succ (by omega)
        have hle := edge_mono text (show 2 * other + 1 ≤ 2 * one by omega)
        omega
      · omega
  passed := 0

theorem parse_numbered (text : List Char) (fuel depth : Nat) :
    parse text fuel depth = (parseTokens (numbered ((lex text).map Token.lexeme))
      (2 * (lex text).length) fuel depth).map (Parsed.relocate (edge text)) := by
  have hstarts : ∀ token ∈ numbered ((lex text).map Token.lexeme),
      (Relocation.toText text).starts token.span.start := by
    intro token htoken
    obtain ⟨index, hindex, rfl⟩ := List.mem_mapIdx.mp htoken
    rw [List.length_map] at hindex
    exact ⟨index, Nat.le_of_lt hindex, rfl⟩
  have hend : edge text (2 * (lex text).length) = Text.width text := edge_end (by omega)
  calc
    parse text fuel depth =
        parseTokens ((numbered ((lex text).map Token.lexeme)).map (Token.relocate (edge text)))
          (edge text (2 * (lex text).length)) fuel depth := by
      rw [numbered_relocate, hend]
      rfl
    _ = _ := parseTokens_relocate (Relocation.toText text) rfl ⟨_, Nat.le_refl _, rfl⟩ hstarts fuel depth

section SamePlaces

variable {text text' : List Char} (hlength : (lex text).length = (lex text').length)

include hlength

theorem samePlace_edge (number : Nat) : SamePlace text text' (edge text number) (edge text' number) := by
  by_cases hlast : (lex text).length ≤ number / 2
  · rw [edge_end hlast, edge_end (by omega)]
    exact .End
  · have htoken := List.getElem?_eq_getElem (l := lex text) (i := number / 2) (by omega)
    have htoken' := List.getElem?_eq_getElem (l := lex text') (i := number / 2) (by omega)
    by_cases heven : number = 2 * (number / 2)
    · rw [heven, edge_start htoken, edge_start htoken']
      exact .Start _ htoken htoken'
    · have hodd : number = 2 * (number / 2) + 1 := by omega
      rw [hodd, edge_stop htoken, edge_stop htoken']
      exact .Stop _ htoken htoken'

theorem sameRange_edge (span : Span) :
    SameRange text text' (span.relocate (edge text)) (span.relocate (edge text')) :=
  ⟨samePlace_edge hlength _, samePlace_edge hlength _⟩

theorem sameDiagnostic_edge (diagnostic : Diagnostic) : SameDiagnostic text text'
    (diagnostic.relocate (edge text)) (diagnostic.relocate (edge text')) where
  kind := rfl
  severity := rfl
  message := rfl
  fix := rfl
  range := sameRange_edge hlength _
  related := by
    apply List.forall₂_map_left_iff.mpr
    apply List.forall₂_map_right_iff.mpr
    exact List.forall₂_same.mpr fun label _ => ⟨rfl, sameRange_edge hlength _⟩

end SamePlaces

-- What is parsed depends on the kinds and texts of the tokens and not on how they are laid out.
theorem parse_same_tokens (text text' : List Char) (fuel depth : Nat)
    (htokens : (lex text).map (fun token => (token.kind, token.text)) =
      (lex text').map fun token => (token.kind, token.text)) :
    SameOutcome text text' (parse text fuel depth) (parse text' fuel depth) := by
  have hlength : (lex text).length = (lex text').length := by
    simpa using congrArg List.length htokens
  have hlexemes : (lex text).map Token.lexeme = (lex text').map Token.lexeme := by
    have hmap := congrArg (List.map fun found : TokenKind × String => Lexeme.mk found.1 found.2) htokens
    rwa [List.map_map, List.map_map] at hmap
  rw [parse_numbered text, parse_numbered text', ← hlexemes, ← hlength]
  cases parseTokens (numbered ((lex text).map Token.lexeme)) (2 * (lex text).length) fuel depth with
  | error reason => exact .Exhausted reason
  | ok parsed =>
      apply SameOutcome.Parsed
      · simp only [Parsed.relocate, List.map_map]
        exact List.map_congr_left fun item _ =>
          (item.bare_relocate (edge text)).trans (item.bare_relocate (edge text')).symm
      · simp only [Parsed.relocate, Array.toList_map]
        apply List.forall₂_map_left_iff.mpr
        apply List.forall₂_map_right_iff.mpr
        exact List.forall₂_same.mpr fun diagnostic _ => sameDiagnostic_edge hlength diagnostic

-- A name is missing in front of a semicolon, once behind a comment and once at the end of a line.
theorem parse_commented_out : SameOutcome "alias /* name */ ;".toList "alias\n;".toList
    (parse "alias /* name */ ;".toList 10 10) (parse "alias\n;".toList 10 10) :=
  parse_same_tokens _ _ 10 10 (by decide +kernel)

end EffectLint
