import EffectLint.Proofs.Grammar.CleanItem
import EffectLint.Proofs.Grammar.TracedItem

/-!
The ranges of a tree. Where nothing is wrong with a text, they go from the first token of a phrase
to the last one, so that they lie in each other as the phrases do and follow each other as the
parts of a phrase do. Where something is wrong, no place is complained about twice, except for the
arguments of a call.
-/

namespace EffectLint

-- Tokens that end where the next ones start, or before.
def Token.InOrder (run : List Token) : Prop :=
  run.Pairwise fun first second => first.span.stop ≤ second.span.start

namespace Span.Covers

variable {span span' : Span} {run run' : List Token}

theorem start_le (h : span.Covers run) (hfilled : ∀ token ∈ run, token.span.start ≤ token.span.stop)
    (horder : Token.InOrder run) : ∀ token ∈ run, span.start ≤ token.span.start := by
  obtain ⟨first, last, hfirst, -, rfl⟩ := h
  obtain ⟨rest, rfl⟩ := List.head?_eq_some_iff.mp hfirst
  have hhead := hfilled first List.mem_cons_self
  refine List.forall_mem_cons.mpr ⟨Nat.le_refl _, fun token htoken => ?_⟩
  exact hhead.trans ((List.pairwise_cons.mp horder).1 token htoken)

theorem le_stop (h : span.Covers run) (hfilled : ∀ token ∈ run, token.span.start ≤ token.span.stop)
    (horder : Token.InOrder run) : ∀ token ∈ run, token.span.stop ≤ span.stop := by
  obtain ⟨first, last, -, hlast, rfl⟩ := h
  obtain ⟨init, rfl⟩ := List.getLast?_eq_some_iff.mp hlast
  have hend := hfilled last List.mem_concat_self
  refine List.forall_mem_append.mpr ⟨fun token htoken => ?_, List.forall_mem_singleton.mpr (Nat.le_refl _)⟩
  exact ((List.pairwise_append.mp horder).2.2 token htoken last List.mem_cons_self).trans hend

theorem exists_start (h : span.Covers run) : ∃ token ∈ run, span.start = token.span.start := by
  obtain ⟨first, last, hfirst, -, rfl⟩ := h
  exact ⟨first, List.mem_of_head? hfirst, rfl⟩

theorem exists_stop (h : span.Covers run) : ∃ token ∈ run, span.stop = token.span.stop := by
  obtain ⟨first, last, -, hlast, rfl⟩ := h
  exact ⟨last, List.mem_of_getLast? hlast, rfl⟩

-- The range of some of the tokens lies in the one of all of them.
theorem inside (h : span.Covers run) (h' : span'.Covers run') (hsubset : run' ⊆ run)
    (hfilled : ∀ token ∈ run, token.span.start ≤ token.span.stop) (horder : Token.InOrder run) :
    span.start ≤ span'.start ∧ span'.stop ≤ span.stop := by
  obtain ⟨first, hfirst, hstart⟩ := h'.exists_start
  obtain ⟨last, hlast, hstop⟩ := h'.exists_stop
  rw [hstart, hstop]
  exact ⟨h.start_le hfilled horder first (hsubset hfirst), h.le_stop hfilled horder last (hsubset hlast)⟩

theorem apart {front back : List Token} (h : span.Covers run) (h' : span'.Covers run')
    (hsubset : run ⊆ front) (hsubset' : run' ⊆ back) (horder : Token.InOrder (front ++ back)) :
    span.stop ≤ span'.start := by
  obtain ⟨last, hlast, hstop⟩ := h.exists_stop
  obtain ⟨first, hfirst, hstart⟩ := h'.exists_start
  rw [hstop, hstart]
  exact (List.pairwise_append.mp horder).2.2 last (hsubset hlast) first (hsubset' hfirst)

end Span.Covers

namespace Phrase

-- The phrases at any depth that carry a range lie in each other and follow each other.
structure Nests (whole : Phrase) : Prop where
  inside : ∀ part : Phrase, part.Within whole → ∀ span ∈ whole.span?, ∀ span' ∈ part.span?,
    span.start ≤ span'.start ∧ span'.stop ≤ span.stop
  ordered : whole.inner.Pairwise fun left right => ∀ part : Phrase, part.Within left →
    ∀ part' : Phrase, part'.Within right → ∀ span ∈ part.span?, ∀ span' ∈ part'.span?,
      span.stop ≤ span'.start

theorem ReadFrom.nests {scene : Scene} {whole : Phrase} {run : List Token}
    (h : whole.ReadFrom scene True run) (hrun : run <:+: scene.tokens)
    (horder : Token.InOrder scene.tokens) : whole.Nests := by
  have hordered : Token.InOrder run := horder.sublist hrun.sublist
  have hfilled : ∀ token ∈ run, token.span.start ≤ token.span.stop := fun token htoken =>
    scene.filled token (hrun.subset htoken)
  refine ⟨fun part hpart span hspan span' hspan' => ?_, h.siblings.imp fun {left right} happart => ?_⟩
  · obtain ⟨piece, hpiece, hread⟩ := h.within hpart
    exact (h.covers trivial hspan).inside (hread.covers trivial hspan') hpiece.subset hfilled hordered
  · obtain ⟨front, back, piece, piece', rfl, hpiece, hleft, hpiece', hright⟩ := happart
    intro part hpart part' hpart' span hspan span' hspan'
    obtain ⟨inner, hinner, hread⟩ := hleft.within hpart
    obtain ⟨inner', hinner', hread'⟩ := hright.within hpart'
    exact (hread.covers trivial hspan).apart (hread'.covers trivial hspan')
      (hinner.trans hpiece).subset (hinner'.trans hpiece').subset hordered

end Phrase

-- Without a diagnostic, every range goes from the first token of a phrase to its last one, and the
-- phrases nest.
theorem parse_ranges_nest {text : List Char} {fuel depth : Nat} {parsed : Parsed}
    (hparse : parse text fuel depth = .ok parsed) (hclean : parsed.diagnostics = #[]) :
    ∀ phrase : Phrase, phrase.Within (.Module parsed.items) →
      (∃ run, run <:+: lex text ∧ phrase.ReadFrom (.ofText text) True run ∧
        ∀ span ∈ phrase.span?, span.Covers run) ∧ phrase.Nests := by
  have horder : Token.InOrder (lex text) := (lex_covers text).2.1.imp And.right
  have hread : (Phrase.Module parsed.items).ReadFrom (.ofText text) True (lex text) :=
    (parse_traced hparse).read.mono fun _ => hclean
  intro phrase hphrase
  obtain ⟨run, hrun, hphrase⟩ := hread.within hphrase
  exact ⟨⟨run, hrun, hphrase, fun span => hphrase.covers trivial⟩, hphrase.nests hrun horder⟩

theorem parse_ranges_nest_sum :
    ∃ parsed, parse "int f(int[char] a) { return a[0] + 1; }".toList 100 30 = .ok parsed ∧
      parsed.diagnostics = #[] ∧
      ∀ phrase : Phrase, phrase.Within (.Module parsed.items) →
        (∃ run, run <:+: lex "int f(int[char] a) { return a[0] + 1; }".toList ∧
          phrase.ReadFrom (.ofText "int f(int[char] a) { return a[0] + 1; }".toList) True run ∧
          ∀ span ∈ phrase.span?, span.Covers run) ∧ phrase.Nests := by
  obtain ⟨parsed, hparse, hclean⟩ : ∃ parsed,
      parse "int f(int[char] a) { return a[0] + 1; }".toList 100 30 = .ok parsed ∧
        parsed.diagnostics = #[] := exists_clean_parse (by decide +kernel)
  exact ⟨parsed, hparse, hclean, parse_ranges_nest hparse hclean⟩

-- What is complained about at a place is complained about there only once, where every call has
-- the right number of arguments.
theorem parse_complaints_apart {text : List Char} {fuel depth : Nat} {parsed : Parsed}
    (hparse : parse text fuel depth = .ok parsed)
    (hcalls : ∀ diagnostic ∈ parsed.diagnostics, diagnostic.kind ≠ .WrongArgumentCount) :
    (Diagnostics.positions parsed.diagnostics.toList).Pairwise (· < ·) := by
  obtain ⟨last, horderly⟩ := (parse_traced hparse).orderly
  exact (horderly fun diagnostic hmem => hcalls diagnostic (Array.mem_toList_iff.mp hmem)).1

theorem parse_complaints_apart_two :
    ∃ parsed, parse "void f() { 1 2; return }".toList 100 30 = .ok parsed ∧
      parsed.diagnostics.map (·.kind) = #[.ExpectedSemicolon, .ExpectedExpression] ∧
      (Diagnostics.positions parsed.diagnostics.toList).Pairwise (· < ·) := by
  obtain ⟨parsed, hparse, hkinds⟩ : ∃ parsed,
      parse "void f() { 1 2; return }".toList 100 30 = .ok parsed ∧
        parsed.diagnostics.map (·.kind) = #[.ExpectedSemicolon, .ExpectedExpression] :=
    exists_parse (by decide +kernel)
  refine ⟨parsed, hparse, hkinds, parse_complaints_apart hparse fun diagnostic hmem hkind => ?_⟩
  have hmem' : DiagnosticKind.WrongArgumentCount ∈ parsed.diagnostics.map (·.kind) :=
    hkind ▸ Array.mem_map_of_mem hmem
  rw [hkinds] at hmem'
  simp at hmem'

-- The number of arguments is complained about where they began, and then the complaint before it is
-- made again.
theorem parse_complains_again :
    ∃ parsed, parse "void f() { x.remove(1, ]; }".toList 100 30 = .ok parsed ∧
      ¬(Diagnostics.positions parsed.diagnostics.toList).Nodup := by
  obtain ⟨parsed, hparse, hpositions⟩ : ∃ parsed,
      parse "void f() { x.remove(1, ]; }".toList 100 30 = .ok parsed ∧
        Diagnostics.positions parsed.diagnostics.toList = [23, 19, 23] := exists_parse (by decide +kernel)
  exact ⟨parsed, hparse, by rw [hpositions]; decide⟩

end EffectLint
