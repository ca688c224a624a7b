import EffectLint.Proofs.Token.Lexeme

/-!
How the tokens of a text are laid out over it: one behind the other, with trivia in between. Trivia
is a run of blanks, a comment up to the end of its line, or a comment up to the first sign that closes
it. The gathering of pieces into tokens is followed piece by piece.
-/

namespace EffectLint

namespace Pattern

-- A property of repetitions that holds of none and is kept by one more round in front.
theorem Matches.many_rec {body : Pattern} {p : List Char → Prop} {text : List Char}
    (h : Matches (.Many body) text) (hdone : p [])
    (hmore : ∀ front back, Matches body front → p back → p (front ++ back)) : p text := by
  generalize hpattern : Pattern.Many body = pattern at h
  induction h with
  | Blank | One | Left | Right | Next => cases hpattern
  | Done => exact hdone
  | More hbody _ _ ih =>
      cases hpattern
      exact hmore _ _ hbody (ih rfl)

theorem matches_lineComment {text : List Char} :
    Matches lineComment text ↔ ∃ body, text = '/' :: '/' :: body ∧ '\n' ∉ body := by
  have hbody : ∀ body : List Char,
      (∀ char ∈ body, (char != '\n') = true) ↔ '\n' ∉ body := by
    intro body
    simp only [bne_iff_ne]
    exact ⟨fun h hmem => h _ hmem rfl, fun h char hmem heq => h (heq ▸ hmem)⟩
  simp only [lineComment, matches_Next, matches_literal, matches_many_one, hbody]
  constructor
  · rintro ⟨front, body, rfl, rfl, hline⟩
    exact ⟨body, rfl, hline⟩
  · rintro ⟨body, rfl, hline⟩
    exact ⟨_, body, rfl, rfl, hline⟩

-- Whether the sign that closes a comment is nowhere in a text.
def Open (text : List Char) : Prop :=
  ¬['*', '/'] <:+: text

theorem open_nil : Open [] := by
  simp [Open]

theorem open_cons {char : Char} {text : List Char} (h : Open text)
    (hclose : char = '*' → text.head? ≠ some '/') : Open (char :: text) := by
  intro hinfix
  rcases List.infix_cons_iff.mp hinfix with hprefix | hlater
  · obtain ⟨heq, hrest⟩ := List.cons_prefix_cons.mp hprefix
    obtain ⟨rest, rfl⟩ := hrest
    exact hclose heq.symm rfl
  · exact h hlater

-- Stars in front of a text that starts with no slash close nothing.
theorem open_stars {stars text : List Char} (hstars : ∀ char ∈ stars, char = '*')
    (h : Open text) (hslash : text.head? ≠ some '/') : Open (stars ++ text) := by
  induction stars with
  | nil => exact h
  | cons star stars ih =>
      obtain ⟨rfl, hrest⟩ := List.forall_mem_cons.mp hstars
      apply open_cons (ih hrest)
      intro _
      cases stars with
      | nil => exact hslash
      | cons second stars =>
          have hsecond := hrest second List.mem_cons_self
          simp [hsecond]

theorem matches_stars {text : List Char} :
    Matches (atLeastOnce (char '*')) text ↔ text ≠ [] ∧ ∀ char ∈ text, char = '*' := by
  simp only [atLeastOnce, char, matches_one_next, matches_many_one, beq_iff_eq]
  constructor
  · rintro ⟨first, rest, rfl, rfl, hrest⟩
    exact ⟨List.cons_ne_nil _ _, List.forall_mem_cons.mpr ⟨rfl, hrest⟩⟩
  · rintro ⟨hnil, hall⟩
    obtain ⟨first, rest, rfl⟩ := List.exists_cons_of_ne_nil hnil
    exact ⟨first, rest, rfl, List.forall_mem_cons.mp hall⟩

-- What a comment holds before the stars that close it.
def insideComment : Pattern :=
  .Either (.One (· != '*'))
    (.Next (atLeastOnce (char '*')) (.One fun char => char != '*' && char != '/'))

theorem open_inside {front rest : List Char} (hfront : Matches insideComment front)
    (hrest : Open rest) : Open (front ++ rest) := by
  cases hfront with
  | Left h =>
      obtain ⟨char, rfl, hchar⟩ := matches_one.mp h
      exact open_cons hrest fun heq => absurd heq (by simpa using hchar)
  | Right h =>
      obtain ⟨stars, last, rfl, hstars, hlast⟩ := matches_Next.mp h
      obtain ⟨char, rfl, hchar⟩ := matches_one.mp hlast
      simp only [Bool.and_eq_true, bne_iff_ne] at hchar
      rw [List.append_assoc]
      apply open_stars (matches_stars.mp hstars).2
      · exact open_cons hrest fun heq => absurd heq hchar.1
      · simpa using hchar.2

-- The stars that close a comment are part of what must not close it before.
theorem open_of_many {inner stars : List Char} (hinner : Matches (.Many insideComment) inner)
    (hstars : ∀ char ∈ stars, char = '*') : Open (inner ++ stars) := by
  apply hinner.many_rec (p := fun inner => Open (inner ++ stars))
  · have hopen := open_stars hstars open_nil (by simp)
    rwa [List.append_nil] at hopen
  · intro front back hfront hback
    rw [List.append_assoc]
    exact open_inside hfront hback

theorem of_matches_blockComment {text : List Char} (h : Matches blockComment text) :
    ∃ body, text = '/' :: '*' :: (body ++ ['*', '/']) ∧ Open (body ++ ['*']) := by
  have hshape : blockComment = .Next (literal ['/', '*'])
      (.Next (.Many insideComment) (.Next (atLeastOnce (char '*')) (char '/'))) := rfl
  rw [hshape] at h
  obtain ⟨opening, behind, rfl, hopening, hbehind⟩ := matches_Next.mp h
  obtain ⟨inner, closing, rfl, hinner, hclosing⟩ := matches_Next.mp hbehind
  obtain ⟨stars, slash, rfl, hstars, hslash⟩ := matches_Next.mp hclosing
  obtain ⟨last, rfl, hlast⟩ := matches_one.mp hslash
  obtain ⟨hnil, hall⟩ := matches_stars.mp hstars
  -- the last of the closing stars belongs to the sign, the others to the body
  obtain ⟨others, star, rfl⟩ := List.eq_nil_or_concat stars |>.resolve_left hnil
  obtain rfl : star = '*' := hall star (by simp)
  have hopen := open_of_many hinner hall
  refine ⟨inner ++ others, ?_, ?_⟩
  · rw [matches_literal.mp hopening, eq_of_beq hlast]
    simp
  · simpa using hopen

end Pattern

namespace Lexer

-- What is left out between tokens, in front of `after`.
inductive Skipped (after : List Char) : List Char → Prop where
  | Blanks {text} : text ≠ [] → (∀ char ∈ text, Pattern.isBlank char = true) → Skipped after text
  | Line {body} : '\n' ∉ body → (∀ next ∈ after.head?, next = '\n') →
      Skipped after ('/' :: '/' :: body)
  | Block {body} : Pattern.Open (body ++ ['*']) → Skipped after ('/' :: '*' :: (body ++ ['*', '/']))

-- A rule that matches one character more than the longest match is none of the rules.
theorem LongestMatch.not_longer {front after : List Char} {next : Char} {kind : Option TokenKind}
    (h : LongestMatch Rule.all (front ++ next :: after) front.length kind) {rule : Rule}
    (hrule : rule ∈ Rule.all) : ¬rule.pattern.Matches (front ++ [next]) := by
  have hnone := h.longest (front.length + 1) (by omega) (by simp)
  have htake : (front ++ next :: after).take (front.length + 1) = front ++ [next] := by
    rw [List.take_length_add_append, List.take_succ_cons, List.take_zero]
  rw [htake] at hnone
  exact Rule.first?_eq_none_iff.mp hnone rule hrule

theorem skipped_of_longest {front after : List Char}
    (h : LongestMatch Rule.all (front ++ after) front.length none) : Skipped after front := by
  have hall : ∀ rule ∈ Rule.all, rule.pattern.Matches front → rule.kind = none →
      Skipped after front := by
    refine Rule.forall_mem_all.mpr ⟨⟨?_, ?_, ?_⟩, ?_, ?_, ?_, ?_⟩
    · intro hmatch _
      obtain ⟨char, rest, rfl, hchar, hrest⟩ := Pattern.matches_whitespace.mp hmatch
      exact .Blanks (List.cons_ne_nil _ _) (List.forall_mem_cons.mpr ⟨hchar, hrest⟩)
    · intro hmatch _
      obtain ⟨body, rfl, hbody⟩ := Pattern.matches_lineComment.mp hmatch
      apply Skipped.Line hbody
      intro next hnext
      by_cases hline : next = '\n'
      · exact hline
      cases after with
      | nil => simp at hnext
      | cons other after =>
          exfalso
          obtain rfl : other = next := by simpa using hnext
          have hrule : (⟨.lineComment, none⟩ : Rule) ∈ Rule.all := by simp [Rule.all, Rule.trivia]
          apply h.not_longer hrule
          apply Pattern.matches_lineComment.mpr
          exact ⟨body ++ [other], rfl, by simp [hbody, Ne.symm hline]⟩
    · intro hmatch _
      obtain ⟨body, rfl, hopen⟩ := Pattern.of_matches_blockComment hmatch
      exact .Block hopen
    · intro kind _ _ hkind
      cases hkind
    · intro _ hkind
      cases hkind
    · intro _ hkind
      cases hkind
    · intro _ hkind
      cases hkind
  have hmatched := h.matched
  rw [List.take_left] at hmatched
  obtain ⟨rule, hrule, hmatches, hkind⟩ := Rule.exists_of_first? hmatched
  exact hall rule hrule hmatches hkind

end Lexer

namespace Lexer

-- No rule matches any front of the text.
def Stuck (text : List Char) : Prop :=
  ∀ length, 0 < length → length ≤ text.length → Rule.first? Rule.all (text.take length) = none

-- The pieces that a text is cut into, one behind the other.
inductive Cut : List Char → List Piece → Prop where
  | Nil : Cut [] []
  | Known {front rest kind pieces} : LongestMatch Rule.all (front ++ rest) front.length kind →
      Cut rest pieces → Cut (front ++ rest) (⟨.ofRule kind, front⟩ :: pieces)
  | Unknown {front rest pieces} : front ≠ [] → Stuck (front ++ rest) →
      Cut rest pieces → Cut (front ++ rest) (⟨.Unknown, front⟩ :: pieces)

theorem firstPiece_cases (text : List Char) :
    (∃ kind, LongestMatch Rule.all text (firstPiece text).2 kind ∧
      (firstPiece text).1 = .ofRule kind) ∨ (Stuck text ∧ (firstPiece text).1 = .Unknown) := by
  rcases munchFrom_spec Rule.all ⟨0, none⟩ text with ⟨length, kind, h, _⟩ | ⟨hnone, hmunch⟩
  · left
    rw [firstPiece_of_longest h]
    exact ⟨kind, h, rfl⟩
  · right
    have hlongest : (munch text).longest = none := by rw [munch, hmunch]
    exact ⟨hnone, by simp [firstPiece, hlongest]⟩

theorem pieces_cons {text : List Char} (htext : text ≠ []) :
    pieces text = ⟨(firstPiece text).1, text.take (firstPiece text).2⟩ ::
      pieces (text.drop (firstPiece text).2) := by
  have hpositive := firstPiece_positive text
  obtain ⟨char, rest, rfl⟩ := List.exists_cons_of_ne_nil htext
  have hfirst : pieces (char :: rest) =
      piecesFrom rest.length ((char :: rest).drop (firstPiece (char :: rest)).2)
        [⟨(firstPiece (char :: rest)).1, (char :: rest).take (firstPiece (char :: rest)).2⟩] := by
    rw [pieces, List.length_cons, piecesFrom]
    simp
  rw [hfirst, piecesFrom_found, List.reverse_singleton, List.singleton_append]
  congr 1
  apply piecesFrom_bound
  · rw [List.length_drop, List.length_cons]
    omega
  · exact Nat.le_refl _

theorem cut_pieces (text : List Char) : Cut text (pieces text) := by
  induction hlength : text.length using Nat.strongRecOn generalizing text with
  | ind length ih =>
      by_cases htext : text = []
      · subst htext
        exact .Nil
      have hpositive := firstPiece_positive text
      have hsome := List.length_pos_iff.mpr htext
      have hrest := ih _ (by rw [List.length_drop]; omega) (text.drop (firstPiece text).2) rfl
      have hsplit := List.take_append_drop (firstPiece text).2 text
      have hfront : text.take (firstPiece text).2 ≠ [] := by
        intro hnil
        rcases List.take_eq_nil_iff.mp hnil with hzero | hnil
        · omega
        · exact htext hnil
      rw [pieces_cons htext]
      generalize hcut : text.take (firstPiece text).2 = front at hsplit hfront
      generalize text.drop (firstPiece text).2 = rest at hsplit hrest
      rcases firstPiece_cases text with ⟨kind, hlongest, hkind⟩ | ⟨hstuck, hkind⟩
      · have hlength : front.length = (firstPiece text).2 := by
          rw [← hcut, List.length_take]
          exact Nat.min_eq_left hlongest.inside
        rw [hkind]
        rw [← hlength] at hlongest
        subst hsplit
        exact .Known hlongest hrest
      · rw [hkind]
        subst hsplit
        exact .Unknown hfront hstuck hrest

-- The tokens of a text that starts at the offset.
inductive Laid : Nat → List Char → List Token → Prop where
  | End {offset} : Laid offset [] []
  | Skip {offset front rest tokens} : LongestMatch Rule.all (front ++ rest) front.length none →
      Laid (offset + Text.width front) rest tokens → Laid offset (front ++ rest) tokens
  | Read {offset front rest kind tokens} :
      LongestMatch Rule.all (front ++ rest) front.length (some kind) →
      Laid (offset + Text.width front) rest tokens →
      Laid offset (front ++ rest)
        (⟨kind, ⟨offset, offset + Text.width front⟩, String.ofList front⟩ :: tokens)
  | Garbage {offset front rest tokens} : front ≠ [] → Stuck (front ++ rest) →
      (∀ next ∈ tokens.head?, next.kind ≠ .Garbage) →
      Laid (offset + Text.width front) rest tokens →
      Laid offset (front ++ rest)
        (⟨.Garbage, ⟨offset, offset + Text.width front⟩, String.ofList front⟩ :: tokens)

-- No rule gives garbage.
theorem LongestMatch.not_garbage {text : List Char} {length : Nat} {kind : TokenKind}
    (h : LongestMatch Rule.all text length (some kind)) : kind ≠ .Garbage := by
  have hall : ∀ rule ∈ Rule.all, rule.kind ≠ some .Garbage := by decide +kernel
  obtain ⟨rule, hrule, _, hkind⟩ := Rule.exists_of_first? h.matched
  rintro rfl
  exact hall rule hrule hkind

-- The tokens that complete what is gathered, where `text` is still to be read.
def Gathered.Completed (gathered : Gathered) (text : List Char) (all : List Token) : Prop :=
  match gathered.garbage with
  | none => ∃ tokens, all = gathered.tokens.toList ++ tokens ∧ Laid gathered.offset text tokens
  | some garbage => ∃ more rest tokens,
      garbage.trivia.reverse ++ text = more ++ rest ∧
      all = gathered.tokens.toList ++ ⟨.Garbage,
        ⟨garbage.start, garbage.start + Text.width garbage.text + Text.width more⟩,
        String.ofList (garbage.text.reverse ++ more)⟩ :: tokens ∧
      (∀ next ∈ tokens.head?, next.kind ≠ .Garbage) ∧
      Laid (garbage.start + Text.width garbage.text + Text.width more) rest tokens

-- The trivia kept aside stands between the garbage and the text that is still to be read, and may
-- be left out before all that follows.
structure Gathered.Ready (gathered : Gathered) (text : List Char) : Prop where
  aside : ∀ garbage ∈ gathered.garbage, gathered.offset =
    garbage.start + Text.width garbage.text + Text.width garbage.trivia
  skips : ∀ garbage ∈ gathered.garbage, ∀ tokens, Laid gathered.offset text tokens →
    Laid (garbage.start + Text.width garbage.text) (garbage.trivia.reverse ++ text) tokens

theorem Gathered.ready_of_none {gathered : Gathered} {text : List Char}
    (h : gathered.garbage = none) : gathered.Ready text := by
  constructor <;> simp [h]

-- The garbage that is gathered ends where its last unknown piece does.
theorem Gathered.Ready.flush {gathered : Gathered} {text : List Char} {tokens : List Token}
    (h : gathered.Ready text) (htokens : ∀ next ∈ tokens.head?, next.kind ≠ .Garbage)
    (hlaid : Laid gathered.offset text tokens) :
    gathered.Completed text (gathered.flush.toList ++ tokens) := by
  unfold Gathered.Completed Gathered.flush
  cases hgarbage : gathered.garbage with
  | none => exact ⟨tokens, rfl, hlaid⟩
  | some garbage =>
      refine ⟨[], garbage.trivia.reverse ++ text, tokens, rfl, ?_, htokens, ?_⟩
      · simp
      · exact h.skips garbage hgarbage tokens hlaid

theorem Gathered.Ready.trivia {gathered : Gathered} {front rest : List Char}
    (h : gathered.Ready (front ++ rest))
    (hlongest : LongestMatch Rule.all (front ++ rest) front.length none) :
    (gathered.add ⟨.Trivia, front⟩).Ready rest := by
  constructor
  · intro garbage hgarbage
    obtain ⟨before, hbefore, rfl⟩ := Option.map_eq_some_iff.mp hgarbage
    have haside := h.aside before hbefore
    simp only [Gathered.add, Text.width_append, Text.width_reverse]
    omega
  · intro garbage hgarbage tokens hlaid
    obtain ⟨before, hbefore, rfl⟩ := Option.map_eq_some_iff.mp hgarbage
    rw [List.reverse_append, List.reverse_reverse, List.append_assoc]
    exact h.skips before hbefore tokens (.Skip hlongest hlaid)

-- An unknown piece takes the trivia in front of it into the garbage.
theorem Gathered.Ready.unknown {gathered : Gathered} {front rest : List Char}
    (h : gathered.Ready (front ++ rest)) : (gathered.add ⟨.Unknown, front⟩).Ready rest := by
  have hends : ∀ garbage ∈ (gathered.add ⟨.Unknown, front⟩).garbage, garbage.trivia = [] ∧
      gathered.offset + Text.width front = garbage.start + Text.width garbage.text := by
    intro garbage hgarbage
    obtain rfl := Option.some.inj hgarbage
    cases hbefore : gathered.garbage with
    | none => exact ⟨rfl, by rw [Text.width_reverse]⟩
    | some before =>
        have haside := h.aside before hbefore
        refine ⟨rfl, ?_⟩
        simp only [Text.width_append, Text.width_reverse]
        omega
  constructor
  · intro garbage hgarbage
    obtain ⟨htrivia, hend⟩ := hends garbage hgarbage
    rw [htrivia, Text.width_nil, Nat.add_zero]
    exact hend
  · intro garbage hgarbage tokens hlaid
    obtain ⟨htrivia, hend⟩ := hends garbage hgarbage
    rw [htrivia, ← hend]
    exact hlaid

theorem Gathered.Completed.trivia {gathered : Gathered} {front rest : List Char}
    {all : List Token} (hlongest : LongestMatch Rule.all (front ++ rest) front.length none)
    (h : (gathered.add ⟨.Trivia, front⟩).Completed rest all) :
    gathered.Completed (front ++ rest) all := by
  obtain ⟨offset, garbage, tokens⟩ := gathered
  cases garbage with
  | none =>
      obtain ⟨later, rfl, hlaid⟩ := h
      exact ⟨later, rfl, .Skip hlongest hlaid⟩
  | some garbage =>
      obtain ⟨more, behind, later, hsplit, hall, hnext, hlaid⟩ := h
      refine ⟨more, behind, later, ?_, hall, hnext, hlaid⟩
      simpa using hsplit

theorem Gathered.Completed.unknown {gathered : Gathered} {front rest : List Char}
    {all : List Token} (hfront : front ≠ []) (hstuck : Stuck (front ++ rest))
    (h : (gathered.add ⟨.Unknown, front⟩).Completed rest all) :
    gathered.Completed (front ++ rest) all := by
  obtain ⟨offset, garbage, tokens⟩ := gathered
  cases garbage with
  | none =>
      obtain ⟨more, behind, later, hsplit, rfl, hnext, hlaid⟩ := h
      obtain rfl : rest = more ++ behind := hsplit
      rw [← List.append_assoc] at hstuck ⊢
      simp only [Text.width_reverse, Nat.add_assoc, ← Text.width_append,
        List.reverse_reverse] at hlaid ⊢
      have hsome : front ++ more ≠ [] := by simp [hfront]
      exact ⟨_, rfl, .Garbage hsome hstuck hnext hlaid⟩
  | some garbage =>
      obtain ⟨more, behind, later, hsplit, hall, hnext, hlaid⟩ := h
      obtain rfl : rest = more ++ behind := hsplit
      have hwidth : garbage.start +
            Text.width (front.reverse ++ (garbage.trivia ++ garbage.text)) + Text.width more =
          garbage.start + Text.width garbage.text +
            Text.width (garbage.trivia.reverse ++ (front ++ more)) := by
        simp only [Text.width_append, Text.width_reverse]
        omega
      rw [hwidth] at hall hlaid
      refine ⟨garbage.trivia.reverse ++ (front ++ more), behind, later, ?_, ?_, hnext, hlaid⟩
      · simp
      · rw [hall]
        simp [Gathered.add]

-- Each piece in turn keeps what the pieces behind it complete.
theorem gather_completed {text : List Char} {pieces : List Piece} (hcut : Cut text pieces)
    (gathered : Gathered) (hready : gathered.Ready text) :
    gathered.Completed text (pieces.foldl Gathered.add gathered).flush.toList := by
  induction hcut generalizing gathered with
  | Nil =>
      have hflush : gathered.Completed [] (gathered.flush.toList ++ []) := hready.flush nofun .End
      rwa [List.append_nil] at hflush
  | @Known front rest kind pieces hlongest _ ih =>
      rw [List.foldl_cons]
      cases kind with
      | none => exact .trivia hlongest (ih _ (hready.trivia hlongest))
      | some kind =>
          obtain ⟨tokens, hall, hlaid⟩ := ih (gathered.add ⟨.Token kind, front⟩)
            (Gathered.ready_of_none rfl)
          rw [PieceKind.ofRule, hall, Gathered.add, Array.toList_push, List.append_assoc]
          apply hready.flush _ (.Read hlongest hlaid)
          intro next hnext
          obtain rfl := Option.some.inj hnext
          exact hlongest.not_garbage
  | @Unknown front rest pieces hfront hstuck _ ih =>
      rw [List.foldl_cons]
      exact .unknown hfront hstuck (ih _ hready.unknown)

theorem laid_lex (text : List Char) : Laid 0 text (lex text) := by
  obtain ⟨tokens, hall, hlaid⟩ := gather_completed (cut_pieces text) .start (Gathered.ready_of_none rfl)
  rw [lex, hall]
  exact hlaid

end Lexer

end EffectLint
