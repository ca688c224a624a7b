import EffectLint.Grammar.Item
import EffectLint.Proofs.Grammar.PlacedStatement
import EffectLint.Proofs.Token.Munch

/-!
The items of a module stand one behind the other between the start and the end of its text.
-/

namespace EffectLint

namespace Grammar

open Parse

variable {textEnd start : Nat} {before : Spot → Prop}

theorem placed_someItem {item : Item} {spot : Spot}
    (h : ∃ earlier, before earlier ∧ item.Laid earlier.offset spot.offset ∧
      earlier.offset ≤ spot.offset) :
    From before (Between fun found => InOrder Item.Laid found.toList) (some item) spot :=
  h.imp fun _ ⟨hbefore, hlaid, hle⟩ => ⟨hbefore, hle, .one hle hlaid⟩

-- A name behind the word that an item starts with.
theorem placed_worded {kind : TokenKind} {body : Name → Parse (Option Item)}
    (hbody : ∀ name, Places textEnd (fun spot => ∃ earlier, before earlier ∧
        earlier.offset < name.span.start ∧ name.span.start < spot.offset) (body name)
      (From before (Between fun found => InOrder Item.Laid found.toList))) :
    Places textEnd (fun spot => before spot ∧ spot.next = some kind) (do
      skip
      match ← expectName with
      | none => return none
      | some name => body name)
      (From before (Between fun found => InOrder Item.Laid found.toList)) := by
  refine (Places.skip fun _ h => ⟨_, h.2⟩).bind fun _ => Places.expectName.bind fun found => ?_
  cases found with
  | none =>
      refine .pure fun spot ⟨⟨earlier, ⟨hbefore, _⟩, hlt⟩, _⟩ => ?_
      exact between_none ⟨earlier, hbefore, Nat.le_of_lt hlt⟩
  | some name =>
      refine (hbody name).of_before fun spot h => ?_
      obtain ⟨middle, ⟨earlier, ⟨hbefore, -⟩, hlt⟩, hnext, hstart, hlt'⟩ := h
      exact ⟨earlier, hbefore, by omega, by omega⟩

theorem placed_readImport :
    Places textEnd (fun spot => before spot ∧ spot.next = some (.Word .Import)) readImport
      (From before (Between fun found => InOrder Item.Laid found.toList)) := by
  refine placed_worded fun name => stepwise_movesOn.expectSemicolon.places.bind fun _ =>
    .pure fun spot h => placed_someItem ?_
  obtain ⟨middle, ⟨earlier, hbefore, hlt, hlt'⟩, hle⟩ := h
  exact ⟨earlier, hbefore, ⟨hlt, by omega⟩, by omega⟩

theorem placed_readClass :
    Places textEnd (fun spot => before spot ∧ spot.next = some (.Word .Class)) readClass
      (From before (Between fun found => InOrder Item.Laid found.toList)) := by
  refine placed_worded fun name => stepwise_movesOn.expectSemicolon.places.bind fun _ =>
    .pure fun spot h => placed_someItem ?_
  obtain ⟨middle, ⟨earlier, hbefore, hlt, hlt'⟩, hle⟩ := h
  exact ⟨earlier, hbefore, ⟨hlt, by omega⟩, by omega⟩

theorem placed_readAlias :
    Places textEnd (fun spot => before spot ∧ spot.next = some (.Word .Alias)) readAlias
      (From before (Between fun found => InOrder Item.Laid found.toList)) := by
  refine placed_worded fun name => (stepwise_movesOn.expect _ _ rfl).places.bind fun _ =>
    (placed_read .Type _).bind fun target => stepwise_movesOn.expectSemicolon.places.bind fun _ =>
    .pure fun spot h => placed_someItem ?_
  obtain ⟨last, ⟨named, ⟨middle, ⟨earlier, hbefore, hlt, hlt'⟩, hle⟩, htype⟩, hle'⟩ := h
  have hle'' := htype.laid.le
  exact ⟨earlier, hbefore, ⟨named.offset, hlt, by omega, htype.laid.mono (Nat.le_refl _) hle'⟩, by omega⟩

theorem placed_readFunction (leading : Promises) (result : TypeTree) (name : Name) :
    Places textEnd (Named before start result name) (readFunction start leading result name)
      (From before (Between Item.Laid)) := by
  refine (placed_readParameters placed_read).bind fun parameters =>
    stepwise_movesOn.readPromises.places.bind fun promises => (Places.isAt_still _).bind fun _ => ?_
  have hbehind : ∀ body : Option Block, Places textEnd
      (From (Behind (From (Named before start result name) (Between (InOrder Parameter.Laid)) parameters))
        (Between fun found => InOrder (fun block => InOrder Statement.Laid block.statements) found.toList)
        body)
      (do return Item.Function ⟨← since start, name, leading.both promises, result, parameters, body⟩)
      (From before (Between Item.Laid)) := by
    refine fun body => (Places.since start).bind fun _ => .pure fun spot ⟨h, _⟩ => ?_
    obtain ⟨begun, ⟨listed, ⟨middle, ⟨earlier, typeEnd, hat, htype, hname, htyped, hnamed, hlt⟩, hle,
      hparameters⟩, hle₁⟩, hle₂, hbody⟩ := h
    refine ⟨earlier, hat.1, by omega, typeEnd, middle.offset, listed.offset, htype, hname, htyped,
      hnamed, hparameters, by omega, fun block hmem => ?_⟩
    obtain ⟨low, high, hlow, -, hhigh, hblock⟩ := hbody.of_mem (Option.mem_toList.mpr hmem)
    exact hblock.mono (by omega) hhigh
  refine .either ((placed_some (placed_readBlock placed_read)).bind hbehind)
    (stepwise_movesOn.expectSemicolon.places.bind fun _ => ?_)
  exact (placed_none.imp fun _ _ => early).bind hbehind

theorem placed_readDeclaration :
    Places textEnd before readDeclaration
      (From before (Between fun found => InOrder Item.Laid found.toList)) := by
  refine Places.here.bind fun span => stepwise_movesOn.readPromises.places.bind fun leading =>
    (placed_read .Type _).bind fun type => Places.expectName.bind fun found => ?_
  cases found with
  | none =>
      refine stepwise_movesOn.recoverItem.places.bind fun _ => .pure fun spot h => between_none ?_
      obtain ⟨last, ⟨⟨middle, ⟨earlier, ⟨hbefore, -⟩, hle⟩, htype⟩, -⟩, hle'⟩ := h
      have hle'' := htype.laid.le
      exact ⟨earlier, hbefore, by omega⟩
  | some name =>
      have hnamed : ∀ spot, (∃ earlier, From (Behind fun spot => before spot ∧ span.start = spot.offset)
            (Nonterminal.Placed .Type) type earlier ∧ earlier.next = some .Identifier ∧
            name.span.start = earlier.offset ∧ earlier.offset < spot.offset) →
          Named before span.start type name spot := by
        intro spot h
        obtain ⟨typed, ⟨middle, ⟨earlier, hat, hle⟩, htype⟩, hnext, hstart, hlt⟩ := h
        have hmoved := TypePlaced.moved htype hnext
        exact ⟨earlier, typed.offset, hat, htype.laid.mono hle (Nat.le_refl _), by omega, by omega,
          by omega, by omega⟩
      refine Places.of_before ((Places.isAt_still _).bind fun _ => .either ?_ ?_) hnamed
      · exact (placed_readFunction leading type name).bind fun _ => .pure fun _ => between_one
      · exact (placed_readInitialValue placed_read).bind fun _ =>
          stepwise_movesOn.expectSemicolon.places.bind fun _ => (Places.since _).bind fun _ =>
          .pure fun _ h => between_one (laid_declared (late h.1) h.2)

theorem placed_readItem :
    Places textEnd before readItem
      (From before (Between fun found => InOrder Item.Laid found.toList)) := by
  refine Places.inspect.bind fun next => ?_
  split
  · exact placed_none.of_before fun _ => And.left
  · exact placed_readImport
  · exact placed_readAlias
  · exact placed_readClass
  · exact stepwise_movesOn.skip.places.bind fun _ => .pure fun _ ⟨earlier, h, hle⟩ =>
      between_none ⟨earlier, h.1, hle⟩
  · exact placed_readDeclaration.of_before fun _ => And.left
  · exact placed_readDeclaration.of_before fun _ => And.left
  · exact placed_readDeclaration.of_before fun _ => And.left
  · exact placed_readDeclaration.of_before fun _ => And.left
  · exact Places.here.bind fun _ => (Places.complain _).bind fun _ =>
      stepwise_movesOn.recoverItem.places.bind fun _ => .pure fun _ ⟨earlier, h, hle⟩ =>
      between_none ⟨earlier, h.1.1, hle⟩

theorem placed_readItemRound (items : Array Item) :
    Places textEnd (Gathered before Item.Laid items) (readItemRound items)
      (Round.holdsAt (Gathered before Item.Laid) (Gathered before Item.Laid)) := by
  refine Places.atEnd.bind fun _ => .either (.pure fun _ h => h) <| Places.taken.bind fun _ =>
    placed_readItem.bind fun item => Places.taken.bind fun _ => ?_
  refine .either (stepwise_movesOn.skip.places.bind ?behind)
    (Places.of_before (?behind ()) fun _ => behind_self)
  intro _
  cases item with
  | none => exact .pure fun _ h => .append (late h) (by simp)
  | some item => exact .pure fun _ h => .append (late h) (by simp)

theorem placed_readItems :
    Places textEnd before readItems (From before (Between (InOrder Item.Laid))) :=
  ((Places.rounds (Gathered before Item.Laid) placed_readItemRound).of_before
    fun _ => Gathered.nothing).bind fun _ => .pure fun _ h => h

end Grammar

namespace Lexer

open Parse

theorem piecesFrom_filled (bound : Nat) (text : List Char) (found : List Piece)
    (hfound : ∀ piece ∈ found, piece.text ≠ []) :
    ∀ piece ∈ piecesFrom bound text found, piece.text ≠ [] := by
  induction bound generalizing text found with
  | zero => exact fun piece hmem => hfound piece (List.mem_reverse.mp hmem)
  | succ bound ih =>
      cases text with
      | nil => exact fun piece hmem => hfound piece (List.mem_reverse.mp hmem)
      | cons char rest =>
          simp only [piecesFrom]
          refine ih _ _ (List.forall_mem_cons.mpr ⟨fun hnone => ?_, hfound⟩)
          have hpositive := firstPiece_positive (char :: rest)
          rcases List.take_eq_nil_iff.mp hnone with hzero | hnil
          · omega
          · cases hnil

theorem piecesFrom_text {bound : Nat} {text : List Char} (hbound : text.length ≤ bound) :
    (piecesFrom bound text []).flatMap Piece.text = text := by
  induction bound generalizing text with
  | zero => rw [List.length_eq_zero_iff.mp (Nat.le_zero.mp hbound)]; rfl
  | succ bound ih =>
      cases text with
      | nil => rfl
      | cons char rest =>
          have hpositive := firstPiece_positive (char :: rest)
          simp only [piecesFrom]
          rw [piecesFrom_found, List.reverse_singleton, List.singleton_append, List.flatMap_cons, ih,
            List.take_append_drop]
          rw [List.length_cons] at hbound
          rw [List.length_drop, List.length_cons]
          omega

-- What is gathered starts ascending, before what is read next.
structure Gathered.Placed (gathered : Gathered) : Prop where
  known : gathered.garbage = none → Parse.Placed gathered.offset gathered.tokens.toList
  unknown : ∀ garbage ∈ gathered.garbage, Parse.Placed garbage.start gathered.tokens.toList ∧
    garbage.start < gathered.offset

theorem placed_push {tokens : List Token} {token : Token} {textEnd : Nat}
    (h : Parse.Placed token.span.start tokens) (hlt : token.span.start < textEnd) :
    Parse.Placed textEnd (tokens ++ [token]) := by
  induction tokens with
  | nil => exact ⟨hlt, trivial⟩
  | cons first rest ih =>
      refine ⟨?_, ih h.2⟩
      cases rest with
      | nil => exact h.1
      | cons second rest => exact h.1

theorem placed_later {tokens : List Token} {textEnd textEnd' : Nat} (h : Parse.Placed textEnd tokens)
    (hle : textEnd ≤ textEnd') : Parse.Placed textEnd' tokens := by
  induction tokens with
  | nil => trivial
  | cons first rest ih =>
      refine ⟨?_, ih h.2⟩
      cases rest with
      | nil => exact Nat.lt_of_lt_of_le h.1 hle
      | cons second rest => exact h.1

theorem Gathered.Placed.flush {gathered : Gathered} (h : gathered.Placed) :
    Parse.Placed gathered.offset gathered.flush.toList := by
  unfold Gathered.flush
  cases hgarbage : gathered.garbage with
  | none => exact h.known hgarbage
  | some garbage =>
      obtain ⟨htokens, hlt⟩ := h.unknown garbage hgarbage
      simp only [Array.toList_push]
      exact placed_push htokens hlt

theorem Gathered.Placed.add {gathered : Gathered} (h : gathered.Placed) {piece : Piece}
    (hpiece : piece.text ≠ []) : (gathered.add piece).Placed := by
  have hwidth : 0 < Text.width piece.text := by
    cases htext : piece.text with
    | nil => exact absurd htext hpiece
    | cons char rest =>
        have := char.utf8Size_pos
        rw [Text.width_cons]
        omega
  obtain ⟨kind, text⟩ := piece
  obtain ⟨offset, garbage, tokens⟩ := gathered
  cases kind with
  | Token kind =>
      refine ⟨fun _ => ?_, nofun⟩
      simp only [Gathered.add, Array.toList_push]
      exact placed_push h.flush (Nat.lt_add_of_pos_right hwidth)
  | Trivia =>
      cases garbage with
      | none => exact ⟨fun _ => placed_later (h.known rfl) (Nat.le_add_right _ _), nofun⟩
      | some garbage =>
          refine ⟨nofun, fun other hother => ?_⟩
          obtain rfl := Option.some.inj hother
          obtain ⟨htokens, hlt⟩ := h.unknown garbage rfl
          exact ⟨htokens, Nat.lt_add_right _ hlt⟩
  | Unknown =>
      cases garbage with
      | none =>
          refine ⟨nofun, fun other hother => ?_⟩
          obtain rfl := Option.some.inj hother
          exact ⟨h.known rfl, Nat.lt_add_of_pos_right hwidth⟩
      | some garbage =>
          refine ⟨nofun, fun other hother => ?_⟩
          obtain rfl := Option.some.inj hother
          obtain ⟨htokens, hlt⟩ := h.unknown garbage rfl
          exact ⟨htokens, Nat.lt_add_right _ hlt⟩

theorem gather_placed {pieces : List Piece} {gathered : Gathered} (h : gathered.Placed)
    (hpieces : ∀ piece ∈ pieces, piece.text ≠ []) :
    Parse.Placed (gathered.offset + Text.width (pieces.flatMap Piece.text))
      (pieces.foldl Gathered.add gathered).flush.toList := by
  induction pieces generalizing gathered with
  | nil => exact h.flush
  | cons piece pieces ih =>
      obtain ⟨hpiece, hrest⟩ := List.forall_mem_cons.mp hpieces
      have hoffset : (gathered.add piece).offset = gathered.offset + Text.width piece.text := by
        unfold Gathered.add
        cases piece.kind <;> rfl
      have hplaced := ih (h.add hpiece) hrest
      rwa [hoffset, Nat.add_assoc, ← Text.width_append, ← List.flatMap_cons] at hplaced

end Lexer

theorem lex_placed (text : List Char) : Parse.Placed (Text.width text) (lex text) := by
  have hstart : Lexer.Gathered.start.Placed := ⟨fun _ => trivial, nofun⟩
  have hplaced := Lexer.gather_placed hstart (Lexer.piecesFrom_filled text.length text [] nofun)
  rwa [Lexer.piecesFrom_text (Nat.le_refl _), Lexer.Gathered.start, Nat.zero_add] at hplaced

-- The items that a text is read as stand one behind the other in it.
theorem parse_laid {text : List Char} {fuel depth : Nat} {parsed : Parsed}
    (hparse : parse text fuel depth = .ok parsed) :
    InOrder Item.Laid parsed.items 0 (Text.width text) := by
  have hreads : Parse.Places (Text.width text) (fun _ => True) Grammar.readItems _ :=
    Grammar.placed_readItems
  unfold parse parseTokens at hparse
  cases hrun : Grammar.readItems ⟨Text.width text, depth⟩ (.start (lex text) fuel) with
  | error reason =>
      rw [hrun] at hparse
      cases hparse
  | ok found =>
      rw [hrun] at hparse
      cases hparse
      obtain ⟨hplaced, earlier, -, hle, hlaid⟩ := hreads _ _ found.1 found.2 rfl hrun
        (lex_placed text) trivial
      exact hlaid.mono (Nat.zero_le _) (Parse.spot_le hplaced)

end EffectLint
