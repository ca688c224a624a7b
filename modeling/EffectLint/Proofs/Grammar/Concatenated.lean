import EffectLint.Proofs.Grammar.Budget
import EffectLint.Proofs.Grammar.Finished
import EffectLint.Proofs.Grammar.MovedModule
import EffectLint.Proofs.Grammar.Restored
import EffectLint.Proofs.Token.Cover

/-!
Texts one behind the other. The items of the first end behind stops of their own and leave nothing
behind but the place where they end, so those of the second are read as if they stood alone.
-/

namespace EffectLint

open Parse Lexer

namespace Parse

variable {σ α : Type} {round : σ → Parse (Round σ α)}

theorem kept_roundsAtMost (hround : ∀ state, Kept (round state)) (bound : Nat) (first : σ) :
    Kept (roundsAtMost round bound first) := by
  induction bound generalizing first with
  | zero => exact fun _ _ _ _ hrun => nomatch hrun
  | succ bound ih =>
      refine Ensures.bind (hround first) fun found => ?_
      cases found with
      | Again next => exact (ih next).ensures fun _ => id
      | Done result => exact .pure fun _ h => h

end Parse

namespace Grammar

variable {limits : Limits} {state after : ParseState} {items : Array Item}

def gathered (items : Array Item) : Option Item → Array Item
  | some item => items.push item
  | none => items

theorem gathered_append (front items : Array Item) (item : Option Item) :
    gathered (front ++ items) item = front ++ gathered items item := by
  cases item with
  | none => rfl
  | some item => exact Array.append_push.symm

-- One item, where the text goes on.
def takeItem : Parse (Option Item) := do
  let before ← taken
  let item ← readItem
  if (← taken) = before then
    skip
  return item

theorem readItemRound_eq (items : Array Item) : readItemRound items = do
    if ← atEnd then
      return .Done items
    else
      return .Again (gathered items (← takeItem)) := by
  unfold readItemRound takeItem
  apply bind_congr
  intro ended
  split
  · rfl
  · simp only [bind_assoc]
    refine bind_congr fun before => bind_congr fun item => bind_congr fun after => ?_
    split <;> cases item <;> simp only [bind_assoc, pure_bind] <;> rfl

theorem readItemRound_done (hrest : state.rest = []) :
    readItemRound items limits state = .ok (.Done items, state) := by
  rw [readItemRound_eq]
  show (if state.rest.isEmpty = true then _ else _ : Parse _) limits state = _
  rw [hrest]
  rfl

theorem readItemRound_again (hrest : state.rest ≠ []) {item : Option Item}
    (hitem : takeItem limits state = .ok (item, after)) :
    readItemRound items limits state = .ok (.Again (gathered items item), after) := by
  obtain ⟨token, rest, hcons⟩ := List.exists_cons_of_ne_nil hrest
  rw [readItemRound_eq]
  show (if state.rest.isEmpty = true then _ else _ : Parse _) limits state = _
  rw [hcons, List.isEmpty_cons, if_neg Bool.false_ne_true, bind_of_ok hitem]
  rfl

theorem readItemRound_error (hrest : state.rest ≠ []) {reason : Exhausted}
    (hitem : takeItem limits state = .error reason) :
    readItemRound items limits state = .error reason := by
  obtain ⟨token, rest, hcons⟩ := List.exists_cons_of_ne_nil hrest
  rw [readItemRound_eq]
  show (if state.rest.isEmpty = true then _ else _ : Parse _) limits state = _
  rw [hcons, List.isEmpty_cons, if_neg Bool.false_ne_true, bind_of_error hitem]

theorem takeItem_of_readItem {item : Option Item} (h : readItem limits state = .ok (item, after))
    (htaken : after.taken ≠ state.taken) : takeItem limits state = .ok (item, after) := by
  show (readItem limits state >>= fun found =>
    (if found.2.taken = state.taken then skip >>= fun _ => pure found.1 else pure found.1 : Parse _)
      limits found.2) = _
  rw [h]
  show (if after.taken = state.taken then _ else _ : Parse _) limits after = _
  rw [if_neg htaken]
  rfl

-- The stop that an item ends with is a token that is taken, so none has to be passed over.
theorem readItem_of_takeItem {item : Option Item} (hrest : state.rest ≠ []) (hquiet : Quiet state)
    (hrun : takeItem limits state = .ok (item, after)) (hnoisy : ¬Noisy after) :
    readItem limits state = .ok (item, after) ∧ after.taken ≠ state.taken := by
  have hbehind : ∀ count (found : Option Item), Kept (do
      if (← taken) = count then
        skip
      return found) := fun count found => stepwise_kept.taken.bind fun _ =>
    .either (stepwise_kept.skip.bind fun _ => stepwise_kept.pure _) (stepwise_kept.pure _)
  have hsplit : (readItem >>= fun found => do
      if (← taken) = state.taken then
        skip
      return found : Parse (Option Item)) limits state = .ok (item, after) := hrun
  obtain ⟨found, middle, hitem, hlast⟩ := of_bind hsplit
  have hsilent : ¬Noisy middle := fun h =>
    hnoisy ((hbehind _ found limits middle item after hlast).1 h)
  obtain ⟨⟨front, hstop, hfront⟩, _⟩ :=
    finishes_readItem.ends limits state found middle hquiet hrest hitem hsilent
  have htaken : middle.taken ≠ state.taken := by
    have hcount := stepwise_counted.readItem read_counted limits state found middle hitem
    obtain ⟨token, rest, rfl⟩ := hstop.exists_cons
    rw [hfront, List.length_append, List.length_cons] at hcount
    omega
  rw [takeItem_of_readItem hitem htaken] at hrun
  cases hrun
  exact ⟨hitem, htaken⟩

-- An item is read in the same way whatever comes behind it.
theorem takeItem_followed {item : Option Item} (hrest : state.rest ≠ []) (hquiet : Quiet state)
    (hrun : takeItem limits state = .ok (item, after)) (hnoisy : ¬Noisy after) :
    Quiet after ∧ ∀ textEnd more,
      takeItem (limits.until textEnd) (state.followedBy more) = .ok (item, after.followedBy more) := by
  obtain ⟨hitem, htaken⟩ := readItem_of_takeItem hrest hquiet hrun hnoisy
  obtain ⟨_, hmore⟩ := finishes_readItem.ends limits state item after hquiet hrest hitem hnoisy
  refine ⟨?_, fun textEnd more => takeItem_of_readItem (hmore textEnd more) htaken⟩
  rcases (finishes_readItem.ensures limits state _ _ hitem).2 hquiet hrest with hloud | hquiet'
  · exact absurd hloud hnoisy
  · exact hquiet'.1

theorem kept_readItemRounds (bound : Nat) (items : Array Item) :
    Kept (roundsAtMost readItemRound bound items) := by
  have hread : ∀ nonterminal, Kept (read nonterminal) := fun nonterminal limits state result after hrun =>
    ⟨(read_candid nonterminal limits state result after hrun).1, fun _ h => h.elim⟩
  have hround : ∀ items, Kept (readItemRound items) := fun items =>
    @Nearsighted.readItemRound _ stepwise_kept.toNearsighted hread items
  exact kept_roundsAtMost hround bound items

-- The rounds that are left when all items of the first text are read go on with the second.
theorem readItemRounds_followed {found : Array Item} (bound : Nat)
    (hrun : roundsAtMost readItemRound bound items limits state = .ok (found, after))
    (hquiet : Quiet state) (hnoisy : ¬Noisy after) :
    after.rest = [] ∧ Quiet after ∧ ∃ left, 0 < left ∧ ∀ extra textEnd more,
      roundsAtMost readItemRound (bound + extra) items (limits.until textEnd) (state.followedBy more) =
        roundsAtMost readItemRound (left + extra) found (limits.until textEnd)
          (after.followedBy more) := by
  induction bound generalizing items state with
  | zero => cases hrun
  | succ bound ih =>
      by_cases hrest : state.rest = []
      · rw [roundsAtMost_done (readItemRound_done hrest)] at hrun
        cases hrun
        exact ⟨hrest, hquiet, bound + 1, Nat.succ_pos bound, fun _ _ _ => rfl⟩
      · cases hitem : takeItem limits state with
        | error reason =>
            rw [roundsAtMost_error (readItemRound_error hrest hitem)] at hrun
            cases hrun
        | ok item =>
            rw [roundsAtMost_again (readItemRound_again hrest hitem)] at hrun
            have hsilent : ¬Noisy item.2 := fun h =>
              hnoisy ((kept_readItemRounds bound _ _ _ _ _ hrun).1 h)
            obtain ⟨hquiet', hmore⟩ := takeItem_followed hrest hquiet hitem hsilent
            obtain ⟨hempty, hlast, left, hleft, hfollowed⟩ := ih hrun hquiet'
            refine ⟨hempty, hlast, left, hleft, fun extra textEnd more => ?_⟩
            have hrest' : (state.followedBy more).rest ≠ [] := by simp [ParseState.followedBy, hrest]
            rw [Nat.add_right_comm, roundsAtMost_again (readItemRound_again hrest' (hmore textEnd more))]
            exact hfollowed extra textEnd more

-- What was read before comes before what is read now.
theorem readItemRounds_append {found : Array Item} (front : Array Item) (bound : Nat)
    (hrun : roundsAtMost readItemRound bound items limits state = .ok (found, after)) :
    roundsAtMost readItemRound bound (front ++ items) limits state = .ok (front ++ found, after) := by
  induction bound generalizing items state with
  | zero => cases hrun
  | succ bound ih =>
      by_cases hrest : state.rest = []
      · rw [roundsAtMost_done (readItemRound_done hrest)] at hrun ⊢
        cases hrun
        rfl
      · cases hitem : takeItem limits state with
        | error reason =>
            rw [roundsAtMost_error (readItemRound_error hrest hitem)] at hrun
            cases hrun
        | ok item =>
            rw [roundsAtMost_again (readItemRound_again hrest hitem)] at hrun ⊢
            rw [gathered_append]
            exact ih hrun

end Grammar

open Grammar

-- Offsets behind the end of a text are taken back to it.
def Relocation.within (textEnd : Nat) : Relocation where
  offset := min textEnd
  starts offset := offset ≤ textEnd
  monotone h := by omega
  apart hone hother h := by omega
  passed := 0

-- Tokens that stand behind a text of the given width and some of whose predecessors were taken.
def Relocation.behind (width passed : Nat) : Relocation where
  offset := (· + width)
  starts _ := True
  monotone h := Nat.add_le_add_right h width
  apart _ _ h := Nat.add_right_cancel h
  passed := passed

theorem moves_readItemRounds {relocation : Relocation} (bound : Nat) :
    Moves relocation (roundsAtMost readItemRound bound #[]) (roundsAtMost readItemRound bound #[]) := by
  have hrounds : Moves relocation (roundsAtMost readItemRound bound #[])
      (roundsAtMost readItemRound bound (Movable.move relocation #[])) :=
    .roundsAtMost (fun items _ => moves_readItemRound items) bound trivial
  rwa [move_nothing] at hrounds

section Rounds

variable {tokens : List Token} {textEnd fuel depth : Nat} {found : Array Item} {after : ParseState}

theorem parseTokens_eq_rounds (tokens : List Token) (textEnd fuel depth : Nat) :
    parseTokens tokens textEnd fuel depth =
      (roundsAtMost readItemRound (fuel + 1) #[] ⟨textEnd, depth⟩ (.start tokens fuel)).map
        fun found => ⟨found.1.toList, found.2.diagnostics⟩ := by
  have hread : readItems ⟨textEnd, depth⟩ (.start tokens fuel) =
      (roundsAtMost readItemRound (fuel + 1) #[] ⟨textEnd, depth⟩ (.start tokens fuel) >>= fun found =>
        .ok (found.1.toList, found.2)) := rfl
  unfold parseTokens
  rw [hread]
  cases roundsAtMost readItemRound (fuel + 1) #[] ⟨textEnd, depth⟩ (.start tokens fuel) <;> rfl

theorem rounds_of_parseTokens {parsed : Parsed} (h : parseTokens tokens textEnd fuel depth = .ok parsed) :
    ∃ found after, roundsAtMost readItemRound (fuel + 1) #[] ⟨textEnd, depth⟩ (.start tokens fuel) =
      .ok (found, after) ∧ parsed = ⟨found.toList, after.diagnostics⟩ := by
  rw [parseTokens_eq_rounds] at h
  cases hrun : roundsAtMost readItemRound (fuel + 1) #[] ⟨textEnd, depth⟩ (.start tokens fuel) with
  | error reason =>
      rw [hrun] at h
      cases h
  | ok found =>
      rw [hrun] at h
      cases h
      exact ⟨found.1, found.2, rfl, rfl⟩

-- Nothing that is read ends behind the text: what lies there may be taken back to its end.
theorem lastEnd_le (hwithin : ∀ token ∈ tokens, token.span.start ≤ textEnd ∧ token.span.stop ≤ textEnd)
    {bound : Nat} (hrun : roundsAtMost readItemRound bound #[] ⟨textEnd, depth⟩ (.start tokens fuel) =
      .ok (found, after)) : after.lastEnd ≤ textEnd := by
  have hsame : tokens.map (Token.relocate (Relocation.within textEnd).offset) = tokens := by
    apply Eq.trans (List.map_congr_left _) (List.map_id tokens)
    intro token htoken
    obtain ⟨hstart, hstop⟩ := hwithin token htoken
    simp only [Token.relocate, Span.relocate, Relocation.within, Nat.min_eq_right hstart,
      Nat.min_eq_right hstop]
    rfl
  have hlimits : (Relocation.within textEnd).offset textEnd = textEnd := Nat.min_self textEnd
  have hstart := Relocation.Moved.start (.within textEnd) rfl (Nat.le_refl textEnd)
    (fun token htoken => (hwithin token htoken).1) fuel depth
  rw [hlimits, hsame] at hstart
  obtain ⟨_, after', hrun', hafter⟩ := (moves_readItemRounds bound _ _ _ _ hstart).2 _ _ hrun
  rw [hrun] at hrun'
  obtain rfl : after = after' := congrArg Prod.snd (Except.ok.inj hrun')
  have hlast : max after.lastEnd (min textEnd 0) = min textEnd (max after.lastEnd 0) :=
    hafter.lastEnd 0
  omega

theorem rounds_steady {low high : Nat} (hbound : low ≤ high) (more : Nat)
    (hrun : roundsAtMost readItemRound low #[] ⟨textEnd, depth⟩ (.start tokens fuel) =
      .ok (found, after)) :
    roundsAtMost readItemRound high #[] ⟨textEnd, depth⟩ (.start tokens (fuel + more)) =
      .ok (found, { after with fuel := after.fuel + more }) := by
  have hround : ∀ items, Steady (readItemRound items) (readItemRound items) :=
    stepwise_steady.readItemRound read_steady
  exact Steady.roundsAtMost hround hbound #[] _ _ found after hrun more depth (Nat.le_refl depth)

-- What a text leaves behind that is read without a complaint.
structure Spent (textEnd : Nat) (state : ParseState) : Prop where
  rest : state.rest = []
  depth : state.depth = 0
  lastEnd : state.lastEnd ≤ textEnd
  quiet : Quiet state

theorem not_noisy_of_nothing {state : ParseState} (h : state.diagnostics = #[]) : ¬Noisy state := by
  rintro ⟨diagnostic, hmem, _⟩
  rw [h] at hmem
  exact Array.not_mem_empty _ hmem

theorem spent_of_rounds {bound : Nat}
    (hwithin : ∀ token ∈ tokens, token.span.start ≤ textEnd ∧ token.span.stop ≤ textEnd)
    (hrun : roundsAtMost readItemRound bound #[] ⟨textEnd, depth⟩ (.start tokens fuel) =
      .ok (found, after)) (hnothing : after.diagnostics = #[]) :
    Spent textEnd after ∧ ∃ left, 0 < left ∧ ∀ extra textEnd' more,
      roundsAtMost readItemRound (bound + extra) #[] ⟨textEnd', depth⟩ (.start (tokens ++ more) fuel) =
        roundsAtMost readItemRound (left + extra) found ⟨textEnd', depth⟩ (after.followedBy more) := by
  obtain ⟨hrest, hquiet, hfollowed⟩ :=
    readItemRounds_followed bound hrun ⟨rfl, rfl⟩ (not_noisy_of_nothing hnothing)
  have hrounds : Brings 0 (roundsAtMost readItemRound bound #[]) 0 :=
    .roundsAtMost (fun items => restores_readItemRound items 0) bound #[]
  exact ⟨⟨hrest, hrounds _ _ _ _ rfl hrun, lastEnd_le hwithin hrun, hquiet⟩, hfollowed⟩

theorem moved_behind {textEnd' passed : Nat} (hspent : Spent textEnd after) (hfuel : after.fuel = fuel)
    (tokens : List Token) (hpassed : passed = after.taken) :
    (Relocation.behind (textEnd + 1) passed).Moved ⟨textEnd', depth⟩ ⟨textEnd' + (textEnd + 1), depth⟩
      (.start tokens fuel) (after.followedBy (tokens.map (Token.relocate (· + (textEnd + 1))))) where
  textEnd := rfl
  marksEnd := trivial
  limit := rfl
  rest := congrArg (· ++ _) hspent.rest
  marks _ _ := trivial
  taken := by
    rw [hpassed]
    exact (Nat.zero_add _).symm
  lastEnd start := by
    have hlast : after.lastEnd ≤ start + (textEnd + 1) :=
      Nat.le_trans hspent.lastEnd (by omega)
    show max after.lastEnd (start + (textEnd + 1)) = max 0 start + (textEnd + 1)
    omega
  fuel := hfuel
  depth := hspent.depth
  complained := nofun
  lastComplaint := hspent.quiet.uncomplained
  diagnostics := hspent.quiet.unreported.trans Array.map_empty.symm

end Rounds

-- Texts that are read without a complaint are read one behind the other in the same way, where
-- their tokens stay apart.
theorem parse_concatenated {first second : List Char} {fuel fuel' depth : Nat} {items items' : List Item}
    (hfirst : parse first fuel depth = .ok ⟨items, #[]⟩)
    (hsecond : parse second fuel' depth = .ok ⟨items', #[]⟩)
    (htokens : lex (first ++ '\n' :: second) =
      lex first ++ (lex second).map (Token.relocate (· + (Text.width first + 1)))) :
    parse (first ++ '\n' :: second) (fuel + fuel') depth =
      .ok ⟨items ++ items'.map (Item.relocate (· + (Text.width first + 1))), #[]⟩ := by
  obtain ⟨found, after, hrun, hparsed⟩ := rounds_of_parseTokens hfirst
  obtain ⟨found', after', hrun', hparsed'⟩ := rounds_of_parseTokens hsecond
  obtain ⟨rfl, hnothing⟩ := Parsed.mk.inj hparsed
  obtain ⟨rfl, hnothing'⟩ := Parsed.mk.inj hparsed'
  have hwithin : ∀ token ∈ lex first,
      token.span.start ≤ Text.width first ∧ token.span.stop ≤ Text.width first := by
    intro token htoken
    have hbounds := ((laid_lex first).stands token htoken).bounds
    omega
  have hnewline : '\n'.utf8Size = 1 := rfl
  have hwidth : Text.width (first ++ '\n' :: second) = Text.width second + (Text.width first + 1) := by
    rw [Text.width_append, Text.width_cons, hnewline]
    omega
  -- the second text is read on the fuel that the first one leaves it
  have hmore := rounds_steady (Nat.le_refl _) fuel' hrun
  obtain ⟨hspent, left, hleft, hfollowed⟩ := spent_of_rounds hwithin hmore hnothing.symm
  have hbehind := rounds_steady (show fuel' + 1 ≤ left + fuel' by omega) after.fuel hrun'
  have hmoved : (Relocation.behind (Text.width first + 1) after.taken).Moved ⟨Text.width second, depth⟩
      ⟨Text.width second + (Text.width first + 1), depth⟩
      (.start (lex second) (fuel' + after.fuel)) _ :=
    moved_behind hspent (Nat.add_comm _ _) (lex second) rfl
  obtain ⟨_, last, hlast, hends⟩ := (moves_readItemRounds _ _ _ _ _ hmoved).2 _ _ hbehind
  have hall : roundsAtMost readItemRound (fuel + fuel' + 1) #[]
      ⟨Text.width second + (Text.width first + 1), depth⟩
      (.start (lex first ++ (lex second).map (Token.relocate (· + (Text.width first + 1))))
        (fuel + fuel')) =
      .ok (found ++ found'.map (Item.relocate (· + (Text.width first + 1))), last) := by
    rw [Nat.add_right_comm fuel fuel' 1, hfollowed fuel']
    exact readItemRounds_append found _ hlast
  unfold parse
  rw [htokens, hwidth, parseTokens_eq_rounds, hall]
  have hnone : last.diagnostics = #[] := by
    rw [hends.diagnostics]
    show after'.diagnostics.map _ = #[]
    rw [← hnothing', Array.map_empty]
  show Except.ok (Parsed.mk _ last.diagnostics) = _
  rw [hnone, Array.toList_append, Array.toList_map]

def readSilently : Except Exhausted Parsed → Bool
  | .ok parsed => parsed.diagnostics.isEmpty
  | .error _ => false

theorem items_of_silent {outcome : Except Exhausted Parsed} (h : readSilently outcome = true) :
    ∃ items, outcome = .ok ⟨items, #[]⟩ := by
  cases outcome with
  | error reason => cases h
  | ok parsed =>
      have hnone : parsed.diagnostics = #[] := Array.isEmpty_iff.mp h
      exact ⟨parsed.items, by rw [← hnone]⟩

-- Whatever the second text says moves behind the seven bytes of the first one and the line break.
theorem alias_behind_global : ∃ items items',
    parse "int x;".toList 20 4 = .ok ⟨items, #[]⟩ ∧
      parse "alias A = int*; // of x".toList 20 4 = .ok ⟨items', #[]⟩ ∧
      parse ("int x;".toList ++ '\n' :: "alias A = int*; // of x".toList) (20 + 20) 4 =
        .ok ⟨items ++ items'.map (Item.relocate (· + (Text.width "int x;".toList + 1))), #[]⟩ := by
  have hglobal : readSilently (parse "int x;".toList 20 4) = true := by decide +kernel
  have halias : readSilently (parse "alias A = int*; // of x".toList 20 4) = true := by decide +kernel
  obtain ⟨items, hitems⟩ := items_of_silent hglobal
  obtain ⟨items', hitems'⟩ := items_of_silent halias
  exact ⟨items, items', hitems, hitems', parse_concatenated hitems hitems' (by decide +kernel)⟩

end EffectLint
