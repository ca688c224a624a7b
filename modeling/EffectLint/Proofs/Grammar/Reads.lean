import EffectLint.Grammar.Nonterminal

/-!
What a reading does where it finds what it looks for. It takes the tokens from `before` up to
`after`, complains about nothing, and needs no more than so much of either budget. A step of reading
that comes to its end tells how it went, and what it left behind.
-/

namespace EffectLint

namespace Parse

def Reads {α : Type} (need : Nat) (body : Parse α) (before after : List Token)
    (good : α → Prop) : Prop :=
  ∀ limits state, state.rest = before → need ≤ state.fuel → state.depth + need ≤ limits.depth →
    ∃ result state', body limits state = .ok (result, state') ∧ good result ∧
      state'.rest = after ∧ state.fuel ≤ state'.fuel + need ∧
      state'.depth ≤ state.depth + need ∧ state'.diagnostics = state.diagnostics

-- The kind of the next token.
def nextKind : List Token → Option TokenKind
  | [] => none
  | token :: _ => some token.kind

namespace Reads

variable {α β : Type} {need : Nat} {body : Parse α} {before after last : List Token}
  {good good' : α → Prop}

theorem mono {need' : Nat} (h : Reads need body before after good) (hneed : need ≤ need') :
    Reads need' body before after good := by
  intro limits state hrest hfuel hdepth
  obtain ⟨result, state', hrun, hgood, hafter, hfuel', hdepth', hsilent⟩ :=
    h limits state hrest (by omega) (by omega)
  exact ⟨result, state', hrun, hgood, hafter, by omega, by omega, hsilent⟩

theorem imp (h : Reads need body before after good) (himp : ∀ result, good result → good' result) :
    Reads need body before after good' := by
  intro limits state hrest hfuel hdepth
  obtain ⟨result, state', hrun, hgood, hothers⟩ := h limits state hrest hfuel hdepth
  exact ⟨result, state', hrun, himp result hgood, hothers⟩

theorem pure {result : α} (hgood : good result) :
    Reads need (Pure.pure result) before before good := by
  intro limits state hrest _ _
  exact ⟨result, state, rfl, hgood, hrest, Nat.le_add_right _ _, Nat.le_add_right _ _, rfl⟩

-- What is left of the budget is there for what comes next.
theorem bind {total : Nat} {next : α → Parse β} {goal : β → Prop}
    (hbody : Reads need body before after good) (hneed : need ≤ total)
    (hnext : ∀ result, good result → Reads (total - need) (next result) after last goal) :
    Reads total (body >>= next) before last goal := by
  intro limits state hrest hfuel hdepth
  obtain ⟨result, state', hrun, hgood, hafter, hfuel', hdepth', hsilent⟩ :=
    hbody limits state hrest (by omega) (by omega)
  obtain ⟨result', state'', hrun', hgoal, hlast, hfuel'', hdepth'', hsilent'⟩ :=
    hnext result hgood limits state' hafter (by omega) (by omega)
  refine ⟨result', state'', ?_, hgoal, hlast, by omega, by omega, hsilent'.trans hsilent⟩
  calc
    (body >>= next) limits state =
        (body limits state >>= fun found => next found.1 limits found.2) := rfl
    _ = next result limits state' := by rw [hrun]; rfl
    _ = _ := hrun'

end Reads

theorem reads_inspect (before : List Token) :
    Reads 1 inspect before before (· = nextKind before) := by
  intro limits state hrest hfuel _
  obtain ⟨fuel, hstate⟩ : ∃ fuel, state.fuel = fuel + 1 := ⟨state.fuel - 1, by omega⟩
  refine ⟨nextKind before, { state with fuel }, ?_, rfl, hrest, by simp; omega, by simp, rfl⟩
  simp only [inspect, hstate, hrest]
  cases before <;> rfl

theorem reads_beyond (before : List Token) :
    Reads 0 beyond before before (· = before.tail) := by
  intro limits state hrest _ _
  exact ⟨_, state, rfl, by rw [hrest], hrest, Nat.le_refl _, Nat.le_refl _, rfl⟩

theorem reads_here (before : List Token) : Reads 0 here before before fun _ => True := by
  intro limits state hrest _ _
  unfold here
  split <;> exact ⟨_, state, rfl, trivial, hrest, Nat.le_refl _, Nat.le_refl _, rfl⟩

theorem reads_since (start : Nat) (before : List Token) :
    Reads 0 (since start) before before fun _ => True := by
  intro limits state hrest _ _
  exact ⟨_, state, rfl, trivial, hrest, Nat.le_refl _, Nat.le_refl _, rfl⟩

theorem reads_atEnd (before : List Token) :
    Reads 0 atEnd before before (· = before.isEmpty) := by
  intro limits state hrest _ _
  exact ⟨_, state, rfl, by rw [hrest], hrest, Nat.le_refl _, Nat.le_refl _, rfl⟩

theorem reads_take (token : Token) (after : List Token) :
    Reads 0 take (token :: after) after (· = token.text) := by
  intro limits state hrest _ _
  refine ⟨token.text, { state with rest := after, taken := state.taken + 1, lastEnd := token.span.stop },
    ?_, rfl, rfl, Nat.le_refl _, Nat.le_refl _, rfl⟩
  simp only [take, hrest]

theorem reads_skip (token : Token) (after : List Token) :
    Reads 0 skip (token :: after) after fun _ => True :=
  (reads_take token after).bind (by omega) fun _ _ => .pure trivial

theorem reads_isAt (kind : TokenKind) (before : List Token) :
    Reads 1 (isAt kind) before before (· = (nextKind before == some kind)) :=
  (reads_inspect before).bind (by omega) fun next hnext => .pure (by rw [hnext])

theorem reads_eat {kind : TokenKind} {token : Token} (hkind : token.kind = kind)
    (after : List Token) : Reads 1 (eat kind) (token :: after) after (· = true) := by
  refine (reads_isAt kind (token :: after)).bind (by omega) fun found hfound => ?_
  rw [if_pos (by simp [hfound, nextKind, hkind])]
  exact (reads_skip token after).bind (by omega) fun _ _ => .pure rfl

theorem reads_eat_other {kind : TokenKind} {before : List Token}
    (hkind : nextKind before ≠ some kind) : Reads 1 (eat kind) before before (· = false) := by
  refine (reads_isAt kind before).bind (by omega) fun found hfound => ?_
  rw [if_neg (by simp [hfound, hkind])]
  exact .pure rfl

theorem reads_expect {kind : TokenKind} (missing : DiagnosticKind) {token : Token}
    (hkind : token.kind = kind) (after : List Token) :
    Reads 1 (expect kind missing) (token :: after) after (· = true) := by
  refine (reads_eat hkind after).bind (by omega) fun found hfound => ?_
  rw [if_pos hfound]
  exact .pure rfl

theorem reads_expectName {token : Token} (hkind : token.kind = .Identifier) (after : List Token) :
    Reads 1 expectName (token :: after) after fun name => ∃ span, name = some ⟨token.text, span⟩ := by
  refine (reads_isAt .Identifier (token :: after)).bind (by omega) fun found hfound => ?_
  rw [if_pos (by simp [hfound, nextKind, hkind])]
  refine (reads_here _).bind (by omega) fun span _ => (reads_take token after).bind (by omega)
    fun text htext => ?_
  exact .pure ⟨span, by rw [htext]⟩

theorem reads_close {sign : Sign} (missing : DiagnosticKind) (opening : String) (opened : Span)
    {token : Token} (hkind : token.kind = .Sign sign) (after : List Token) :
    Reads 1 (close sign missing opening opened) (token :: after) after fun _ => True := by
  refine (reads_eat hkind after).bind (by omega) fun found hfound => ?_
  rw [if_pos hfound]
  exact .pure trivial

theorem reads_expectSemicolon {token : Token} (hkind : token.kind = .Sign .Semicolon)
    (after : List Token) : Reads 1 expectSemicolon (token :: after) after fun _ => True := by
  refine (reads_eat hkind after).bind (by omega) fun found hfound => ?_
  rw [if_pos hfound]
  exact .pure trivial

theorem reads_enter (before : List Token) : Reads 1 enter before before fun _ => True := by
  intro limits state hrest hfuel hdepth
  refine ⟨(), { state with depth := state.depth + 1 }, ?_, trivial, hrest, by simp, by simp, rfl⟩
  rw [enter, if_neg (by omega)]

theorem reads_leave (before : List Token) : Reads 0 leave before before fun _ => True := by
  intro limits state hrest _ _
  exact ⟨(), { state with depth := state.depth - 1 }, rfl, trivial, hrest, Nat.le_refl _,
    Nat.sub_le _ _, rfl⟩

section Loops

variable {α σ : Type} {need : Nat} {before after last : List Token} {good : α → Prop}

theorem Reads.restoringDepth {body : Parse α} (h : Reads need body before after good) :
    Reads need (restoringDepth body) before after good := by
  intro limits state hrest hfuel hdepth
  obtain ⟨result, state', hrun, hgood, hafter, hfuel', _, hsilent⟩ :=
    h limits state hrest hfuel hdepth
  refine ⟨result, { state' with depth := state.depth }, ?_, hgood, hafter, hfuel',
    Nat.le_add_right _ _, hsilent⟩
  rw [Parse.restoringDepth, hrun]

-- The rounds of a loop from some state on, where the budget leaves room for all of them.
def Repeats (need : Nat) (round : σ → Parse (Round σ α)) (state : σ) (before after : List Token)
    (good : α → Prop) : Prop :=
  ∀ bound, need ≤ bound → Reads need (roundsAtMost round bound state) before after good

variable {round : σ → Parse (Round σ α)} {state : σ}

theorem Repeats.mono {need' : Nat} (h : Repeats need round state before after good)
    (hneed : need ≤ need') : Repeats need' round state before after good := by
  intro bound hbound
  exact (h bound (by omega)).mono hneed

theorem Repeats.imp {good' : α → Prop} (h : Repeats need round state before after good)
    (himp : ∀ result, good result → good' result) :
    Repeats need round state before after good' :=
  fun bound hbound => (h bound hbound).imp himp

theorem Repeats.again {total : Nat} {fits : Round σ α → Prop}
    (hround : Reads need (round state) before after fits) (hpositive : 0 < need)
    (hneed : need ≤ total) (hnext : ∀ result, fits result →
      ∃ next, result = .Again next ∧ Repeats (total - need) round next after last good) :
    Repeats total round state before last good := by
  intro bound hbound
  obtain ⟨bound, rfl⟩ : ∃ fewer, bound = fewer + 1 := ⟨bound - 1, by omega⟩
  rw [roundsAtMost]
  refine hround.bind (by omega) fun result hfits => ?_
  obtain ⟨next, rfl, hrepeats⟩ := hnext result hfits
  exact hrepeats bound (by omega)

theorem Repeats.done {fits : Round σ α → Prop}
    (hround : Reads need (round state) before after fits) (hpositive : 0 < need)
    (hlast : ∀ result, fits result → ∃ last, result = .Done last ∧ good last) :
    Repeats need round state before after good := by
  intro bound hbound
  obtain ⟨bound, rfl⟩ : ∃ fewer, bound = fewer + 1 := ⟨bound - 1, by omega⟩
  rw [roundsAtMost]
  refine hround.bind (by omega) fun result hfits => ?_
  obtain ⟨last, rfl, hgood⟩ := hlast result hfits
  exact .pure hgood

-- Every round looks at a token, so the fuel leaves room for all rounds.
theorem Repeats.rounds (h : Repeats need round state before after good) :
    Reads need (rounds state round) before after good := by
  intro limits parsing hrest hfuel hdepth
  exact h (parsing.fuel + 1) (by omega) limits parsing hrest hfuel hdepth

end Loops

end Parse

namespace Parse

variable {α β σ : Type} {limits : Limits} {state middle after : ParseState}

theorem bind_of_ok {first : Parse α} {next : α → Parse β} {found : α}
    (h : first limits state = .ok (found, middle)) :
    (first >>= next) limits state = next found limits middle := by
  show (first limits state >>= fun found => next found.1 limits found.2) = _
  rw [h]
  rfl

theorem bind_of_error {first : Parse α} {next : α → Parse β} {reason : Exhausted}
    (h : first limits state = .error reason) : (first >>= next) limits state = .error reason := by
  show (first limits state >>= fun found => next found.1 limits found.2) = _
  rw [h]
  rfl

theorem of_bind {first : Parse α} {next : α → Parse β} {result : β}
    (hrun : (first >>= next) limits state = .ok (result, after)) :
    ∃ found middle, first limits state = .ok (found, middle) ∧
      next found limits middle = .ok (result, after) := by
  cases hfound : first limits state with
  | error reason =>
      rw [bind_of_error hfound] at hrun
      cases hrun
  | ok found =>
      rw [bind_of_ok hfound] at hrun
      exact ⟨found.1, found.2, rfl, hrun⟩

theorem restoringDepth_of_ok {body : Parse α} {result : α} (h : body limits state = .ok (result, middle)) :
    restoringDepth body limits state = .ok (result, { middle with depth := state.depth }) := by
  unfold restoringDepth
  rw [h]

theorem of_restoringDepth {body : Parse α} {result : α}
    (hrun : restoringDepth body limits state = .ok (result, after)) :
    ∃ middle, body limits state = .ok (result, middle) ∧
      after = { middle with depth := state.depth } := by
  unfold restoringDepth at hrun
  cases hbody : body limits state with
  | error reason =>
      rw [hbody] at hrun
      cases hrun
  | ok found =>
      rw [hbody] at hrun
      cases hrun
      exact ⟨found.2, rfl, rfl⟩

theorem inspect_of_fuel {fuel : Nat} (h : state.fuel = fuel + 1) :
    inspect limits state = .ok (nextKind state.rest, { state with fuel }) := by
  unfold inspect
  rw [h]
  cases state.rest <;> rfl

theorem of_inspect {next : Option TokenKind} (hrun : inspect limits state = .ok (next, after)) :
    ∃ fuel, state.fuel = fuel + 1 ∧ next = nextKind state.rest ∧ after = { state with fuel } := by
  cases hfuel : state.fuel with
  | zero =>
      unfold inspect at hrun
      rw [hfuel] at hrun
      cases hrun
  | succ fuel =>
      rw [inspect_of_fuel hfuel] at hrun
      cases hrun
      exact ⟨fuel, rfl, rfl, rfl⟩

theorem take_of_cons {token : Token} {rest : List Token} (h : state.rest = token :: rest) :
    take limits state = .ok (token.text,
      { state with rest, taken := state.taken + 1, lastEnd := token.span.stop }) := by
  unfold take
  rw [h]

theorem of_take {text : String} (hrun : take limits state = .ok (text, after)) :
    (state.rest = [] ∧ text = "" ∧ after = state) ∨ ∃ token rest, state.rest = token :: rest ∧
      text = token.text ∧
      after = { state with rest, taken := state.taken + 1, lastEnd := token.span.stop } := by
  cases hrest : state.rest with
  | nil =>
      unfold take at hrun
      rw [hrest] at hrun
      cases hrun
      exact .inl ⟨rfl, rfl, rfl⟩
  | cons token rest =>
      rw [take_of_cons hrest] at hrun
      cases hrun
      exact .inr ⟨token, rest, rfl, rfl, rfl⟩

theorem of_complain {diagnostic : Diagnostic} {done : Unit}
    (hrun : complain diagnostic limits state = .ok (done, after)) :
    (state.lastComplaint = some diagnostic.span.start ∧ after = state) ∨
      (state.lastComplaint ≠ some diagnostic.span.start ∧ after = { state with
        lastComplaint := some diagnostic.span.start
        diagnostics := state.diagnostics.push diagnostic }) := by
  simp only [complain] at hrun
  by_cases hsame : state.lastComplaint = some diagnostic.span.start
  · rw [if_pos hsame] at hrun
    cases hrun
    exact .inl ⟨hsame, rfl⟩
  · rw [if_neg hsame] at hrun
    cases hrun
    exact .inr ⟨hsame, rfl⟩

theorem of_enter {done : Unit} (hrun : enter limits state = .ok (done, after)) :
    state.depth < limits.depth ∧ after = { state with depth := state.depth + 1 } := by
  unfold enter at hrun
  by_cases hroom : limits.depth ≤ state.depth
  · rw [if_pos hroom] at hrun
    cases hrun
  · rw [if_neg hroom] at hrun
    cases hrun
    exact ⟨Nat.lt_of_not_le hroom, rfl⟩

section Rounds

variable {round : σ → Parse (Round σ α)} {bound : Nat} {first next : σ}

theorem roundsAtMost_again (h : round first limits state = .ok (.Again next, middle)) :
    roundsAtMost round (bound + 1) first limits state = roundsAtMost round bound next limits middle :=
  bind_of_ok h

theorem roundsAtMost_done {result : α} (h : round first limits state = .ok (.Done result, middle)) :
    roundsAtMost round (bound + 1) first limits state = .ok (result, middle) :=
  bind_of_ok h

theorem roundsAtMost_error {reason : Exhausted} (h : round first limits state = .error reason) :
    roundsAtMost round (bound + 1) first limits state = .error reason :=
  bind_of_error h

end Rounds

end Parse

end EffectLint
