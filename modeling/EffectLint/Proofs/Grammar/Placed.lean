import EffectLint.Proofs.Grammar.Stepwise

/-!
Where reading stands. Tokens start one behind the other, so reading only ever moves on, and it
moves on for sure where it takes a token. What holds of the place that is reached is carried from
step to step.
-/

namespace EffectLint

namespace Parse

-- The place of the next token, or the end of the text, and the kind of that token.
structure Spot where
  offset : Nat
  next : Option TokenKind

def spot (textEnd : Nat) : List Token → Spot
  | [] => ⟨textEnd, none⟩
  | token :: _ => ⟨token.span.start, some token.kind⟩

-- Each token starts before the one behind it, and the last one before the end of the text.
def Placed (textEnd : Nat) : List Token → Prop
  | [] => True
  | token :: rest => token.span.start < (spot textEnd rest).offset ∧ Placed textEnd rest

theorem spot_le {textEnd : Nat} {rest : List Token} (h : Placed textEnd rest) :
    (spot textEnd rest).offset ≤ textEnd := by
  induction rest with
  | nil => exact Nat.le_refl _
  | cons token rest ih => exact Nat.le_trans (Nat.le_of_lt h.1) (ih h.2)

def Places {α : Type} (textEnd : Nat) (before : Spot → Prop) (body : Parse α)
    (after : α → Spot → Prop) : Prop :=
  ∀ limits state result state', limits.textEnd = textEnd → body limits state = .ok (result, state') →
    Placed textEnd state.rest → before (spot textEnd state.rest) →
      Placed textEnd state'.rest ∧ after result (spot textEnd state'.rest)

-- A spot that is reached from one of which something holds.
def Behind (before : Spot → Prop) (spot : Spot) : Prop :=
  ∃ earlier, before earlier ∧ earlier.offset ≤ spot.offset

-- A spot with a token taken on the way to it.
def Beyond (before : Spot → Prop) (spot : Spot) : Prop :=
  ∃ earlier, before earlier ∧ earlier.offset < spot.offset

-- Where what was read stands, as seen from where its reading began.
def From {α : Type} (before : Spot → Prop) (placed : Spot → α → Spot → Prop) (result : α)
    (spot : Spot) : Prop :=
  ∃ earlier, before earlier ∧ placed earlier result spot

def Between {α : Type} (laid : α → Nat → Nat → Prop) (earlier : Spot) (result : α) (spot : Spot) :
    Prop :=
  earlier.offset ≤ spot.offset ∧ laid result earlier.offset spot.offset

-- What holds behind a round, whether it is the last one or not.
def Round.holdsAt {σ α : Type} (again : σ → Spot → Prop) (done : α → Spot → Prop) :
    Round σ α → Spot → Prop
  | .Again next => again next
  | .Done last => done last

namespace Places

variable {α β σ : Type} {textEnd : Nat} {before : Spot → Prop} {body : Parse α}
  {after : α → Spot → Prop}

theorem weaken {before' : Spot → Prop} {after' : α → Spot → Prop}
    (h : Places textEnd before body after) (hbefore : ∀ spot, before' spot → before spot)
    (hafter : ∀ result spot, after result spot → after' result spot) :
    Places textEnd before' body after' := by
  intro limits state result state' hlimits hrun hplaced hspot
  obtain ⟨hplaced', hspot'⟩ := h limits state result state' hlimits hrun hplaced (hbefore _ hspot)
  exact ⟨hplaced', hafter _ _ hspot'⟩

theorem imp {after' : α → Spot → Prop} (h : Places textEnd before body after)
    (hafter : ∀ result spot, after result spot → after' result spot) :
    Places textEnd before body after' :=
  h.weaken (fun _ h => h) hafter

theorem of_before {before' : Spot → Prop} (h : Places textEnd before body after)
    (hbefore : ∀ spot, before' spot → before spot) : Places textEnd before' body after :=
  h.weaken hbefore fun _ _ h => h

theorem pure {result : α} (h : ∀ spot, before spot → after result spot) :
    Places textEnd before (Pure.pure result) after := by
  intro limits state found state' _ hrun hplaced hspot
  cases hrun
  exact ⟨hplaced, h _ hspot⟩

theorem bind {next : α → Parse β} {last : β → Spot → Prop}
    (hbody : Places textEnd before body after)
    (hnext : ∀ found, Places textEnd (after found) (next found) last) :
    Places textEnd before (body >>= next) last := by
  intro limits state result state' hlimits hrun hplaced hspot
  obtain ⟨found, middle, hfound, hlast⟩ := of_bind hrun
  obtain ⟨hplaced', hspot'⟩ := hbody limits state found middle hlimits hfound hplaced hspot
  exact hnext found limits middle result state' hlimits hlast hplaced' hspot'

theorem choose {condition : Prop} [Decidable condition] {yes no : Parse α}
    (hyes : condition → Places textEnd before yes after)
    (hno : ¬condition → Places textEnd before no after) :
    Places textEnd before (if condition then yes else no) after := by
  by_cases h : condition
  · rw [if_pos h]
    exact hyes h
  · rw [if_neg h]
    exact hno h

theorem either {condition : Prop} [Decidable condition] {yes no : Parse α}
    (hyes : Places textEnd before yes after) (hno : Places textEnd before no after) :
    Places textEnd before (if condition then yes else no) after :=
  choose (fun _ => hyes) fun _ => hno

-- What only looks leaves everything as it is.
theorem look {good : α → Spot → Prop}
    (h : ∀ limits state, limits.textEnd = textEnd → ∃ result, body limits state = .ok (result, state) ∧
      good result (spot textEnd state.rest)) :
    Places textEnd before body fun result spot => before spot ∧ good result spot := by
  intro limits state result state' hlimits hrun hplaced hspot
  obtain ⟨found, hfound, hgood⟩ := h limits state hlimits
  rw [hfound] at hrun
  cases hrun
  exact ⟨hplaced, hspot, hgood⟩

-- Steps that take no token.
theorem still (h : ∀ limits state result state', body limits state = .ok (result, state') →
    state'.rest = state.rest) : Places textEnd before body fun _ => before := by
  intro limits state result state' _ hrun hplaced hspot
  rw [h limits state result state' hrun]
  exact ⟨hplaced, hspot⟩

theorem report (diagnostic : Diagnostic) :
    Places textEnd before (report diagnostic) fun _ => before :=
  still fun _ _ _ _ hrun => by cases hrun; rfl

theorem complain (diagnostic : Diagnostic) :
    Places textEnd before (complain diagnostic) fun _ => before := by
  refine still fun _ _ _ _ hrun => ?_
  rcases of_complain hrun with ⟨_, rfl⟩ | ⟨_, rfl⟩ <;> rfl

theorem enter : Places textEnd before enter fun _ => before := by
  refine still fun _ _ _ _ hrun => ?_
  obtain ⟨_, rfl⟩ := of_enter hrun
  rfl

theorem leave : Places textEnd before leave fun _ => before :=
  still fun _ _ _ _ hrun => by cases hrun; rfl

theorem restoringDepth (h : Places textEnd before body after) :
    Places textEnd before (restoringDepth body) after := by
  intro limits state result state' hlimits hrun hplaced hspot
  obtain ⟨middle, hbody, rfl⟩ := of_restoringDepth hrun
  exact h limits state result middle hlimits hbody hplaced hspot

-- What holds before each round and is kept by it holds when the last one is done.
theorem rounds {round : σ → Parse (Round σ α)} (holds : σ → Spot → Prop) {first : σ}
    (hround : ∀ state, Places textEnd (holds state) (round state) (Round.holdsAt holds after)) :
    Places textEnd (holds first) (rounds first round) after := by
  have hrounds : ∀ bound state,
      Places textEnd (holds state) (roundsAtMost round bound state) after := by
    intro bound
    induction bound with
    | zero => exact fun _ _ _ _ _ _ hrun => nomatch hrun
    | succ bound ih =>
        intro state
        refine (hround state).bind fun found => ?_
        cases found with
        | Again next => exact ih next
        | Done last => exact .pure fun _ h => h
  exact fun limits state => hrounds (state.fuel + 1) first limits state

theorem here :
    Places textEnd before here fun span spot => before spot ∧ span.start = spot.offset := by
  refine look fun limits state hlimits => ?_
  unfold Parse.here
  cases state.rest with
  | nil => exact ⟨_, rfl, hlimits⟩
  | cons token rest => exact ⟨_, rfl, rfl⟩

theorem since (start : Nat) :
    Places textEnd before (since start) fun span spot => before spot ∧ span.start = start :=
  look fun _ _ _ => ⟨_, rfl, rfl⟩

theorem inspect :
    Places textEnd before inspect fun next spot => before spot ∧ spot.next = next := by
  intro limits state result state' _ hrun hplaced hspot
  obtain ⟨fuel, _, rfl, rfl⟩ := of_inspect hrun
  refine ⟨hplaced, hspot, ?_⟩
  show (spot textEnd state.rest).next = nextKind state.rest
  cases state.rest <;> rfl

theorem isAt (kind : TokenKind) :
    Places textEnd before (isAt kind) fun found spot =>
      before spot ∧ (found = true ↔ spot.next = some kind) :=
  inspect.bind fun next => .pure fun spot ⟨hspot, hnext⟩ => ⟨hspot, by rw [hnext, beq_iff_eq]⟩

theorem isAt_still (kind : TokenKind) : Places textEnd before (Parse.isAt kind) fun _ => before :=
  (isAt kind).imp fun _ _ h => h.1

theorem atEnd : Places textEnd before atEnd fun _ => before :=
  still fun _ _ _ _ hrun => by cases hrun; rfl

theorem taken : Places textEnd before taken fun _ => before :=
  still fun _ _ _ _ hrun => by cases hrun; rfl

-- A token that is there is taken, and reading moves on.
theorem take (hthere : ∀ spot, before spot → ∃ kind, spot.next = some kind) :
    Places textEnd before take fun _ => Beyond before := by
  rintro limits ⟨rest, taken, lastEnd, fuel, depth, lastComplaint, diagnostics⟩ text state' _ hrun
    hplaced hspot
  cases rest with
  | nil =>
      obtain ⟨kind, hkind⟩ := hthere _ hspot
      cases hkind
  | cons token rest =>
      cases hrun
      exact ⟨hplaced.2, _, hspot, hplaced.1⟩

theorem skip (hthere : ∀ spot, before spot → ∃ kind, spot.next = some kind) :
    Places textEnd before skip fun _ => Beyond before :=
  (take hthere).bind fun _ => .pure fun _ h => h

-- Reading never goes back.
theorem take_behind : Places textEnd before Parse.take fun _ => Behind before := by
  rintro limits ⟨rest, taken, lastEnd, fuel, depth, lastComplaint, diagnostics⟩ text state' _ hrun
    hplaced hspot
  cases rest with
  | nil =>
      cases hrun
      exact ⟨hplaced, _, hspot, Nat.le_refl _⟩
  | cons token rest =>
      cases hrun
      exact ⟨hplaced.2, _, hspot, Nat.le_of_lt hplaced.1⟩

theorem eat (kind : TokenKind) :
    Places textEnd before (eat kind) fun found spot =>
      if found = true then Beyond before spot else before spot ∧ spot.next ≠ some kind := by
  refine (isAt kind).bind fun found => .choose (fun hfound => ?_) fun hfound => ?_
  · refine (skip fun spot h => ⟨kind, h.2.mp hfound⟩).bind fun _ => .pure fun spot h => ?_
    obtain ⟨earlier, ⟨hbefore, -⟩, hlt⟩ := h
    simpa using ⟨earlier, hbefore, hlt⟩
  · exact .pure fun spot h => by simpa using ⟨h.1, fun hnext => hfound (h.2.mpr hnext)⟩

theorem eaten {kind : TokenKind} {yes no : Parse α} (hyes : Places textEnd (Beyond before) yes after)
    (hno : Places textEnd before no after) :
    Places textEnd before (do if ← Parse.eat kind then yes else no) after :=
  (eat kind).bind fun found => .choose
    (fun hfound => hyes.of_before fun spot h => by rwa [if_pos hfound] at h)
    fun hfound => hno.of_before fun spot h => by
      rw [if_neg hfound] at h
      exact h.1

theorem expectName :
    Places textEnd before expectName fun found spot => match found with
      | some name => ∃ earlier, before earlier ∧ earlier.next = some .Identifier ∧
          name.span.start = earlier.offset ∧ earlier.offset < spot.offset
      | none => before spot ∧ spot.next ≠ some .Identifier := by
  refine (isAt _).bind fun found => .choose (fun hfound => ?_) fun hfound => ?_
  · refine here.bind fun span => (take fun spot h => ⟨_, h.1.2.mp hfound⟩).bind fun text =>
      .pure fun spot h => ?_
    obtain ⟨earlier, ⟨⟨hbefore, hat⟩, hstart⟩, hlt⟩ := h
    exact ⟨earlier, hbefore, hat.mp hfound, hstart, hlt⟩
  · exact here.bind fun span => (complain _).bind fun _ => .pure fun spot h =>
      ⟨h.1.1, fun hnext => hfound (h.1.2.mpr hnext)⟩

end Places

-- A computation that never goes back.
def MovesOn {α : Type} (body : Parse α) : Prop :=
  ∀ textEnd before, Places textEnd before body fun _ => Behind before

theorem behind_self {before : Spot → Prop} {spot : Spot} (h : before spot) : Behind before spot :=
  ⟨spot, h, Nat.le_refl _⟩

theorem behind_behind {before : Spot → Prop} {spot : Spot} (h : Behind (Behind before) spot) :
    Behind before spot := by
  obtain ⟨middle, ⟨earlier, hearlier, hle⟩, hle'⟩ := h
  exact ⟨earlier, hearlier, Nat.le_trans hle hle'⟩

theorem stepwise_movesOn : Stepwise (fun {_} body _ => MovesOn body) where
  pure _ _ _ := .pure fun _ => behind_self
  bind hfirst hnext textEnd before :=
    (hfirst textEnd before).bind fun found => (hnext found textEnd _).imp fun _ _ => behind_behind
  glance _ _ _ := (Places.still fun _ _ _ _ hrun => by cases hrun; rfl).imp fun _ _ => behind_self
  inspect _ _ := Places.inspect.imp fun _ _ h => behind_self h.1
  take _ _ := .take_behind
  report diagnostic _ _ _ := (Places.report diagnostic).imp fun _ _ => behind_self
  complain diagnostic _ _ _ := (Places.complain diagnostic).imp fun _ _ => behind_self
  enter _ _ := Places.enter.imp fun _ _ => behind_self
  leave _ _ := Places.leave.imp fun _ _ => behind_self
  restoringDepth h textEnd before := (h textEnd before).restoringDepth
  rounds first _ _ hround textEnd before := by
    refine (Places.rounds (fun _ => Behind before) fun state => ?_).of_before fun _ => behind_self
    refine (hround state textEnd _).imp fun found _ h => ?_
    cases found <;> exact behind_behind h

theorem MovesOn.places {α : Type} {body : Parse α} (h : MovesOn body) {textEnd : Nat}
    {before : Spot → Prop} : Places textEnd before body fun _ => Behind before :=
  h textEnd before

end Parse

end EffectLint
