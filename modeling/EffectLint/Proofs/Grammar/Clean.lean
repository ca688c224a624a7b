import EffectLint.Proofs.Grammar.Written
import EffectLint.Proofs.Grammar.Listed
import EffectLint.Proofs.Grammar.Stepwise
import EffectLint.Proofs.Token.Spelling

/-!
Reading without a complaint. What holds of the tokens that are left is carried from step to step,
and nothing more is claimed once an error has been reported. A report is never taken back, so a
reading that ends without an error met none on its way.
-/

namespace EffectLint

namespace Parse

-- Nothing is reported, and nothing was passed over in silence.
structure Quiet (state : ParseState) : Prop where
  unreported : state.diagnostics = #[]
  uncomplained : state.lastComplaint = none

def Noisy (state : ParseState) : Prop :=
  ∃ diagnostic ∈ state.diagnostics, diagnostic.isError = true

theorem Noisy.reported {state : ParseState} {diagnostic : Diagnostic} {lastComplaint : Option Nat}
    (h : Noisy state) :
    Noisy { state with lastComplaint, diagnostics := state.diagnostics.push diagnostic } := by
  obtain ⟨earlier, hmem, herror⟩ := h
  exact ⟨earlier, Array.mem_push.mpr (.inl hmem), herror⟩

theorem noisy_push {state : ParseState} {diagnostic : Diagnostic} {lastComplaint : Option Nat}
    (herror : diagnostic.isError = true) :
    Noisy { state with lastComplaint, diagnostics := state.diagnostics.push diagnostic } :=
  ⟨diagnostic, Array.mem_push_self, herror⟩

-- What holds behind a round, whether it is the last one or not.
def Round.meets {σ α : Type} (again : σ → List Token → Prop) (done : α → List Token → Prop) :
    Round σ α → List Token → Prop
  | .Again next => again next
  | .Done last => done last

def Ensures {α : Type} (before : List Token → Prop) (body : Parse α)
    (after : α → List Token → Prop) : Prop :=
  ∀ limits state result state', body limits state = .ok (result, state') →
    (Noisy state → Noisy state') ∧
      (Quiet state → before state.rest → Noisy state' ∨ Quiet state' ∧ after result state'.rest)

namespace Ensures

variable {α β σ : Type} {before : List Token → Prop} {body : Parse α}
  {after : α → List Token → Prop}

theorem weaken {before' : List Token → Prop} {after' : α → List Token → Prop}
    (h : Ensures before body after) (hbefore : ∀ rest, before' rest → before rest)
    (hafter : ∀ result rest, after result rest → after' result rest) :
    Ensures before' body after' := by
  intro limits state result state' hrun
  obtain ⟨hkept, hquiet⟩ := h limits state result state' hrun
  refine ⟨hkept, fun hstate hrest => ?_⟩
  exact (hquiet hstate (hbefore _ hrest)).imp_right (And.imp_right (hafter _ _))

theorem pure {result : α} (h : ∀ rest, before rest → after result rest) :
    Ensures before (Pure.pure result) after := by
  intro limits state found state' hrun
  cases hrun
  exact ⟨id, fun hstate hrest => .inr ⟨hstate, h _ hrest⟩⟩

theorem bind {next : α → Parse β} {last : β → List Token → Prop}
    (hbody : Ensures before body after) (hnext : ∀ found, Ensures (after found) (next found) last) :
    Ensures before (body >>= next) last := by
  intro limits state result state' hrun
  obtain ⟨found, middle, hfound, hlast⟩ := of_bind hrun
  obtain ⟨hkept, hquiet⟩ := hbody limits state found middle hfound
  obtain ⟨hkept', hquiet'⟩ := hnext found limits middle result state' hlast
  refine ⟨fun hstate => hkept' (hkept hstate), fun hstate hrest => ?_⟩
  rcases hquiet hstate hrest with hnoisy | ⟨hmiddle, hafter⟩
  · exact .inl (hkept' hnoisy)
  · exact hquiet' hmiddle hafter

theorem branch {condition : Prop} [Decidable condition] {yes no : Parse α}
    {beforeYes beforeNo : List Token → Prop} (hyes : Ensures beforeYes yes after)
    (hno : Ensures beforeNo no after) :
    Ensures (fun rest => if condition then beforeYes rest else beforeNo rest)
      (if condition then yes else no) after := by
  by_cases h : condition
  · simpa only [if_pos h] using hyes
  · simpa only [if_neg h] using hno

theorem choose {condition : Prop} [Decidable condition] {yes no : Parse α}
    (hyes : condition → Ensures before yes after) (hno : ¬condition → Ensures before no after) :
    Ensures before (if condition then yes else no) after := by
  by_cases h : condition
  · rw [if_pos h]
    exact hyes h
  · rw [if_neg h]
    exact hno h

theorem either {condition : Prop} [Decidable condition] {yes no : Parse α}
    (hyes : Ensures before yes after) (hno : Ensures before no after) :
    Ensures before (if condition then yes else no) after :=
  choose (fun _ => hyes) fun _ => hno

-- What only looks leaves everything as it is.
theorem look {good : α → List Token → Prop}
    (h : ∀ limits state, ∃ result, body limits state = .ok (result, state) ∧ good result state.rest) :
    Ensures before body fun result rest => before rest ∧ good result rest := by
  intro limits state result state' hrun
  obtain ⟨found, hfound, hgood⟩ := h limits state
  rw [hfound] at hrun
  cases hrun
  exact ⟨id, fun hstate hrest => .inr ⟨hstate, hrest, hgood⟩⟩

theorem unchanged (h : ∀ limits state, ∃ result, body limits state = .ok (result, state)) :
    Ensures before body fun _ => before := by
  have hlook : Ensures before body fun _ rest => before rest ∧ True :=
    look fun limits state => (h limits state).imp fun _ hrun => ⟨hrun, trivial⟩
  exact hlook.weaken (fun _ h => h) fun _ _ h => h.1

theorem restoringDepth (h : Ensures before body after) :
    Ensures before (restoringDepth body) after := by
  intro limits state result state' hrun
  obtain ⟨middle, hbody, rfl⟩ := of_restoringDepth hrun
  obtain ⟨hkept, hquiet⟩ := h limits state result middle hbody
  refine ⟨hkept, fun hstate hrest => (hquiet hstate hrest).imp_right ?_⟩
  exact And.imp_left fun hquiet => ⟨hquiet.unreported, hquiet.uncomplained⟩

-- What holds before each round and is kept by it holds when the last one is done.
theorem rounds {round : σ → Parse (Round σ α)} (holds : σ → List Token → Prop) {first : σ}
    (hround : ∀ state, Ensures (holds state) (round state) (Round.meets holds after)) :
    Ensures (holds first) (rounds first round) after := by
  have hrounds : ∀ bound state, Ensures (holds state) (roundsAtMost round bound state) after := by
    intro bound
    induction bound with
    | zero => exact fun _ _ _ _ _ hrun => nomatch hrun
    | succ bound ih =>
        intro state
        refine (hround state).bind fun found => ?_
        cases found with
        | Again next => exact ih next
        | Done last => exact .pure fun rest h => h
  exact fun limits state => hrounds (state.fuel + 1) first limits state

theorem here : Ensures before here fun _ => before := by
  refine unchanged fun limits state => ?_
  unfold Parse.here
  split <;> exact ⟨_, rfl⟩

theorem since (start : Nat) : Ensures before (since start) fun _ => before :=
  unchanged fun _ _ => ⟨_, rfl⟩

theorem beyond : Ensures before beyond fun found rest => before rest ∧ found = rest.tail :=
  look fun _ _ => ⟨_, rfl, rfl⟩

theorem atEnd : Ensures before atEnd fun ends rest => before rest ∧ ends = rest.isEmpty :=
  look fun _ _ => ⟨_, rfl, rfl⟩

theorem inspect : Ensures before inspect fun next rest => before rest ∧ nextKind rest = next := by
  intro limits state result state' hrun
  obtain ⟨fuel, _, rfl, rfl⟩ := of_inspect hrun
  exact ⟨id, fun hstate hrest => .inr ⟨⟨hstate.unreported, hstate.uncomplained⟩, hrest, rfl⟩⟩

theorem isAt (kind : TokenKind) : Ensures before (isAt kind) fun found rest =>
    if found = true then before rest ∧ nextKind rest = some kind else before rest := by
  refine inspect.bind fun next => .pure fun rest ⟨hrest, hnext⟩ => ?_
  by_cases h : (next == some kind) = true
  · rw [if_pos h]
    exact ⟨hrest, hnext.trans (eq_of_beq h)⟩
  · rw [if_neg h]
    exact hrest

theorem take {after : String → List Token → Prop}
    (hsome : ∀ token rest, before (token :: rest) → after token.text rest)
    (hnone : before [] → after "" []) : Ensures before take after := by
  intro limits state text state' hrun
  rcases of_take hrun with ⟨hend, rfl, rfl⟩ | ⟨token, rest, hcons, rfl, rfl⟩
  · refine ⟨id, fun hstate hrest => .inr ⟨hstate, ?_⟩⟩
    rw [hend] at hrest ⊢
    exact hnone hrest
  · refine ⟨id, fun hstate hrest => .inr ⟨⟨hstate.unreported, hstate.uncomplained⟩, ?_⟩⟩
    exact hsome token rest (hcons ▸ hrest)

theorem skip {after : List Token → Prop}
    (hsome : ∀ token rest, before (token :: rest) → after rest) (hnone : before [] → after []) :
    Ensures before skip fun _ => after :=
  have htake : Ensures before Parse.take fun _ => after := take hsome hnone
  htake.bind fun _ => .pure fun _ h => h

theorem enter : Ensures before enter fun _ => before := by
  intro limits state result state' hrun
  obtain ⟨_, rfl⟩ := of_enter hrun
  exact ⟨id, fun hstate hrest => .inr ⟨⟨hstate.unreported, hstate.uncomplained⟩, hrest⟩⟩

theorem leave : Ensures before leave fun _ => before := by
  intro limits state result state' hrun
  cases hrun
  exact ⟨id, fun hstate hrest => .inr ⟨⟨hstate.unreported, hstate.uncomplained⟩, hrest⟩⟩

theorem report {diagnostic : Diagnostic} (herror : diagnostic.isError = true) :
    Ensures before (report diagnostic) fun _ _ => False := by
  intro limits state result state' hrun
  cases hrun
  exact ⟨.reported, fun _ _ => .inl (noisy_push herror)⟩

-- In a quiet state nothing was complained about, so a complaint is reported.
theorem complain {diagnostic : Diagnostic} (herror : diagnostic.isError = true) :
    Ensures before (complain diagnostic) fun _ _ => False := by
  intro limits state result state' hrun
  rcases of_complain hrun with ⟨hsame, rfl⟩ | ⟨_, rfl⟩
  · refine ⟨id, fun hstate _ => ?_⟩
    rw [hstate.uncomplained] at hsame
    cases hsame
  · exact ⟨.reported, fun _ _ => .inl (noisy_push herror)⟩

end Ensures

-- Nothing takes a report back.
def Kept {α : Type} (body : Parse α) : Prop :=
  Ensures (fun _ => False) body fun _ _ => False

theorem Kept.ensures {α : Type} {body : Parse α} {before : List Token → Prop}
    {after : α → List Token → Prop} (h : Kept body) (hbefore : ∀ rest, ¬before rest) :
    Ensures before body after :=
  h.weaken hbefore fun _ _ hfalse => hfalse.elim

theorem stepwise_kept : Stepwise (fun {_} body _ => Kept body) where
  pure _ := .pure fun _ hfalse => hfalse
  bind hfirst hnext := hfirst.bind hnext
  glance _ := .unchanged fun _ _ => ⟨_, rfl⟩
  inspect := Ensures.inspect.weaken (fun _ h => h) fun _ _ h => h.1
  take := .take (fun _ _ h => h) fun h => h
  report diagnostic _ := by
    intro limits state result state' hrun
    cases hrun
    exact ⟨.reported, fun _ hfalse => hfalse.elim⟩
  complain diagnostic _ := by
    intro limits state result state' hrun
    rcases of_complain hrun with ⟨_, rfl⟩ | ⟨_, rfl⟩
    · exact ⟨id, fun _ hfalse => hfalse.elim⟩
    · exact ⟨.reported, fun _ hfalse => hfalse.elim⟩
  enter := .enter
  leave := .leave
  restoringDepth h := h.restoringDepth
  rounds _ _ _ hround :=
    .rounds (fun _ _ => False) fun state => (hround state).weaken (fun _ h => h) fun _ _ h => h.elim

end Parse

end EffectLint
