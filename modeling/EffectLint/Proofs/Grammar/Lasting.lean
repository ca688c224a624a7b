import EffectLint.Proofs.Grammar.Counted
import EffectLint.Proofs.Grammar.Listed

/-!
Reading does not run out of fuel. A token that is left is worth a fixed number of looks, and what
else is left is the credit. Looks are paid for from the credit and each token that is taken refills
it, so a loop in which every round takes a token ends with as much as one round needs.
-/

namespace EffectLint

namespace Parse

-- Every token that is left is paid for, in fuel and in levels of nesting, with credit to spare.
structure Affords (price levels credit : Nat) (rest : List Token) (fuel : Nat) : Prop where
  worth : 128 ≤ price
  fuel : price * rest.length + credit ≤ fuel
  levels : price * rest.length + credit ≤ levels

-- Whatever the text is, the fuel does not run out, and afterwards what is claimed holds.
def Lasts {α : Type} (before : List Token → Nat → Prop) (body : Parse α)
    (after : α → List Token → Nat → Prop) : Prop :=
  ∀ limits state, before state.rest state.fuel → body limits state ≠ .error .Fuel ∧
    ∀ result state', body limits state = .ok (result, state') →
      state'.rest.length ≤ state.rest.length ∧ state'.fuel ≤ state.fuel ∧
        after result state'.rest state'.fuel

section Affords

variable {price levels credit credit' fuel : Nat} {token : Token} {rest : List Token}

theorem Affords.fewer (h : Affords price levels credit' rest fuel) (hless : credit ≤ credit') :
    Affords price levels credit rest fuel :=
  ⟨h.worth, Nat.le_trans (Nat.add_le_add_left hless _) h.fuel,
    Nat.le_trans (Nat.add_le_add_left hless _) h.levels⟩

theorem Affords.look (h : Affords price levels (credit + 1) rest fuel) :
    ∃ left, fuel = left + 1 ∧ Affords price levels credit rest left := by
  have hfuel := h.fuel
  have hlevels := h.levels
  exact ⟨fuel - 1, by omega, h.worth, by omega, by omega⟩

theorem Affords.deeper (h : Affords price (levels + 1) (credit + 1) rest fuel) :
    Affords price levels credit rest fuel := by
  have hfuel := h.fuel
  have hlevels := h.levels
  exact ⟨h.worth, by omega, by omega⟩

theorem Affords.outer (h : Affords price levels credit rest fuel) :
    Affords price (levels + 1) credit rest fuel :=
  ⟨h.worth, h.fuel, Nat.le_succ_of_le h.levels⟩

theorem Affords.take (h : Affords price levels credit (token :: rest) fuel) :
    Affords price levels (credit + 128) rest fuel := by
  obtain ⟨hworth, hfuel, hlevels⟩ := h
  rw [List.length_cons, Nat.mul_succ] at hfuel hlevels
  exact ⟨hworth, by omega, by omega⟩

end Affords

namespace Lasts

variable {α β σ : Type} {before : List Token → Nat → Prop} {body : Parse α}
  {after : α → List Token → Nat → Prop}

theorem weaken {before' : List Token → Nat → Prop} {after' : α → List Token → Nat → Prop}
    (h : Lasts before body after) (hbefore : ∀ rest fuel, before' rest fuel → before rest fuel)
    (hafter : ∀ result rest fuel, after result rest fuel → after' result rest fuel) :
    Lasts before' body after' := by
  intro limits state hstate
  obtain ⟨hlasts, hends⟩ := h limits state (hbefore _ _ hstate)
  refine ⟨hlasts, fun result state' hrun => ?_⟩
  obtain ⟨hrest, hfuel, hresult⟩ := hends result state' hrun
  exact ⟨hrest, hfuel, hafter _ _ _ hresult⟩

theorem pure {result : α} (h : ∀ rest fuel, before rest fuel → after result rest fuel) :
    Lasts before (Pure.pure result) after := by
  refine fun limits state hstate => ⟨fun hrun => (nomatch hrun), fun found state' hrun => ?_⟩
  cases hrun
  exact ⟨Nat.le_refl _, Nat.le_refl _, h _ _ hstate⟩

theorem bind {next : α → Parse β} {last : β → List Token → Nat → Prop}
    (hbody : Lasts before body after) (hnext : ∀ found, Lasts (after found) (next found) last) :
    Lasts before (body >>= next) last := by
  intro limits state hstate
  obtain ⟨hlasts, hends⟩ := hbody limits state hstate
  cases hfound : body limits state with
  | error reason =>
      rw [bind_of_error hfound]
      exact ⟨fun hrun => hlasts (hfound.trans (congrArg Except.error (Except.error.inj hrun))),
        fun _ _ hrun => nomatch hrun⟩
  | ok found =>
      obtain ⟨hrest, hfuel, hresult⟩ := hends found.1 found.2 hfound
      obtain ⟨hlasts', hends'⟩ := hnext found.1 limits found.2 hresult
      rw [bind_of_ok hfound]
      refine ⟨hlasts', fun result state' hrun => ?_⟩
      obtain ⟨hrest', hfuel', hlast⟩ := hends' result state' hrun
      exact ⟨Nat.le_trans hrest' hrest, Nat.le_trans hfuel' hfuel, hlast⟩

theorem impossible (h : ∀ rest fuel, ¬before rest fuel) : Lasts before body after :=
  fun _ _ hstate => (h _ _ hstate).elim

theorem branch {condition : Prop} [Decidable condition] {yes no : Parse α}
    {beforeYes beforeNo : List Token → Nat → Prop} (hyes : Lasts beforeYes yes after)
    (hno : Lasts beforeNo no after) :
    Lasts (fun rest fuel => if condition then beforeYes rest fuel else beforeNo rest fuel)
      (if condition then yes else no) after := by
  by_cases h : condition
  · simpa only [if_pos h] using hyes
  · simpa only [if_neg h] using hno

theorem choose {condition : Prop} [Decidable condition] {yes no : Parse α}
    (hyes : condition → Lasts before yes after) (hno : ¬condition → Lasts before no after) :
    Lasts before (if condition then yes else no) after := by
  by_cases h : condition
  · rw [if_pos h]
    exact hyes h
  · rw [if_neg h]
    exact hno h

theorem either {condition : Prop} [Decidable condition] {yes no : Parse α}
    (hyes : Lasts before yes after) (hno : Lasts before no after) :
    Lasts before (if condition then yes else no) after :=
  choose (fun _ => hyes) fun _ => hno

-- What is known beside the credit need not be used.
theorem plain {fact : List Token → Prop} (h : Lasts before body after) :
    Lasts (fun rest fuel => before rest fuel ∧ fact rest) body after :=
  h.weaken (fun _ _ hstate => hstate.1) fun _ _ _ hresult => hresult

-- Neither tokens nor fuel come back.
theorem within {before' : List Token → Nat → Prop} {length most : Nat} (h : Lasts before body after)
    (hbefore : ∀ rest fuel, before' rest fuel →
      before rest fuel ∧ rest.length ≤ length ∧ fuel ≤ most) :
    Lasts before' body fun result rest fuel =>
      after result rest fuel ∧ rest.length ≤ length ∧ fuel ≤ most := by
  intro limits state hstate
  obtain ⟨hbefore, hlength, hmost⟩ := hbefore _ _ hstate
  obtain ⟨hlasts, hends⟩ := h limits state hbefore
  refine ⟨hlasts, fun result state' hrun => ?_⟩
  obtain ⟨hrest, hfuel, hresult⟩ := hends result state' hrun
  exact ⟨hrest, hfuel, hresult, Nat.le_trans hrest hlength, Nat.le_trans hfuel hmost⟩

theorem unchanged (h : ∀ limits state, match body limits state with
      | .ok (_, state') => state'.rest = state.rest ∧ state'.fuel = state.fuel
      | .error reason => reason = .Depth) : Lasts before body fun _ => before := by
  intro limits state hstate
  have hbody := h limits state
  cases hrun : body limits state with
  | error reason =>
      rw [hrun] at hbody
      refine ⟨fun herror => ?_, fun _ _ hok => nomatch hok⟩
      cases hbody
      cases herror
  | ok found =>
      rw [hrun] at hbody
      refine ⟨fun herror => (nomatch herror), fun result state' hok => ?_⟩
      cases hok
      refine ⟨Nat.le_of_eq (congrArg List.length hbody.1), Nat.le_of_eq hbody.2, ?_⟩
      rw [hbody.1, hbody.2]
      exact hstate

theorem here : Lasts before here fun _ => before := by
  refine unchanged fun limits state => ?_
  unfold Parse.here
  cases hrest : state.rest <;> exact ⟨hrest, rfl⟩

theorem since (start : Nat) : Lasts before (since start) fun _ => before :=
  unchanged fun _ _ => ⟨rfl, rfl⟩

theorem beyond : Lasts before beyond fun _ => before :=
  unchanged fun _ _ => ⟨rfl, rfl⟩

theorem report (diagnostic : Diagnostic) : Lasts before (report diagnostic) fun _ => before :=
  unchanged fun _ _ => ⟨rfl, rfl⟩

theorem complain (diagnostic : Diagnostic) : Lasts before (complain diagnostic) fun _ => before := by
  refine unchanged fun limits state => ?_
  simp only [Parse.complain]
  by_cases hsame : state.lastComplaint = some diagnostic.span.start
  · rw [if_pos hsame]
    exact ⟨rfl, rfl⟩
  · rw [if_neg hsame]
    exact ⟨rfl, rfl⟩

theorem enter : Lasts before enter fun _ => before := by
  refine unchanged fun limits state => ?_
  unfold Parse.enter
  by_cases hroom : limits.depth ≤ state.depth
  · rw [if_pos hroom]
  · rw [if_neg hroom]
    exact ⟨rfl, rfl⟩

theorem leave : Lasts before leave fun _ => before :=
  unchanged fun _ _ => ⟨rfl, rfl⟩

theorem restoringDepth (h : Lasts before body after) : Lasts before (restoringDepth body) after := by
  intro limits state hstate
  obtain ⟨hlasts, hends⟩ := h limits state hstate
  unfold Parse.restoringDepth
  cases hbody : body limits state with
  | error reason =>
      exact ⟨fun herror => hlasts (hbody.trans (congrArg Except.error (Except.error.inj herror))),
        fun _ _ hok => nomatch hok⟩
  | ok found =>
      refine ⟨fun herror => (nomatch herror), fun result state' hok => ?_⟩
      cases hok
      exact hends found.1 found.2 hbody

theorem atEnd : Lasts before atEnd fun ends rest fuel => before rest fuel ∧ (ends = false → rest ≠ []) := by
  refine fun limits state hstate => ⟨fun hrun => (nomatch hrun), fun ends state' hrun => ?_⟩
  cases hrun
  exact ⟨Nat.le_refl _, Nat.le_refl _, hstate, List.isEmpty_eq_false_iff.mp⟩

theorem take {after : List Token → Nat → Prop}
    (hsome : ∀ token rest fuel, before (token :: rest) fuel → after rest fuel)
    (hnone : ∀ fuel, before [] fuel → after [] fuel) : Lasts before take fun _ => after := by
  rintro limits ⟨rest, taken, lastEnd, fuel, depth, lastComplaint, diagnostics⟩ hstate
  cases rest with
  | nil =>
      refine ⟨fun hrun => (nomatch hrun), fun text state' hrun => ?_⟩
      cases hrun
      exact ⟨Nat.le_refl _, Nat.le_refl _, hnone _ hstate⟩
  | cons token rest =>
      refine ⟨fun hrun => (nomatch hrun), fun text state' hrun => ?_⟩
      cases hrun
      exact ⟨Nat.le_succ _, Nat.le_refl _, hsome _ _ _ hstate⟩

variable {price levels credit : Nat}

-- Each look costs one unit.
theorem inspectKnowing {fact : List Token → Prop} :
    Lasts (fun rest fuel => Affords price levels (credit + 1) rest fuel ∧ fact rest) inspect
      fun next rest fuel => (Affords price levels credit rest fuel ∧ nextKind rest = next) ∧ fact rest := by
  intro limits state ⟨hstate, hfact⟩
  obtain ⟨left, hfuel, hleft⟩ := hstate.look
  unfold Parse.inspect
  rw [hfuel]
  refine ⟨fun hrun => (nomatch hrun), fun next state' hrun => ?_⟩
  cases hrun
  refine ⟨Nat.le_refl _, Nat.le_succ _, ⟨hleft, ?_⟩, hfact⟩
  cases state.rest <;> rfl

theorem inspect : Lasts (Affords price levels (credit + 1)) inspect fun next rest fuel =>
    Affords price levels credit rest fuel ∧ nextKind rest = next :=
  (inspectKnowing : Lasts (fun _ _ => _ ∧ True) _ _).weaken (fun _ _ h => ⟨h, trivial⟩)
    fun _ _ _ h => h.1

-- A token that has been seen is there to be taken.
theorem takeSeen {kind : TokenKind} :
    Lasts (fun rest fuel => Affords price levels credit rest fuel ∧ nextKind rest = some kind)
      Parse.take fun _ => Affords price levels (credit + 128) :=
  take (fun _ _ _ h => h.1.take) fun _ h => nomatch h.2

theorem skip {after : List Token → Nat → Prop}
    (hsome : ∀ token rest fuel, before (token :: rest) fuel → after rest fuel)
    (hnone : ∀ fuel, before [] fuel → after [] fuel) : Lasts before skip fun _ => after :=
  (take hsome hnone).bind fun _ => .pure fun _ _ h => h

theorem skipAny :
    Lasts (Affords price levels credit) Parse.skip fun _ => Affords price levels credit :=
  skip (fun _ _ _ h => h.take.fewer (Nat.le_add_right _ _)) fun _ h => h

theorem skipSome :
    Lasts (fun rest fuel => Affords price levels credit rest fuel ∧ rest ≠ []) Parse.skip fun _ =>
      Affords price levels (credit + 128) :=
  skip (fun _ _ _ h => h.1.take) fun _ h => (h.2 rfl).elim

theorem skipSeen {kind : TokenKind} :
    Lasts (fun rest fuel => Affords price levels credit rest fuel ∧ nextKind rest = some kind)
      Parse.skip fun _ => Affords price levels (credit + 128) :=
  skip (fun _ _ _ h => h.1.take) fun _ h => nomatch h.2

theorem isAt (kind : TokenKind) :
    Lasts (Affords price levels (credit + 1)) (isAt kind) fun found rest fuel =>
      if found = true then Affords price levels credit rest fuel ∧ nextKind rest = some kind
      else Affords price levels credit rest fuel := by
  refine inspect.bind fun next => .pure fun rest fuel ⟨hrest, hnext⟩ => ?_
  by_cases h : (next == some kind) = true
  · rw [if_pos h]
    exact ⟨hrest, hnext.trans (eq_of_beq h)⟩
  · rw [if_neg h]
    exact hrest

theorem eat (kind : TokenKind) :
    Lasts (Affords price levels (credit + 1)) (eat kind) fun found rest fuel =>
      if found = true then Affords price levels (credit + 128) rest fuel
      else Affords price levels credit rest fuel :=
  (isAt kind).bind fun _ => .branch (skipSeen.bind fun _ => .pure fun _ _ h => h)
    (.pure fun _ _ h => h)

-- What has been seen to be next is found.
theorem expectSeen (kind : TokenKind) (missing : DiagnosticKind) :
    Lasts (fun rest fuel => Affords price levels (credit + 1) rest fuel ∧ nextKind rest = some kind)
      (expect kind missing) fun _ => Affords price levels (credit + 128) := by
  have hat : Lasts (fun rest fuel => Affords price levels (credit + 1) rest fuel ∧
      nextKind rest = some kind) (Parse.isAt kind) fun found rest fuel =>
        if found = true then Affords price levels credit rest fuel ∧ nextKind rest = some kind
        else False := by
    refine inspectKnowing.bind fun next => .pure fun rest fuel ⟨⟨hrest, hnext⟩, hkind⟩ => ?_
    rw [if_pos (beq_iff_eq.mpr (hnext.symm.trans hkind))]
    exact ⟨hrest, hkind⟩
  have heat : Lasts (fun rest fuel => Affords price levels (credit + 1) rest fuel ∧
      nextKind rest = some kind) (Parse.eat kind) fun found rest fuel =>
        if found = true then Affords price levels (credit + 128) rest fuel else False :=
    hat.bind fun _ => .branch (skipSeen.bind fun _ => .pure fun _ _ h => h)
      (.impossible fun _ _ h => h)
  exact heat.bind fun _ => .branch (.pure fun _ _ h => h) (.impossible fun _ _ h => h)

theorem expect (kind : TokenKind) (missing : DiagnosticKind) :
    Lasts (Affords price levels (credit + 1)) (expect kind missing) fun found rest fuel =>
      if found = true then Affords price levels (credit + 128) rest fuel
      else Affords price levels credit rest fuel :=
  (eat kind).bind fun _ => .branch (.pure fun _ _ h => h)
    (here.bind fun _ => (complain _).bind fun _ => .pure fun _ _ h => h)

end Lasts

-- What a round leaves behind, depending on whether it is the last one.
def Round.pick {σ α : Type} (again done : Nat) : Round σ α → Nat
  | .Again _ => again
  | .Done _ => done

namespace Lasts

variable {α σ : Type} {price levels : Nat}

-- A round that goes on leaves more credit than it found. What it found may be all that is left, so
-- it must have taken a token.
theorem rounds {round : σ → Parse (Round σ α)} {cost : Nat}
    (hround : ∀ state credit, Lasts (Affords price levels (credit + cost)) (round state)
      fun found => Affords price levels (found.pick (credit + cost + 1) credit))
    (first : σ) (credit : Nat) :
    Lasts (Affords price levels (credit + cost)) (rounds first round) fun _ =>
      Affords price levels credit := by
  have hrounds : ∀ bound state, Lasts
      (fun rest fuel => Affords price levels (credit + cost) rest fuel ∧ rest.length < bound)
      (roundsAtMost round bound state) fun _ => Affords price levels credit := by
    intro bound
    induction bound with
    | zero => exact fun state limits start hstart => nomatch hstart.2
    | succ bound ih =>
        intro state limits start ⟨hstart, hbound⟩
        -- all the credit that there is at the start of the round
        obtain ⟨spare, hspare⟩ : ∃ spare, min start.fuel levels =
            price * start.rest.length + credit + cost + spare :=
          Nat.exists_eq_add_of_le (by have := hstart.fuel; have := hstart.levels; omega)
        have hall : Affords price levels (credit + spare + cost) start.rest start.fuel :=
          ⟨hstart.worth, by omega, by omega⟩
        have hone : Lasts (fun rest fuel => rest = start.rest ∧ fuel = start.fuel) (round state)
            fun found rest fuel =>
              Affords price levels (found.pick (credit + spare + cost + 1) (credit + spare)) rest fuel ∧
                rest.length ≤ start.rest.length ∧ fuel ≤ start.fuel :=
          (hround state (credit + spare)).within fun rest fuel ⟨hrest, hfuel⟩ => by
            subst hrest hfuel
            exact ⟨hall, Nat.le_refl _, Nat.le_refl _⟩
        refine (hone.bind fun found => ?_) limits start ⟨rfl, rfl⟩
        cases found with
        | Again next =>
            refine (ih next).weaken (fun rest fuel ⟨hmore, hrest, hfuel⟩ => ?_) fun _ _ _ h => h
            have htaken : rest.length ≠ start.rest.length := fun hsame => by
              have hpaid := hmore.fuel
              have hlevels := hmore.levels
              rw [hsame] at hpaid hlevels
              simp only [Round.pick] at hpaid hlevels
              omega
            exact ⟨hmore.fewer (by simp only [Round.pick]; omega), by omega⟩
        | Done result => exact .pure fun rest fuel h => h.1.fewer (by simp only [Round.pick]; omega)
  refine fun limits start hstart => hrounds (start.fuel + 1) first limits start ⟨hstart, ?_⟩
  have hworth : start.rest.length ≤ price * start.rest.length :=
    Nat.le_mul_of_pos_left _ (by have := hstart.worth; omega)
  have hfuel := hstart.fuel
  omega

variable {credit less more last : Nat}

theorem spare {result : α} (hless : less ≤ credit) :
    Lasts (Affords price levels credit) (Pure.pure result) fun _ => Affords price levels less :=
  .pure fun _ _ h => h.fewer hless

theorem given {body : Parse α} {after : α → List Token → Nat → Prop} (less : Nat)
    (hless : less ≤ credit) (h : Lasts (Affords price levels less) body after) :
    Lasts (Affords price levels credit) body after :=
  h.weaken (fun _ _ hstate => hstate.fewer hless) fun _ _ _ hresult => hresult

theorem again {next : σ} (hmore : more ≤ credit) :
    Lasts (Affords price levels credit) (Pure.pure (Round.Again next : Round σ α)) fun found =>
      Affords price levels (found.pick more last) :=
  .pure fun _ _ h => h.fewer hmore

theorem done {result : α} (hlast : last ≤ credit) :
    Lasts (Affords price levels credit) (Pure.pure (Round.Done result : Round σ α)) fun found =>
      Affords price levels (found.pick more last) :=
  .pure fun _ _ h => h.fewer hlast

end Lasts

-- Reading takes no more than the cost, whatever the tokens are.
def Costs {α : Type} (price levels cost : Nat) (body : Parse α) : Prop :=
  ∀ credit, Lasts (Affords price levels (credit + cost)) body fun _ => Affords price levels credit

-- Either no token is taken, or those that are pay for more than the cost.
def Pays {α : Type} (price levels cost : Nat) (body : Parse α) : Prop :=
  ∀ length credit, Lasts
    (fun rest fuel => rest.length = length ∧ Affords price levels (credit + cost) rest fuel) body
    fun _ rest fuel => rest.length = length ∧ Affords price levels credit rest fuel ∨
      Affords price levels (credit + 64) rest fuel

section Costs

variable {α β : Type} {price levels cost credit : Nat} {body : Parse α}

-- Where a token is worth more, what it was worth before is left over for each token taken.
theorem Costs.pays (h : Costs price levels cost body) (hworth : 128 ≤ price) :
    Pays (price + 128) levels cost body := by
  rintro length credit limits state ⟨rfl, hstate⟩
  have hfuel := hstate.fuel
  have hlevels := hstate.levels
  rw [Nat.add_mul] at hfuel hlevels
  obtain ⟨hlasts, hends⟩ := h (128 * state.rest.length + credit) limits state
    ⟨hworth, by omega, by omega⟩
  refine ⟨hlasts, fun result state' hrun => ?_⟩
  obtain ⟨hshorter, hfewer, hresult⟩ := hends result state' hrun
  refine ⟨hshorter, hfewer, ?_⟩
  have hfuel' := hresult.fuel
  have hlevels' := hresult.levels
  have hpaid := Nat.add_mul price 128 state'.rest.length
  by_cases hsame : state'.rest.length = state.rest.length
  · exact .inl ⟨hsame, by omega, by omega, by omega⟩
  · exact .inr ⟨by omega, by omega, by omega⟩

-- What is left after a token that has been seen makes up for it.
theorem Lasts.paid {kind : TokenKind} {more length : Nat}
    (h : Lasts (fun rest fuel => Affords price levels more rest fuel ∧ nextKind rest = some kind) body
      fun _ => Affords price levels (credit + 64)) :
    Lasts (fun rest fuel => (Affords price levels more rest fuel ∧ nextKind rest = some kind) ∧
      rest.length = length) body fun _ rest fuel =>
        rest.length = length ∧ Affords price levels credit rest fuel ∨
          Affords price levels (credit + 64) rest fuel :=
  h.weaken (fun _ _ hstate => hstate.1) fun _ _ _ hresult => .inr hresult

theorem Pays.costs (h : Pays price levels cost body) : Costs price levels cost body := by
  intro credit limits state hstate
  obtain ⟨hlasts, hends⟩ := h state.rest.length credit limits state ⟨rfl, hstate⟩
  refine ⟨hlasts, fun result state' hrun => ?_⟩
  obtain ⟨hshorter, hfewer, hresult⟩ := hends result state' hrun
  refine ⟨hshorter, hfewer, ?_⟩
  rcases hresult with ⟨_, hresult⟩ | hresult
  · exact hresult
  · exact hresult.fewer (Nat.le_add_right _ _)

-- Where nothing is taken, a token is passed over.
theorem Pays.taking {behind : α → Parse β} {after : β → List Token → Nat → Prop}
    (hbody : Pays price levels cost body) (hcounted : Counted body)
    (hbehind : ∀ result, Lasts (Affords price levels (credit + 64)) (behind result) after) :
    Lasts (fun rest fuel => Affords price levels (credit + cost) rest fuel ∧ rest ≠ []) (do
      let count ← taken
      let result ← body
      if (← taken) = count then
        skip
      behind result) after := by
  rintro limits state ⟨hstate, hsome⟩
  obtain ⟨hlasts, hends⟩ := hbody state.rest.length credit limits state ⟨rfl, hstate⟩
  rw [taking_apply]
  cases hfound : body limits state with
  | error reason =>
      exact ⟨fun hrun => hlasts (hfound.trans (congrArg Except.error (Except.error.inj hrun))),
        fun _ _ hrun => nomatch hrun⟩
  | ok found =>
      obtain ⟨hshorter, hfewer, hresult⟩ := hends found.1 found.2 hfound
      have hcount := hcounted limits state found.1 found.2 hfound
      have hnext : Lasts (fun rest fuel => rest = found.2.rest ∧ fuel = found.2.fuel)
          (if found.2.taken = state.taken then skip >>= fun _ => behind found.1
            else behind found.1) after := by
        by_cases htaken : found.2.taken = state.taken
        · rw [if_pos htaken]
          have hskip : Lasts (fun rest fuel => rest = found.2.rest ∧ fuel = found.2.fuel) skip
              fun _ => Affords price levels (credit + 64) := by
            refine .skip (fun token rest fuel ⟨hrest, hfuel⟩ => ?_) fun fuel ⟨hrest, hfuel⟩ => ?_
            · rw [← hrest, ← hfuel] at hresult
              rcases hresult with ⟨_, hresult⟩ | hresult
              · exact hresult.take.fewer (by omega)
              · exact hresult.take.fewer (by omega)
            · rw [← hrest, ← hfuel] at hresult
              exact hresult.resolve_left fun hnone =>
                hsome (List.length_eq_zero_iff.mp hnone.1.symm)
          exact hskip.bind fun _ => hbehind found.1
        · rw [if_neg htaken]
          refine (hbehind found.1).weaken ?_ fun _ _ _ h => h
          rintro rest fuel ⟨rfl, rfl⟩
          exact hresult.resolve_left fun hsame => by omega
      obtain ⟨hlasts', hends'⟩ := hnext limits found.2 ⟨rfl, rfl⟩
      refine ⟨hlasts', fun result state' hrun => ?_⟩
      obtain ⟨hshorter', hfewer', hafter⟩ := hends' result state' hrun
      exact ⟨Nat.le_trans hshorter' hshorter, Nat.le_trans hfewer' hfewer, hafter⟩

-- A level of nesting is paid for like a look.
theorem Costs.nested (h : Costs price levels cost body) : Costs price (levels + 1) (cost + 1) body :=
  fun credit => (h credit).weaken (fun _ _ hstate => hstate.deeper) fun _ _ _ hresult => hresult.outer

theorem Pays.nested (h : Pays price levels cost body) : Pays price (levels + 1) (cost + 1) body :=
  fun length credit => (h length credit).weaken (fun _ _ hstate => hstate.imp_right Affords.deeper)
    fun _ _ _ hresult => hresult.imp (And.imp_right Affords.outer) Affords.outer

end Costs

section Steps

variable {price levels : Nat}

theorem costs_isAt (kind : TokenKind) : Costs price levels 1 (isAt kind) := fun _ =>
  (Lasts.isAt kind).weaken (fun _ _ h => h) fun found rest fuel h => by
    split at h
    · exact h.1
    · exact h

theorem costs_eat (kind : TokenKind) : Costs price levels 1 (eat kind) := fun _ =>
  (Lasts.eat kind).weaken (fun _ _ h => h) fun found rest fuel h => by
    split at h
    · exact h.fewer (Nat.le_add_right _ _)
    · exact h

theorem costs_expectName : Costs price levels 1 expectName := fun _ =>
  (Lasts.isAt _).bind fun _ => .branch
    (Lasts.here.bind fun _ => Lasts.takeSeen.bind fun _ => .spare (by omega))
    (Lasts.here.bind fun _ => (Lasts.complain _).bind fun _ => .spare (by omega))

theorem costs_expect (kind : TokenKind) (missing : DiagnosticKind) :
    Costs price levels 1 (expect kind missing) := fun _ =>
  (Lasts.expect kind missing).weaken (fun _ _ h => h) fun found rest fuel h => by
    split at h
    · exact h.fewer (Nat.le_add_right _ _)
    · exact h

theorem costs_close (sign : Sign) (missing : DiagnosticKind) (opening : String) (opened : Span) :
    Costs price levels 1 (close sign missing opening opened) := fun _ =>
  (Lasts.eat _).bind fun _ => .branch (.spare (by omega))
    (Lasts.here.bind fun _ => Lasts.report _)

theorem costs_closeParen (opened : Span) : Costs price levels 1 (closeParen opened) :=
  costs_close _ _ _ opened

theorem costs_recoverStatement : Costs price levels 1 recoverStatement := by
  refine fun credit => .rounds (fun _ credit => Lasts.inspect.bind fun next => ?_) () credit
  split
  · exact .plain (.done (by omega))
  · exact Lasts.skipSeen.bind fun _ => .done (by omega)
  · exact .plain (.done (by omega))
  · exact Lasts.skipSeen.bind fun _ => .again (by omega)

theorem costs_recoverItem : Costs price levels 1 recoverItem := by
  refine fun credit => .rounds (fun _ credit => Lasts.inspect.bind fun next => ?_) () credit
  split
  · exact .plain (.done (by omega))
  · exact Lasts.skipSeen.bind fun _ => .either (.done (by omega)) (.again (by omega))

theorem costs_expectSemicolon : Costs price levels 2 expectSemicolon := fun _ =>
  (Lasts.eat _).bind fun _ => .branch (.spare (by omega)) (Lasts.here.bind fun _ =>
    (Lasts.complain _).bind fun _ => costs_recoverStatement _)

theorem costs_readPromises : Costs price levels 2 Grammar.readPromises := by
  refine fun credit => .rounds (fun _ credit => ?_) _ credit
  exact (Lasts.eat _).bind fun _ => .branch (.again (by omega))
    ((Lasts.eat _).bind fun _ => .branch (.again (by omega)) (.done (by omega)))

-- A list is read for what its last item and the looks around it take.
theorem costs_listed {α : Type} {cost : Nat} {item : Parse α} (hitem : Costs price levels cost item)
    (hcost : cost ≤ 64) : Costs price levels (cost + 2) (rounds #[] (Grammar.listRound item)) := by
  refine fun credit => .rounds (fun found credit => ?_) _ credit
  refine .given (credit + 1 + cost + 1) (by omega) ((Lasts.isAt _).bind fun _ =>
    .branch (.plain (.done (by omega))) (Lasts.atEnd.bind fun _ =>
      .either (.plain (.done (by omega))) (.plain ((hitem _).bind fun _ =>
        (Lasts.eat _).bind fun _ => .branch (.again (by omega)) (.done (by omega))))))

end Steps

end Parse

namespace Grammar

open Parse

-- What reading each nonterminal may take, the level that it opens included.
def Lasting (price levels : Nat) : (nonterminal : Nonterminal) → Parse nonterminal.Result → Prop
  | .Type, body => Costs price levels 4 body
  | .Unary, body => Costs price levels 6 body
  | .Binary _, body => Costs price levels 8 body
  | .Conditional, body => Costs price levels 10 body
  | .Assignment, body => Costs price levels 12 body
  | .Expression, body => Costs price levels 14 body
  -- an expression that takes no token is paid for by the statement around it
  | .Statement, body => 256 ≤ price → Pays price levels 19 body

def ReadsLasting (levels : Nat) (self : Reading) : Prop :=
  ∀ price nonterminal, Lasting price levels nonterminal (self nonterminal)

end Grammar

end EffectLint
