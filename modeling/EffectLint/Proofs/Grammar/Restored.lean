import EffectLint.Proofs.Grammar.Stepwise

/-!
Every construct gives back the levels of nesting that it takes, however it is left. A level that is
entered is left again, and a chain goes back to where it started.
-/

namespace EffectLint

namespace Parse

-- Reading that starts at one depth ends at the other.
def Brings {α : Type} (depth : Nat) (body : Parse α) (depth' : Nat) : Prop :=
  ∀ limits state result after, state.depth = depth → body limits state = .ok (result, after) →
    after.depth = depth'

def Restores {α : Type} (body : Parse α) : Prop :=
  ∀ depth, Brings depth body depth

namespace Brings

variable {α β σ : Type} {depth depth' last : Nat}

theorem pure (result : α) : Brings depth (Pure.pure result) depth := by
  intro limits state found after hdepth hrun
  cases hrun
  exact hdepth

theorem bind {first : Parse α} {next : α → Parse β} (hfirst : Brings depth first depth')
    (hnext : ∀ found, Brings depth' (next found) last) : Brings depth (first >>= next) last := by
  intro limits state result after hdepth hrun
  obtain ⟨found, middle, hfound, hafter⟩ := of_bind hrun
  exact hnext found limits middle result after (hfirst limits state found middle hdepth hfound) hafter

theorem either {condition : Prop} [Decidable condition] {yes no : Parse α}
    (hyes : Brings depth yes depth') (hno : Brings depth no depth') :
    Brings depth (if condition then yes else no) depth' := by
  split
  · exact hyes
  · exact hno

theorem enter : Brings depth enter (depth + 1) := by
  intro limits state result after hdepth hrun
  obtain ⟨_, rfl⟩ := of_enter hrun
  exact congrArg (· + 1) hdepth

theorem leave : Brings (depth + 1) leave depth := by
  intro limits state result after hdepth hrun
  cases hrun
  simp only [hdepth, Nat.add_sub_cancel]

theorem inspect : Brings depth inspect depth := by
  intro limits state result after hdepth hrun
  obtain ⟨fuel, _, _, rfl⟩ := of_inspect hrun
  exact hdepth

theorem take : Brings depth take depth := by
  intro limits state result after hdepth hrun
  rcases of_take hrun with ⟨_, _, rfl⟩ | ⟨token, rest, _, _, rfl⟩ <;> exact hdepth

theorem complain (diagnostic : Diagnostic) : Brings depth (complain diagnostic) depth := by
  intro limits state result after hdepth hrun
  rcases of_complain hrun with ⟨_, rfl⟩ | ⟨_, rfl⟩ <;> exact hdepth

theorem restoringDepth (body : Parse α) : Brings depth (restoringDepth body) depth := by
  intro limits state result after hdepth hrun
  obtain ⟨middle, _, rfl⟩ := of_restoringDepth hrun
  exact hdepth

theorem roundsAtMost {round : σ → Parse (Round σ α)} (hround : ∀ state, Brings depth (round state) depth)
    (bound : Nat) (first : σ) : Brings depth (roundsAtMost round bound first) depth := by
  induction bound generalizing first with
  | zero => exact fun _ _ _ _ _ hrun => nomatch hrun
  | succ bound ih =>
      refine (hround first).bind fun found => ?_
      cases found with
      | Again next => exact ih next
      | Done result => exact .pure result

theorem rounds (first : σ) {round : σ → Parse (Round σ α)}
    (hround : ∀ state, Brings depth (round state) depth) : Brings depth (rounds first round) depth :=
  fun limits state => roundsAtMost hround (state.fuel + 1) first limits state

end Brings

theorem levelwise_restores : Levelwise (fun {_} body _ => Restores body) where
  pure result _ := .pure result
  bind hfirst hnext depth := (hfirst depth).bind fun found => hnext found depth
  glance _ _ _ _ _ _ hdepth hrun := by cases hrun; exact hdepth
  inspect _ := .inspect
  take _ := .take
  report _ _ _ _ _ _ _ hdepth hrun := by cases hrun; exact hdepth
  complain diagnostic _ _ := .complain diagnostic
  restoringDepth _ _ := .restoringDepth _
  rounds first _ _ hround depth := .rounds first fun state => hround state depth

end Parse

namespace Grammar

open Parse

section Productions

variable {self : Reading} (hself : ∀ nonterminal, Restores (self nonterminal))

include hself

theorem restores_readPower : Restores (readPower self) := by
  have steps := levelwise_restores
  intro depth
  exact (steps.here _).bind fun _ => (Brings.restoringDepth _).bind fun _ => (steps.eat _ _).bind
    fun _ => .either ((hself .Unary _).bind fun _ => (steps.since _ _).bind fun _ => .pure _) (.pure _)

theorem restores_readUnary : Restores (readUnary self) := by
  have steps := levelwise_restores
  intro depth
  refine Brings.enter.bind fun _ => (steps.here _).bind fun span => Brings.inspect.bind fun next => ?_
  have hbehind : ∀ unary : Expr, Brings (depth + 1) (do leave; return unary) depth :=
    fun unary => Brings.leave.bind fun _ => .pure unary
  have hcast : Restores (readCast self span.start) :=
    @Nearsighted.readCast _ steps.toNearsighted self self hself span.start
  split
  · exact (hcast _).bind hbehind
  · exact (steps.readNew _ _).bind hbehind
  · split
    · exact (steps.skip _).bind fun _ => (hself .Unary _).bind fun _ => (steps.since _ _).bind fun _ =>
        (Brings.pure _).bind hbehind
    · exact (restores_readPower hself _).bind hbehind

theorem restores_readConditional : Restores (readConditional self) := by
  have steps := levelwise_restores
  intro depth
  refine (steps.here _).bind fun _ => (hself _ _).bind fun _ => (steps.eat _ _).bind fun _ =>
    .either ?_ (.pure _)
  exact Brings.enter.bind fun _ => (hself .Expression _).bind fun _ => (steps.expect _ _ rfl _).bind
    fun _ => (hself .Conditional _).bind fun _ => Brings.leave.bind fun _ => (steps.since _ _).bind
    fun _ => .pure _

theorem restores_readAssignment : Restores (readAssignment self) := by
  have steps := levelwise_restores
  intro depth
  refine (steps.here _).bind fun _ => (hself .Conditional _).bind fun target =>
    Brings.inspect.bind fun next => ?_
  split
  · exact .pure _
  · exact (steps.skip _).bind fun _ => Brings.enter.bind fun _ => (hself .Assignment _).bind fun _ =>
      Brings.leave.bind fun _ => (steps.since _ _).bind fun _ => .pure _

theorem restores_readStatement : Restores (readStatement self) := by
  have hhere : Restores (readStatementHere self) :=
    @Nearsighted.readStatementHere _ levelwise_restores.toNearsighted self self hself
  intro depth
  exact Brings.enter.bind fun _ => (hhere _).bind fun _ => Brings.leave.bind fun _ => .pure _

theorem restores_production : ∀ nonterminal, Restores (production self nonterminal)
  | .Expression => fun _ => .restoringDepth _
  | .Assignment => restores_readAssignment hself
  | .Conditional => restores_readConditional hself
  | .Binary _ => fun _ => .restoringDepth _
  | .Unary => restores_readUnary hself
  | .Type => @Nearsighted.readType _ levelwise_restores.toNearsighted self self (hself .Type)
  | .Statement => restores_readStatement hself

end Productions

theorem restores_readWithin (levels : Nat) (nonterminal : Nonterminal) :
    Restores (readWithin levels nonterminal) := by
  induction levels generalizing nonterminal with
  | zero => exact fun _ _ _ _ _ _ hrun => nomatch hrun
  | succ levels ih => exact restores_production ih nonterminal

theorem restores_read (nonterminal : Nonterminal) : Restores (read nonterminal) :=
  fun depth limits state => restores_readWithin (nesting state.fuel) nonterminal depth limits state

theorem restores_readItemRound (items : Array Item) : Restores (readItemRound items) :=
  @Nearsighted.readItemRound _ levelwise_restores.toNearsighted restores_read items

end Grammar

end EffectLint
