import EffectLint.Proofs.Arena.Forest
import EffectLint.Proofs.Effect.Declared

/-!
A walk is the recursive postorder, cut off behind the first node at which the visitor stops. This
needs nothing but that the nodes form trees.
-/

namespace EffectLint

namespace Arena

-- Operands come before the node that they belong to, and no node is an operand twice.
structure Treelike (arena : Arena) : Prop where
  older : ∀ {parent child : NodeId}, child ∈ arena.operands parent → child.index < parent.index
  once : arena.allOperands.Nodup

theorem WellFormed.treelike {arena : Arena} (wf : arena.WellFormed) : arena.Treelike :=
  ⟨wf.operand_lt, wf.allOperands_nodup⟩

section Parents

-- The node that has the child among its operands.
def owner? (arena : Arena) (child : NodeId) : Option NodeId :=
  ((List.range arena.size).map NodeId.mk).find? fun parent => child ∈ arena.operands parent

-- The same nodes, with the parents that they tell of.
def withOwners (arena : Arena) : Arena :=
  ⟨arena.nodes, Array.ofFn fun index : Fin arena.size => arena.owner? ⟨index⟩⟩

variable {arena : Arena}

theorem operands_withOwners (id : NodeId) : arena.withOwners.operands id = arena.operands id :=
  rfl

theorem mem_of_owner? {parent child : NodeId} (h : arena.owner? child = some parent) :
    child ∈ arena.operands parent := by
  unfold owner? at h
  simpa only [decide_eq_true_eq] using List.find?_some h

namespace Treelike

theorem distinct (trees : arena.Treelike) (parent : NodeId) : (arena.operands parent).Nodup := by
  by_cases hparent : parent.index < arena.size
  · exact (List.nodup_flatMap.mp trees.once).1 parent.index (List.mem_range.mpr hparent)
  · rw [operands_eq_nil (Nat.le_of_not_lt hparent)]
    exact List.nodup_nil

theorem owner_unique (trees : arena.Treelike) {left right child : NodeId}
    (hleft : child ∈ arena.operands left) (hright : child ∈ arena.operands right) :
    left = right := by
  by_contra hne
  have hindex : left.index ≠ right.index := fun heq => hne (congrArg NodeId.mk heq)
  have hdisjoint := (List.nodup_flatMap.mp trees.once).2
  have hsymm : Std.Symm (Function.onFun List.Disjoint fun index => arena.operands ⟨index⟩) :=
    ⟨fun _ _ h => h.symm⟩
  exact hdisjoint.forall (List.mem_range.mpr (operands_lt_size hleft))
    (List.mem_range.mpr (operands_lt_size hright)) hindex hleft hright

theorem owner?_eq_some_iff (trees : arena.Treelike) {parent child : NodeId} :
    arena.owner? child = some parent ↔ child ∈ arena.operands parent := by
  refine ⟨mem_of_owner?, fun h => ?_⟩
  have hmem : parent ∈ (List.range arena.size).map NodeId.mk :=
    List.mem_map.mpr ⟨parent.index, List.mem_range.mpr (operands_lt_size h), rfl⟩
  cases howner : arena.owner? child with
  | none => exact absurd (decide_eq_true h) (List.find?_eq_none.mp howner parent hmem)
  | some other => rw [trees.owner_unique (mem_of_owner? howner) h]

theorem wellFormed_withOwners (trees : arena.Treelike) : arena.withOwners.WellFormed where
  sizes := Array.size_ofFn
  older := fun _ _ _ hchild => trees.older hchild
  parent_iff := by
    intro parent child
    have hparent : arena.withOwners.parent? child = arena.owner? child := by
      unfold parent? withOwners
      rw [Array.getElem?_ofFn]
      split
      · rfl
      · next hchild =>
        cases howner : arena.owner? child with
        | none => rfl
        | some owner =>
            have hmem := trees.owner?_eq_some_iff.mp howner
            have hlt := Nat.lt_trans (trees.older hmem) (operands_lt_size hmem)
            exact absurd hlt hchild
    rw [hparent, trees.owner?_eq_some_iff]
    exact (and_iff_right_of_imp operands_lt_size).symm
  distinct := trees.distinct

end Treelike

end Parents

section Walk

variable {σ : Type} {arena : Arena}

theorem walkWithin_withOwners (visit : NodeId → StateM σ Control) (steps : Nat)
    (pending : List Pending) :
    arena.withOwners.walkWithin visit steps pending = arena.walkWithin visit steps pending := by
  induction steps generalizing pending with
  | zero => rfl
  | succ steps ih =>
      cases pending with
      | nil => rfl
      | cons first rest =>
          cases first with
          | Enter id => exact ih _
          | Visit id =>
              simp only [walkWithin, ih]

theorem postorderWithin_withOwners (depth : Nat) (id : NodeId) :
    arena.withOwners.postorderWithin depth id = arena.postorderWithin depth id := by
  induction depth generalizing id with
  | zero => rfl
  | succ depth ih =>
      rw [postorderWithin, postorderWithin, operands_withOwners, funext ih]

theorem postorder_withOwners : arena.withOwners.postorder = arena.postorder :=
  funext fun root => postorderWithin_withOwners (root.index + 1) root

namespace Treelike

theorem postorder_eq (trees : arena.Treelike) (id : NodeId) :
    arena.postorder id = (arena.operands id).flatMap arena.postorder ++ [id] := by
  have h := trees.wellFormed_withOwners.postorder_eq id
  rwa [postorder_withOwners] at h

theorem postorder_nodup (trees : arena.Treelike) (root : NodeId) :
    (arena.postorder root).Nodup := by
  have h := trees.wellFormed_withOwners.postorder_nodup root
  rwa [postorder_withOwners] at h

theorem mem_postorder_iff (trees : arena.Treelike) {root id : NodeId} :
    id ∈ arena.postorder root ↔ arena.Below root id := by
  rw [← postorder_withOwners]
  exact trees.wellFormed_withOwners.mem_postorder_iff

theorem walk_eq_visitEach (trees : arena.Treelike) (visit : NodeId → StateM σ Control)
    (root : NodeId) : arena.walk visit root = visitEach visit (arena.postorder root) := by
  have h := trees.wellFormed_withOwners.walk_eq_visitEach visit root
  rwa [walk, walkWithin_withOwners, postorder_withOwners] at h

end Treelike

end Walk

section Calls

variable {σ : Type}

-- The calls of a visitor one after the other, each in the state that the one before it left. Only
-- the last can stop.
inductive Calls (visit : NodeId → StateM σ Control) : σ → List NodeId → Bool → σ → Prop where
  | Done (state : σ) : Calls visit state [] false state
  | Stops {state last : σ} {id : NodeId} (hstop : visit id state = (.Stop, last)) :
      Calls visit state [id] true last
  | Continues {state next last : σ} {id : NodeId} {rest : List NodeId} {stopped : Bool}
      (hcontinue : visit id state = (.Continue, next))
      (hrest : Calls visit next rest stopped last) :
      Calls visit state (id :: rest) stopped last

-- The same visitor, which also writes down where it has been.
def recording (visit : NodeId → StateM σ Control) (id : NodeId) :
    StateM (List NodeId × σ) Control :=
  fun (visited, state) =>
    let (control, next) := visit id state
    (control, (visited ++ [id], next))

-- Visiting one node after the other makes the calls on a front part of the list, which is all of
-- it where none of them stops. What was written down before stays.
theorem calls_visitEach (visit : NodeId → StateM σ Control) (ids : List NodeId) (state : σ) :
    ∃ visited stopped last,
      visited <+: ids ∧ (stopped = false → visited = ids) ∧
      Calls visit state visited stopped last ∧
      visitEach visit ids state = (stopped, last) ∧
      ∀ before, visitEach (recording visit) ids (before, state) =
        (stopped, (before ++ visited, last)) := by
  induction ids generalizing state with
  | nil =>
      refine ⟨[], false, state, List.prefix_refl _, fun _ => rfl, .Done state, rfl, ?_⟩
      intro before
      rw [List.append_nil]
      rfl
  | cons id rest ih =>
      rcases hvisit : visit id state with ⟨control, next⟩
      have hrecord : ∀ before,
          recording visit id (before, state) = (control, (before ++ [id], next)) := by
        intro before
        simp only [recording, hvisit]
      cases control with
      | Stop =>
          refine ⟨[id], true, next, ⟨rest, rfl⟩, nofun, .Stops hvisit, ?_, ?_⟩
          · simp only [visitEach, bind, StateT.bind, hvisit]
            rfl
          · intro before
            simp only [visitEach, bind, StateT.bind, hrecord]
            rfl
      | Continue =>
          obtain ⟨visited, stopped, last, hprefix, hall, hcalls, hrun, hlog⟩ := ih next
          refine ⟨id :: visited, stopped, last, List.prefix_cons_inj id |>.mpr hprefix, ?_,
            .Continues hvisit hcalls, ?_, ?_⟩
          · intro hgone
            rw [hall hgone]
          · simp only [visitEach, bind, StateT.bind, hvisit]
            exact hrun
          · intro before
            simp only [visitEach, bind, StateT.bind, hrecord]
            have hrest := hlog (before ++ [id])
            rwa [List.append_assoc, List.singleton_append] at hrest

end Calls

end Arena

section Effect

-- Two memos that lead to the same answers about the functions of a table.
def PurityMemo.Agrees (table : TypeTable) (memo other : PurityMemo) : Prop :=
  ∀ function, table.shape function.type = .Function function.signature →
    (table.purity function memo).1 = (table.purity function other).1

theorem PurityMemo.Agrees.symm {table : TypeTable} {memo other : PurityMemo}
    (h : memo.Agrees table other) : other.Agrees table memo :=
  fun function hfunction => (h function hfunction).symm

theorem PurityMemo.Agrees.trans {table : TypeTable} {memo other third : PurityMemo}
    (h : memo.Agrees table other) (h' : other.Agrees table third) : memo.Agrees table third :=
  fun function hfunction => (h function hfunction).trans (h' function hfunction)

-- What is remembered along with an answer is that answer, so no other answer changes.
theorem TypeTable.purity_agrees {table : TypeTable} {function : FunctionType}
    (hfunction : table.shape function.type = .Function function.signature) (memo : PurityMemo) :
    (table.purity function memo).2.Agrees table memo := by
  intro asked hasked
  unfold TypeTable.purity
  cases hfound : memo.find? function.type with
  | some purity => rfl
  | none =>
      simp only [PurityMemo.find?, PurityMemo.insert, List.lookup_cons] at hfound ⊢
      by_cases heq : asked.type = function.type
      · rw [heq] at hasked ⊢
        have hsame : function.signature = asked.signature :=
          Shape.Function.inj (hfunction.symm.trans hasked)
        simp only [beq_self_eq_true, hfound, hsame]
      · simp only [beq_false_of_ne heq]
        cases List.lookup asked.type memo.found <;> rfl

namespace Program

variable {program : Program} {memo other : PurityMemo}

theorem hasShallowEffect_of_agrees (hagree : memo.Agrees program.types other) (id : NodeId) :
    (program.hasShallowEffect id memo).1 = (program.hasShallowEffect id other).1 := by
  unfold hasShallowEffect
  cases program.arena.kind id with
  | Call callee arguments function =>
      simp only [callHasEffect]
      cases hcallee : (program.arena.type? callee).bind program.types.calleeFunction? with
      | none => rfl
      | some function =>
          obtain ⟨type, _, htype⟩ := Option.bind_eq_some_iff.mp hcallee
          have hpurity := hagree function (TypeTable.shape_of_calleeFunction? htype)
          let answer (purity : Purity) : Bool :=
            !(purity == .Strong && function.signature.promises.isNothrow)
          exact congrArg answer hpurity
  | _ => rfl

theorem hasShallowEffect_agrees (id : NodeId) (memo : PurityMemo) :
    (program.hasShallowEffect id memo).2.Agrees program.types memo := by
  unfold hasShallowEffect
  cases program.arena.kind id with
  | Call callee arguments function =>
      simp only [callHasEffect]
      cases hcallee : (program.arena.type? callee).bind program.types.calleeFunction? with
      | none => exact fun _ _ => rfl
      | some function =>
          obtain ⟨type, _, htype⟩ := Option.bind_eq_some_iff.mp hcallee
          exact TypeTable.purity_agrees (TypeTable.shape_of_calleeFunction? htype) memo
  | _ => exact fun _ _ => rfl

theorem stopAtEffect_run (id : NodeId) (memo : PurityMemo) :
    program.stopAtEffect id memo =
      (if (program.hasShallowEffect id memo).1 then .Stop else .Continue,
        (program.hasShallowEffect id memo).2) := by
  simp only [stopAtEffect, bind, StateT.bind]
  rcases program.hasShallowEffect id memo with ⟨answer, after⟩
  cases answer <;> rfl

theorem visitEach_stopAtEffect (ids : List NodeId) (hagree : other.Agrees program.types memo) :
    (Arena.visitEach program.stopAtEffect ids other).1 =
      ids.any fun id => (program.hasShallowEffect id memo).1 := by
  induction ids generalizing other with
  | nil => rfl
  | cons id rest ih =>
      have hanswer := hasShallowEffect_of_agrees hagree id
      have hafter : (program.hasShallowEffect id other).2.Agrees program.types memo :=
        (hasShallowEffect_agrees id other).trans hagree
      simp only [Arena.visitEach, bind, StateT.bind, stopAtEffect_run, List.any_cons, ← hanswer]
      cases (program.hasShallowEffect id other).1 with
      | true => rfl
      | false =>
          rw [Bool.false_or]
          exact ih hafter

end Program

end Effect

-- What the visitor is called on, in which states and with which end, for any visitor. The run of
-- the recording visitor tells that there are no other calls.
theorem Arena.Treelike.walk_is_postorder {arena : Arena} (trees : arena.Treelike) (root : NodeId) :
    (∀ id, arena.postorder id = (arena.operands id).flatMap arena.postorder ++ [id]) ∧
    (∀ id, id ∈ arena.postorder root ↔ arena.Below root id) ∧
    (arena.postorder root).Nodup ∧
    (∀ (σ : Type) (visit : NodeId → StateM σ Control) (state : σ),
      ∃ visited stopped last,
        visited <+: arena.postorder root ∧
        (stopped = false → visited = arena.postorder root) ∧
        Arena.Calls visit state visited stopped last ∧
        arena.walk visit root state = (stopped, last) ∧
        arena.walk (Arena.recording visit) root ([], state) = (stopped, (visited, last))) ∧
    ∀ (program : Program) (memo : PurityMemo), program.arena = arena →
      ((program.hasEffect root memo).1 = true ↔
        ∃ id, arena.Below root id ∧ (program.hasShallowEffect id memo).1 = true) := by
  refine ⟨trees.postorder_eq, fun _ => trees.mem_postorder_iff, trees.postorder_nodup root, ?_, ?_⟩
  · intro σ visit state
    obtain ⟨visited, stopped, last, hprefix, hall, hcalls, hrun, hlog⟩ :=
      Arena.calls_visitEach visit (arena.postorder root) state
    refine ⟨visited, stopped, last, hprefix, hall, hcalls, ?_, ?_⟩
    · rw [trees.walk_eq_visitEach]
      exact hrun
    · rw [trees.walk_eq_visitEach]
      exact hlog []
  · intro program memo harena
    subst harena
    rw [Program.hasEffect, trees.walk_eq_visitEach, Program.visitEach_stopAtEffect _ fun _ _ => rfl,
      List.any_eq_true]
    simp only [trees.mem_postorder_iff]

-- The sum of two numbers below a minus.
def negatedSum : Arena :=
  let node (kind : NodeKind) : Node := ⟨kind, none, Span.emptyAt 0⟩
  (((Arena.empty.add (node (.Integer 1))).2.add (node (.Integer 2))).2.add
    (node (.Binary .Add ⟨0⟩ ⟨1⟩))).2.add (node (.Unary .Negate ⟨2⟩)) |>.2

theorem wellFormed_negatedSum : negatedSum.WellFormed :=
  (((Arena.wellFormed_empty.add _ (by decide) (by decide)).add _ (by decide) (by decide)).add _
    (by decide) (by decide)).add _ (by decide) (by decide)

-- Counting the nodes up to the second number, one does not get to the sum.
theorem walk_negatedSum :
    negatedSum.Treelike ∧ negatedSum.postorder ⟨3⟩ = [⟨0⟩, ⟨1⟩, ⟨2⟩, ⟨3⟩] ∧
      Arena.Calls (fun id count => (if id = ⟨1⟩ then Control.Stop else .Continue, count + 1)) 0
        [⟨0⟩, ⟨1⟩] true 2 := by
  have trees := wellFormed_negatedSum.treelike
  obtain ⟨-, -, -, hwalk, -⟩ := trees.walk_is_postorder ⟨3⟩
  obtain ⟨visited, stopped, last, -, -, hcalls, -, hlog⟩ := hwalk Nat
    (fun id count => (if id = ⟨1⟩ then Control.Stop else .Continue, count + 1)) 0
  have hrun : negatedSum.walk (Arena.recording fun id count =>
      (if id = ⟨1⟩ then Control.Stop else .Continue, count + 1)) ⟨3⟩ ([], (0 : Nat)) =
      (true, ([⟨0⟩, ⟨1⟩], 2)) := by rfl
  rw [hrun] at hlog
  cases hlog
  exact ⟨trees, by decide +kernel, hcalls⟩

end EffectLint
