import EffectLint.Effect.Shallow
import EffectLint.Proofs.Arena.Forest
import Mathlib.Algebra.Ring.Nat

/-!
Effects as the declared types tell them. A walk visits the nodes of a tree in postorder until the
visitor stops it. Remembering how pure a function is never changes an answer, so a question about
effects has the answer worked out from scratch.
-/

namespace EffectLint

namespace Arena

variable {σ : Type}

-- Visit one node after the other, up to the first at which the visitor stops.
def visitEach (visit : NodeId → StateM σ Control) : List NodeId → StateM σ Bool
  | [] => pure false
  | id :: rest => do
      match ← visit id with
      | .Stop => return true
      | .Continue => visitEach visit rest

-- The nodes that are still to be visited, and the steps which that takes.
def Pending.nodes (arena : Arena) : Pending → List NodeId
  | .Enter id => arena.postorder id
  | .Visit id => [id]

def Pending.steps (arena : Arena) : Pending → Nat
  | .Enter id => 2 * (arena.postorder id).length
  | .Visit _ => 1

theorem WellFormed.nodes_enter {arena : Arena} (wf : arena.WellFormed) (id : NodeId)
    (rest : List Pending) :
    ((arena.operands id).map Pending.Enter ++ Pending.Visit id :: rest).flatMap (Pending.nodes arena) =
      (Pending.Enter id :: rest).flatMap (Pending.nodes arena) := by
  simp only [List.flatMap_append, List.flatMap_map, List.flatMap_cons, Pending.nodes,
    wf.postorder_eq id, List.append_assoc]

theorem WellFormed.steps_enter {arena : Arena} (wf : arena.WellFormed) (id : NodeId)
    (rest : List Pending) :
    (((arena.operands id).map Pending.Enter ++ Pending.Visit id :: rest).map (Pending.steps arena)).sum + 1 =
      ((Pending.Enter id :: rest).map (Pending.steps arena)).sum := by
  have hoperands : ∀ ids : List NodeId,
      ((ids.map Pending.Enter).map (Pending.steps arena)).sum =
        2 * (ids.flatMap arena.postorder).length := by
    intro ids
    induction ids with
    | nil => rfl
    | cons id ids ih =>
        simp only [List.map_cons, List.sum_cons, ih, Pending.steps, List.flatMap_cons,
          List.length_append]
        omega
  simp only [List.map_append, List.sum_append, hoperands, List.map_cons, List.sum_cons,
    Pending.steps, wf.postorder_eq id, List.length_append, List.length_singleton]
  omega

theorem WellFormed.walkWithin_eq {arena : Arena} (wf : arena.WellFormed)
    (visit : NodeId → StateM σ Control) (steps : Nat) (pending : List Pending)
    (hsteps : (pending.map (Pending.steps arena)).sum ≤ steps) :
    arena.walkWithin visit steps pending =
      visitEach visit (pending.flatMap (Pending.nodes arena)) := by
  induction steps generalizing pending with
  | zero =>
      cases pending with
      | nil => rfl
      | cons first rest =>
          simp only [List.map_cons, List.sum_cons] at hsteps
          cases first with
          | Enter id =>
              simp only [Pending.steps, wf.postorder_eq id, List.length_append,
                List.length_singleton] at hsteps
              omega
          | Visit id =>
              simp only [Pending.steps] at hsteps
              omega
  | succ steps ih =>
      cases pending with
      | nil => rfl
      | cons first rest =>
          cases first with
          | Enter id =>
              have hsum := wf.steps_enter id rest
              rw [walkWithin, ih _ (by omega), wf.nodes_enter]
          | Visit id =>
              have hrest : (rest.map (Pending.steps arena)).sum ≤ steps := by
                simp only [List.map_cons, List.sum_cons, Pending.steps] at hsteps
                omega
              rw [List.flatMap_cons, Pending.nodes, List.singleton_append, visitEach, ← ih rest hrest]
              rfl

theorem WellFormed.walk_eq_visitEach {arena : Arena} (wf : arena.WellFormed)
    (visit : NodeId → StateM σ Control) (root : NodeId) :
    arena.walk visit root = visitEach visit (arena.postorder root) := by
  have hlength := wf.length_postorder_le root
  have hsteps : ([Pending.Enter root].map (Pending.steps arena)).sum ≤ walkSteps root := by
    simp only [List.map_cons, List.map_nil, List.sum_cons, List.sum_nil, Pending.steps, walkSteps]
    omega
  rw [walk, wf.walkWithin_eq visit _ _ hsteps]
  simp only [List.flatMap_cons, List.flatMap_nil, Pending.nodes, List.append_nil]

end Arena

-- Every answer remembered is the one that the type itself gives.
def PurityMemo.Sound (memo : PurityMemo) (table : TypeTable) : Prop :=
  ∀ type purity signature, memo.find? type = some purity →
    table.shape type = .Function signature → purity = signature.purity table

theorem PurityMemo.sound_empty (table : TypeTable) : PurityMemo.empty.Sound table := by
  intro type purity signature hfound
  cases hfound

theorem PurityMemo.Sound.insert {memo : PurityMemo} {table : TypeTable} (hmemo : memo.Sound table)
    {type : TypeId} {signature : Signature} (htype : table.shape type = .Function signature) :
    (memo.insert type (signature.purity table)).Sound table := by
  intro other purity otherSignature hfound hshape
  simp only [PurityMemo.find?, PurityMemo.insert, List.lookup_cons] at hfound
  split at hfound
  · next heq =>
    rw [eq_of_beq heq, htype] at hshape
    cases hshape
    exact (Option.some.inj hfound).symm
  · exact hmemo other purity otherSignature hfound hshape

-- A question whose answer does not depend on what is remembered, and which remembers only
-- what is right.
def Remembering.Answers {α : Type} (table : TypeTable) (question : Remembering α) (answer : α) :
    Prop :=
  ∀ memo, memo.Sound table → (question memo).1 = answer ∧ (question memo).2.Sound table

theorem Remembering.Answers.pure {α : Type} {table : TypeTable} (answer : α) :
    Remembering.Answers table (Pure.pure answer) answer := by
  intro memo hmemo
  exact ⟨rfl, hmemo⟩

theorem Remembering.Answers.bind {α β : Type} {table : TypeTable} {question : Remembering α}
    {next : α → Remembering β} {first : α} {second : β} (hfirst : Answers table question first)
    (hsecond : Answers table (next first) second) : Answers table (question >>= next) second := by
  intro memo hmemo
  obtain ⟨hanswer, hafter⟩ := hfirst memo hmemo
  rw [← hanswer] at hsecond
  exact hsecond _ hafter

namespace TypeTable

theorem shape_of_function? {table : TypeTable} {type : TypeId} {function : FunctionType}
    (h : table.function? type = some function) :
    table.shape function.type = .Function function.signature := by
  unfold function? at h
  split at h
  · next hshape =>
    cases h
    exact hshape
  · cases h

theorem shape_of_calleeFunction? {table : TypeTable} {type : TypeId} {function : FunctionType}
    (h : table.calleeFunction? type = some function) :
    table.shape function.type = .Function function.signature := by
  unfold calleeFunction? at h
  split at h <;> exact shape_of_function? h

theorem answers_purity {table : TypeTable} {function : FunctionType}
    (hfunction : table.shape function.type = .Function function.signature) :
    Remembering.Answers table (table.purity function) (function.signature.purity table) := by
  intro memo hmemo
  unfold purity
  split
  · next purity hfound => exact ⟨hmemo _ purity _ hfound hfunction, hmemo⟩
  · exact ⟨rfl, hmemo.insert hfunction⟩

end TypeTable

namespace Program

variable (program : Program)

-- Whether a call through a callee of the type has an effect.
def isEffectfulCall (callee : Option TypeId) : Bool :=
  match callee.bind program.types.calleeFunction? with
  | none => true
  | some function =>
      !(function.signature.purity program.types == .Strong && function.signature.promises.isNothrow)

-- Whether evaluating the node has an effect beyond that of its operands, from scratch.
def isEffectful (id : NodeId) : Bool :=
  match program.arena.kind id with
  | .Assign _ _ _ | .Step _ _ _ | .Declare _ _ | .In _ _ | .Remove _ _ | .Assert _ _ | .Halt
  | .Delete _ | .New _ | .NewAnonymous => true
  | .Call callee _ _ => program.isEffectfulCall (program.arena.type? callee)
  | .Cast type operand => program.castHasEffect type operand
  | _ => false

variable {program}

theorem answers_callHasEffect (callee : Option TypeId) :
    Remembering.Answers program.types (program.callHasEffect callee)
      (program.isEffectfulCall callee) := by
  unfold callHasEffect isEffectfulCall
  cases hcallee : callee.bind program.types.calleeFunction? with
  | none => exact .pure true
  | some function =>
      obtain ⟨type, _, htype⟩ := Option.bind_eq_some_iff.mp hcallee
      exact (TypeTable.answers_purity (TypeTable.shape_of_calleeFunction? htype)).bind (.pure _)

theorem answers_hasShallowEffect (id : NodeId) :
    Remembering.Answers program.types (program.hasShallowEffect id) (program.isEffectful id) := by
  unfold hasShallowEffect isEffectful
  cases program.arena.kind id with
  | Call callee arguments function => exact answers_callHasEffect _
  | _ => exact .pure _

theorem answers_visitEach (ids : List NodeId) :
    Remembering.Answers program.types (Arena.visitEach program.stopAtEffect ids)
      (ids.any program.isEffectful) := by
  induction ids with
  | nil => exact .pure false
  | cons id rest ih =>
      rw [Arena.visitEach, List.any_cons]
      refine Remembering.Answers.bind ((answers_hasShallowEffect id).bind (.pure _)) ?_
      cases program.isEffectful id with
      | true => exact .pure true
      | false => exact ih

theorem answers_hasEffect (wf : program.arena.WellFormed) (root : NodeId) :
    Remembering.Answers program.types (program.hasEffect root)
      ((program.arena.postorder root).any program.isEffectful) := by
  rw [hasEffect, wf.walk_eq_visitEach]
  exact answers_visitEach _

end Program

end EffectLint
