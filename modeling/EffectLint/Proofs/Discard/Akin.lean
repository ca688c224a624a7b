import EffectLint.Proofs.Discard.Refinement
import EffectLint.Proofs.Lowering.Alongside

/-!
Effects and verdicts of akin programs. All that a verdict rests on but the effects is the same, so where
a node that had an effect has one still, nothing is reported that was not reported before.
-/

namespace EffectLint

-- `weaker` promises no more than `promises` does.
structure Promises.Weakens (promises weaker : Promises) : Prop where
  isPure : weaker.isPure = true → promises.isPure = true
  isNothrow : weaker.isNothrow = true → promises.isNothrow = true

-- Whether a call of a function may have an effect, where some parameter of it is mutable or none is.
def Promises.allowsEffect (promises : Promises) (isMutable : Bool) : Bool :=
  !(promises.isPure && !isMutable && promises.isNothrow)

theorem Promises.Weakens.allowsEffect {promises weaker : Promises} (h : promises.Weakens weaker)
    {isMutable : Bool} (heffect : promises.allowsEffect isMutable = true) :
    weaker.allowsEffect isMutable = true := by
  have hpure := h.isPure
  have hnothrow := h.isNothrow
  unfold Promises.allowsEffect at heffect ⊢
  revert heffect hpure hnothrow
  cases promises.isPure <;> cases weaker.isPure <;> cases promises.isNothrow <;>
    cases weaker.isNothrow <;> simp

namespace Arena

variable {arena arena' : Arena}

theorem postorder_eq_of_operands (h : ∀ id, arena.operands id = arena'.operands id) (id : NodeId) :
    arena.postorder id = arena'.postorder id := by
  have hwithin : ∀ depth id, arena.postorderWithin depth id = arena'.postorderWithin depth id := by
    intro depth
    induction depth with
    | zero => exact fun _ => rfl
    | succ depth ih =>
        intro id
        rw [postorderWithin, postorderWithin, h id, funext ih]
  exact hwithin _ id

end Arena

namespace Program

variable {promises : Promises → Promises → Prop} {program program' : Program}

-- The nodes are the same but for their types, and the same of those are void.
def SameOutline (program program' : Program) : Prop :=
  ∀ id, (program.arena.node id).Akin
    (fun type type' => program.types.isVoid type = program'.types.isVoid type') (program'.arena.node id)

theorem SameOutline.symm (h : program.SameOutline program') : program'.SameOutline program :=
  fun id => (h id).symm fun _ _ => Eq.symm

theorem Akin.sameOutline (h : program.Akin promises program') : program.SameOutline program' :=
  fun id => (h.node id).mono fun _ _ htype => htype.isVoid_eq h.closed h.closed'

-- The node that a chain of commas starts with, by the kind of the node that it ends with.
theorem leftmost_of_kind (wf : program.arena.WellFormed) {id : NodeId} {kind : NodeKind} :
    program.arena.kind id = kind → program.leftmost wf id =
      match kind with
      | .Comma first _ => program.leftmost wf first
      | _ => id := by
  rintro rfl
  rw [leftmost]
  split <;> simp_all

namespace SameOutline

theorem operands_eq (h : program.SameOutline program') (id : NodeId) :
    program.arena.operands id = program'.arena.operands id :=
  (h id).kind.operands_eq

theorem leftmost_eq (h : program.SameOutline program') (wf : program.arena.WellFormed)
    (wf' : program'.arena.WellFormed) (id : NodeId) :
    program.leftmost wf id = program'.leftmost wf' id := by
  induction hindex : id.index using Nat.strongRecOn generalizing id with
  | ind index ih =>
      subst hindex
      have hleft := @leftmost_of_kind program wf id
      have hright := @leftmost_of_kind program' wf' id
      have hkind : (program.arena.kind id).Akin _ (program'.arena.kind id) := (h id).kind
      have hlt : ∀ operand ∈ (program.arena.kind id).operands, operand.index < id.index :=
        fun operand => wf.operand_lt
      generalize program.arena.kind id = kind at hleft hkind hlt
      generalize program'.arena.kind id = kind' at hright hkind
      rw [hleft rfl, hright rfl]
      cases hkind with
      | New => rfl
      | Cast => rfl
      | Same =>
          cases kind with
          | Comma first second => exact ih _ (hlt first (by simp [NodeKind.operands])) first rfl
          | _ => rfl

theorem isTemporary_eq (h : program.SameOutline program') (wf : program.arena.WellFormed)
    (wf' : program'.arena.WellFormed) (first second : NodeId) :
    program.isTemporary wf first second = program'.isTemporary wf' first second := by
  have hfirst : (program.arena.kind (program.leftmost wf first)).Akin _
      (program'.arena.kind (program.leftmost wf first)) := (h _).kind
  have hsecond : (program.arena.kind second).Akin _ (program'.arena.kind second) := (h _).kind
  rw [isTemporary, isTemporary, ← h.leftmost_eq wf wf' first]
  generalize program.arena.kind (program.leftmost wf first) = kind at hfirst ⊢
  generalize program'.arena.kind (program.leftmost wf first) = kind' at hfirst ⊢
  generalize program.arena.kind second = other at hsecond ⊢
  generalize program'.arena.kind second = other' at hsecond ⊢
  cases hfirst with
  | New => rfl
  | Cast => rfl
  | Same => cases kind <;> cases hsecond <;> rfl

-- What is reported about a node is reported where the node stands.
theorem places_eq (h : program.SameOutline program') {id : NodeId} {diagnostic diagnostic' : Diagnostic}
    {kind : DiagnosticKind} (hplace : diagnostic.place = (kind, kind.severity, (program.arena.node id).span))
    (hplace' : diagnostic'.place = (kind, kind.severity, (program'.arena.node id).span)) :
    Diagnostics.places [diagnostic'] = Diagnostics.places [diagnostic] := by
  rw [Diagnostics.places, Diagnostics.places, List.map_singleton, List.map_singleton, hplace, hplace',
    (h id).span]

-- Where each effect of the one program is one of the other, the other program has no more verdicts.
theorem verdict_sublist (h : program.SameOutline program') (wf : program.arena.WellFormed)
    (wf' : program'.arena.WellFormed) (warns : Bool)
    (heffects : ∀ id, program.isEffectful id = true → program'.isEffectful id = true) (id : NodeId) :
    (Diagnostics.places (program'.verdict wf' warns id)).Sublist
      (Diagnostics.places (program.verdict wf warns id)) := by
  induction hindex : id.index using Nat.strongRecOn generalizing id with
  | ind index ih =>
      subst hindex
      cases heffect' : program'.isEffectful id with
      | true =>
          rw [verdict, if_pos heffect']
          exact List.nil_sublist _
      | false =>
          have heffect : program.isEffectful id = false := by
            rw [← Bool.not_eq_true]
            exact fun htrue => absurd (heffects id htrue) (by simp [heffect'])
          have hleft := fun {kind} => @verdict_of_kind program wf warns id kind heffect
          have hright := fun {kind} => @verdict_of_kind program' wf' warns id kind heffect'
          have hkind : (program.arena.kind id).Akin _ (program'.arena.kind id) := (h id).kind
          have hlt : ∀ operand ∈ (program.arena.kind id).operands, operand.index < id.index :=
            fun operand => wf.operand_lt
          have hone : (Diagnostics.places [program'.withoutEffect id]).Sublist
              (Diagnostics.places [program.withoutEffect id]) := by
            rw [@places_eq _ _ h id (program.withoutEffect id) _ .NoEffect rfl rfl]
          generalize program.arena.kind id = kind at hleft hkind hlt
          generalize program'.arena.kind id = kind' at hright hkind
          rw [hleft rfl, hright rfl]
          cases hkind with
          | New => exact hone
          | Cast hvoid =>
              dsimp only
              rw [hvoid]
              split
              · exact .refl _
              · exact hone
          | Same hnone =>
              cases kind with
              | New | Cast => cases hnone
              | Error => exact .refl _
              | Call callee arguments function =>
                  have htype : Option.Rel _ (program.arena.type? id) (program'.arena.type? id) :=
                    (h id).type
                  dsimp only
                  generalize program.arena.type? id = type at htype ⊢
                  generalize program'.arena.type? id = type' at htype ⊢
                  cases htype with
                  | none => exact .refl _
                  | @some result result' hvoid =>
                      dsimp only
                      rw [hvoid]
                      split
                      · rw [@places_eq _ _ h id (program.discardedCall id callee function result) _
                          .DiscardedPureCall rfl rfl]
                      · exact .refl _
              | Module module =>
                  dsimp only
                  rw [@places_eq _ _ h id (program.moduleWithoutEffect id module) _ .ModuleHasNoEffect rfl
                    rfl]
              | Logical op left right => exact ih _ (hlt right (by simp [NodeKind.operands])) right rfl
              | Conditional condition yes no =>
                  simp only [Diagnostics.places, List.map_append]
                  exact (ih _ (hlt yes (by simp [NodeKind.operands])) yes rfl).append
                    (ih _ (hlt no (by simp [NodeKind.operands])) no rfl)
              | Comma first second =>
                  dsimp only
                  rw [h.isTemporary_eq wf wf']
                  split
                  · exact .refl _
                  · exact ih _ (hlt second (by simp [NodeKind.operands])) second rfl
              | Tuple elements =>
                  have hnodes := Arena.postorder_eq_of_operands h.operands_eq id
                  dsimp only
                  rw [hnodes]
                  split
                  · exact List.nil_sublist _
                  · next hnot =>
                    have hany : ¬(program'.arena.postorder id).any program.isEffectful = true := by
                      rw [List.any_eq_true] at hnot ⊢
                      rintro ⟨inner, hmem, hinner⟩
                      exact hnot ⟨inner, hmem, heffects inner hinner⟩
                    rw [if_neg hany]
                    exact hone
              | _ => exact hone

theorem verdicts_sublist (h : program.SameOutline program') (wf : program.arena.WellFormed)
    (wf' : program'.arena.WellFormed) (hbodies : program.bodies = program'.bodies) (warns : Bool)
    (heffects : ∀ id, program.isEffectful id = true → program'.isEffectful id = true) :
    (Diagnostics.places (program'.verdicts wf' warns)).Sublist
      (Diagnostics.places (program.verdicts wf warns)) := by
  have hdiscards : program'.discards = program.discards := by rw [discards, discards, hbodies]
  simp only [verdicts, Diagnostics.places, List.map_flatMap, hdiscards]
  induction program.discards with
  | nil => exact List.nil_sublist _
  | cons first rest ih =>
      rw [List.flatMap_cons, List.flatMap_cons]
      exact (h.verdict_sublist wf wf' warns heffects first.value).append ih

theorem verdicts_eq (h : program.SameOutline program') (wf : program.arena.WellFormed)
    (wf' : program'.arena.WellFormed) (hbodies : program.bodies = program'.bodies) (warns : Bool)
    (heffects : ∀ id, program.isEffectful id = program'.isEffectful id) :
    Diagnostics.places (program.verdicts wf warns) = Diagnostics.places (program'.verdicts wf' warns) :=
  (h.symm.verdicts_sublist wf' wf hbodies.symm warns fun id heffect =>
    (heffects id).trans heffect).antisymm
      (h.verdicts_sublist wf wf' hbodies warns fun id heffect => (heffects id).symm.trans heffect)

end SameOutline

theorem Akin.castHasEffect_eq (h : program.Akin promises program') {type type' : TypeId}
    (htype : TypeTable.Akin promises program.types program'.types type type') (operand : NodeId) :
    program.castHasEffect type operand = program'.castHasEffect type' operand := by
  have hkind : (program.arena.kind operand).Akin _ (program'.arena.kind operand) := (h.node _).kind
  have hresult : Option.Rel _ (program.arena.type? operand) (program'.arena.type? operand) :=
    (h.node operand).type
  have hclass : (program.arena.type? operand).any program.types.isClass =
      (program'.arena.type? operand).any program'.types.isClass := by
    generalize program.arena.type? operand = found at hresult ⊢
    generalize program'.arena.type? operand = found' at hresult ⊢
    cases hresult with
    | none => rfl
    | some hresult => exact hresult.isClass_eq
  rw [castHasEffect, castHasEffect, hclass, htype.isClass_eq]
  generalize program.arena.kind operand = kind at hkind ⊢
  generalize program'.arena.kind operand = kind' at hkind ⊢
  cases hkind <;> rfl

-- Effects of akin programs are related as those are that akin functions may have.
section Effects

variable {related : Bool → Bool → Prop} (hrefl : ∀ effect, related effect effect)
  (hpromises : ∀ promised promised' isMutable, promises promised promised' →
    related (promised.allowsEffect isMutable) (promised'.allowsEffect isMutable))

include hrefl hpromises

theorem Akin.isEffectfulCall_related (h : program.Akin promises program') {type type' : Option TypeId}
    (htype : Option.Rel (TypeTable.Akin promises program.types program'.types) type type') :
    related (program.isEffectfulCall type) (program'.isEffectfulCall type') := by
  have hcallee := rel_bind htype fun _ _ htype => htype.calleeFunction?
  unfold Program.isEffectfulCall
  generalize type.bind program.types.calleeFunction? = found at hcallee ⊢
  generalize type'.bind program'.types.calleeFunction? = found' at hcallee ⊢
  cases hcallee with
  | none => exact hrefl true
  | @some function function' hsignature =>
      have hparameters := TypeTable.Akin.any_isMutable_eq h.closed h.closed' hsignature
      have hrelated := hpromises _ _ (function.signature.parameters.any
        (ParameterType.isMutable program.types)) hsignature.promises
      simp only [Signature.purity_eq_strong, ← hparameters]
      exact hrelated

theorem Akin.isEffectful_related (h : program.Akin promises program') (id : NodeId) :
    related (program.isEffectful id) (program'.isEffectful id) := by
  have hkind : (program.arena.kind id).Akin _ (program'.arena.kind id) := (h.node id).kind
  unfold Program.isEffectful
  generalize program.arena.kind id = kind at hkind ⊢
  generalize program'.arena.kind id = kind' at hkind ⊢
  cases hkind with
  | New => exact hrefl true
  | Cast htype =>
      dsimp only
      rw [h.castHasEffect_eq htype]
      exact hrefl _
  | Same hnone =>
      cases kind with
      | New | Cast => cases hnone
      | Call callee arguments function =>
          exact h.isEffectfulCall_related hrefl hpromises (h.node callee).type
      | _ => exact hrefl _

end Effects

theorem Akin.isEffectful (h : program.Akin promises program')
    (hweakens : ∀ promised weaker, promises promised weaker → promised.Weakens weaker) (id : NodeId) :
    program.isEffectful id = true → program'.isEffectful id = true := by
  let related (effect effect' : Bool) : Prop := effect = true → effect' = true
  have hrefl : ∀ effect, related effect effect := fun _ heffect => heffect
  exact h.isEffectful_related hrefl (fun _ _ _ hpromises => (hweakens _ _ hpromises).allowsEffect) id

theorem Akin.isEffectful_eq (h : program.Akin Eq program') (id : NodeId) :
    program.isEffectful id = program'.isEffectful id := by
  refine h.isEffectful_related (fun _ => rfl) ?_ id
  rintro promised _ _ rfl
  rfl

end Program

end EffectLint
