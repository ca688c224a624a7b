import EffectLint.Proofs.Type.Growth
import Mathlib.Data.List.Forall2

/-!
Types of two tables that come to the same. With every alias followed, at every depth, they have the
same form, and the promises of functions are related in a given way. The numbers that the tables gave
to the types need not agree.
-/

namespace EffectLint

section Shapes

variable {promises : Promises → Promises → Prop} {akin akin' : TypeId → TypeId → Prop}

structure ParameterType.Akin (akin : TypeId → TypeId → Prop)
    (parameter parameter' : ParameterType) : Prop where
  isRef : parameter.isRef = parameter'.isRef
  type : akin parameter.type parameter'.type

structure Signature.Akin (promises : Promises → Promises → Prop) (akin : TypeId → TypeId → Prop)
    (signature signature' : Signature) : Prop where
  parameters : List.Forall₂ (ParameterType.Akin akin) signature.parameters signature'.parameters
  result : akin signature.result signature'.result
  promises : promises signature.promises signature'.promises

-- Shapes of the same form with related parts. An alias is no form of its own.
inductive Shape.Akin (promises : Promises → Promises → Prop) (akin : TypeId → TypeId → Prop) :
    Shape → Shape → Prop where
  | Basic (type : BasicType) : Akin promises akin (.Basic type) (.Basic type)
  | Null : Akin promises akin .Null .Null
  | Error : Akin promises akin .Error .Error
  | Class (name : Symbol) : Akin promises akin (.Class name) (.Class name)
  | Pointer {target target'} : akin target target' →
      Akin promises akin (.Pointer target) (.Pointer target')
  | Array {element element'} : akin element element' →
      Akin promises akin (.Array element) (.Array element')
  | AssocArray {key key' value value'} : akin key key' → akin value value' →
      Akin promises akin (.AssocArray key value) (.AssocArray key' value')
  | Function {signature signature'} : Signature.Akin promises akin signature signature' →
      Akin promises akin (.Function signature) (.Function signature')
  | Delegate {function function'} : akin function function' →
      Akin promises akin (.Delegate function) (.Delegate function')
  | Tuple {elements elements'} : List.Forall₂ akin elements elements' →
      Akin promises akin (.Tuple elements) (.Tuple elements')

theorem Signature.Akin.mono (hakin : ∀ type type', akin type type' → akin' type type')
    {signature signature' : Signature} (h : signature.Akin promises akin signature') :
    signature.Akin promises akin' signature' where
  parameters := h.parameters.imp fun _ _ hparameter => ⟨hparameter.isRef, hakin _ _ hparameter.type⟩
  result := hakin _ _ h.result
  promises := h.promises

namespace Shape.Akin

variable {shape shape' : Shape}

theorem mono (hakin : ∀ type type', akin type type' → akin' type type')
    (h : shape.Akin promises akin shape') : shape.Akin promises akin' shape' := by
  cases h with
  | Basic type => exact .Basic type
  | Null => exact .Null
  | Error => exact .Error
  | Class name => exact .Class name
  | Pointer htarget => exact .Pointer (hakin _ _ htarget)
  | Array helement => exact .Array (hakin _ _ helement)
  | AssocArray hkey hvalue => exact .AssocArray (hakin _ _ hkey) (hakin _ _ hvalue)
  | Function hsignature => exact .Function (hsignature.mono hakin)
  | Delegate hfunction => exact .Delegate (hakin _ _ hfunction)
  | Tuple helements => exact .Tuple (helements.imp hakin)

theorem refl (hpromises : ∀ promised, promises promised promised)
    (halias : ∀ name target, shape ≠ .Alias name target) (hparts : ∀ part ∈ shape.parts, akin part part) :
    shape.Akin promises akin shape := by
  cases shape with
  | Basic type => exact .Basic type
  | Null => exact .Null
  | Error => exact .Error
  | Class name => exact .Class name
  | Alias name target => exact absurd rfl (halias name target)
  | Pointer target => exact .Pointer (hparts _ (by simp [parts]))
  | Array element => exact .Array (hparts _ (by simp [parts]))
  | AssocArray key value => exact .AssocArray (hparts _ (by simp [parts])) (hparts _ (by simp [parts]))
  | Function signature =>
      refine .Function ⟨List.forall₂_same.mpr fun parameter hmem => ⟨rfl, hparts _ ?_⟩,
        hparts _ (by simp [parts]), hpromises _⟩
      exact List.mem_cons_of_mem _ (List.mem_map_of_mem hmem)
  | Delegate function => exact .Delegate (hparts _ (by simp [parts]))
  | Tuple elements => exact .Tuple (List.forall₂_same.mpr hparts)

theorem ne_Alias (h : shape.Akin promises akin shape') :
    (∀ name target, shape ≠ .Alias name target) ∧ ∀ name target, shape' ≠ .Alias name target := by
  cases h <;> simp

-- What holds of all related types holds of the parts.
theorem forall_parts {good good' : TypeId → Prop}
    (hgood : ∀ type type', akin type type' → good type ∧ good' type')
    (h : shape.Akin promises akin shape') :
    (∀ part ∈ shape.parts, good part) ∧ ∀ part ∈ shape'.parts, good' part := by
  have hlist : ∀ {types types'}, List.Forall₂ akin types types' →
      (∀ part ∈ types, good part) ∧ ∀ part ∈ types', good' part := by
    intro types types' htypes
    induction htypes with
    | nil => simp
    | cons hfirst _ ih =>
        simp only [List.forall_mem_cons]
        exact ⟨⟨(hgood _ _ hfirst).1, ih.1⟩, (hgood _ _ hfirst).2, ih.2⟩
  cases h with
  | Basic | Null | Error | Class => exact hlist .nil
  | Pointer hpart | Array hpart | Delegate hpart => exact hlist (.cons hpart .nil)
  | AssocArray hkey hvalue => exact hlist (.cons hkey (.cons hvalue .nil))
  | Tuple helements => exact hlist helements
  | Function hsignature =>
      refine hlist (.cons hsignature.result ?_)
      rw [List.forall₂_map_left_iff, List.forall₂_map_right_iff]
      exact hsignature.parameters.imp fun _ _ hparameter => hparameter.type

end Shape.Akin

end Shapes

namespace TypeTable

variable {promises : Promises → Promises → Prop} {table table' : TypeTable} {type type' : TypeId}
  {shape shape' : Shape}

theorem resolveWithin_of_ne (h : ∀ name target, table.shape type ≠ .Alias name target) (steps : Nat) :
    table.resolveWithin steps type = type := by
  cases steps with
  | zero => rfl
  | succ steps =>
      rw [resolveWithin]
      split
      · next name target hshape => exact absurd hshape (h name target)
      · rfl

-- Following aliases comes to an end within the steps that the number of a type allows.
theorem Closed.resolveWithin_eq (hclosed : table.Closed) (hknown : table.Known type) (steps : Nat)
    (hsteps : type.index < steps) : table.resolveWithin steps type = table.resolve type ∧
      ∀ name target, table.resolvedShape type ≠ .Alias name target := by
  induction hindex : type.index using Nat.strongRecOn generalizing type steps with
  | ind index ih =>
      subst hindex
      by_cases halias : ∃ name target, table.shape? type = some (.Alias name target)
      · obtain ⟨name, target, hshape⟩ := halias
        have hfollow : ∀ steps, table.resolveWithin (steps + 1) type = table.resolveWithin steps target :=
          fun steps => by rw [TypeTable.resolveWithin, TypeTable.shape_eq hshape]
        have hlt : target.index < type.index :=
          hclosed.older type _ hshape target List.mem_cons_self
        have hpart : table.Known target := hclosed.part_known hshape List.mem_cons_self
        obtain ⟨steps, rfl⟩ : ∃ more, steps = more + 1 := ⟨steps - 1, by omega⟩
        obtain ⟨hlong, _⟩ := ih _ hlt hpart steps (by omega) rfl
        obtain ⟨hshort, hfinal⟩ := ih _ hlt hpart type.index hlt rfl
        rw [resolvedShape, resolve, hfollow, hfollow, hlong, hshort]
        exact ⟨rfl, hfinal⟩
      · have hfinal : ∀ name target, table.shape type ≠ .Alias name target := by
          obtain ⟨shape, hshape⟩ := hknown
          rintro name target heq
          rw [TypeTable.shape_eq hshape] at heq
          exact halias ⟨name, target, heq ▸ hshape⟩
        rw [resolvedShape, resolve, resolveWithin_of_ne hfinal, resolveWithin_of_ne hfinal]
        exact ⟨rfl, hfinal⟩

theorem Closed.resolve_Alias (hclosed : table.Closed) {name : Symbol} {target : TypeId}
    (h : table.shape? type = some (.Alias name target)) :
    table.resolve type = table.resolve target := by
  have hpart : table.Known target := hclosed.part_known h List.mem_cons_self
  have hlt : target.index < type.index := hclosed.older type _ h target List.mem_cons_self
  rw [resolve, TypeTable.resolveWithin, TypeTable.shape_eq h]
  exact (hclosed.resolveWithin_eq hpart _ hlt).1

theorem resolve_of_shape? (h : table.shape? type = some shape)
    (hshape : ∀ name target, shape ≠ .Alias name target) : table.resolve type = type :=
  resolveWithin_of_ne (fun name target => by
    rw [TypeTable.shape_eq h]
    exact hshape name target) _

theorem resolvedShape_of_shape? (h : table.shape? type = some shape)
    (hshape : ∀ name target, shape ≠ .Alias name target) : table.resolvedShape type = shape := by
  rw [resolvedShape, resolve_of_shape? h hshape, TypeTable.shape_eq h]

theorem Closed.eq_null_iff (hclosed : table.Closed) (h : table.shape? type = some shape) :
    type = .null ↔ shape = .Null := by
  have hnull := hclosed.builtin shape?_null
  constructor
  · rintro rfl
    exact Option.some.inj (h.symm.trans hnull)
  · rintro rfl
    exact eq_of_shape? h hnull

theorem Closed.eq_error_iff (hclosed : table.Closed) (h : table.shape? type = some shape) :
    type = .error ↔ shape = .Error := by
  have herror := hclosed.builtin shape?_error
  constructor
  · rintro rfl
    exact Option.some.inj (h.symm.trans herror)
  · rintro rfl
    exact eq_of_shape? h herror

-- Related types are known and of the same form, and so are their parts. An alias is told from its
-- target only where that is the type of `null` or the error type.
structure Bisimulation (promises : Promises → Promises → Prop) (table table' : TypeTable)
    (akin : TypeId → TypeId → Prop) : Prop where
  known : ∀ type type', akin type type' → table.Known type ∧ table'.Known type'
  null : ∀ type type', akin type type' → (type = .null ↔ type' = .null)
  error : ∀ type type', akin type type' → (type = .error ↔ type' = .error)
  shapes : ∀ type type', akin type type' →
    Shape.Akin promises akin (table.resolvedShape type) (table'.resolvedShape type')

def Akin (promises : Promises → Promises → Prop) (table table' : TypeTable) (type type' : TypeId) :
    Prop :=
  ∃ akin, Bisimulation promises table table' akin ∧ akin type type'

-- Types are akin where their shapes are, and akin types have such shapes.
theorem bisimulation_akin (promises : Promises → Promises → Prop) (table table' : TypeTable) :
    Bisimulation promises table table' (Akin promises table table') where
  known := fun _ _ ⟨_, hall, h⟩ => hall.known _ _ h
  null := fun _ _ ⟨_, hall, h⟩ => hall.null _ _ h
  error := fun _ _ ⟨_, hall, h⟩ => hall.error _ _ h
  shapes := fun _ _ ⟨_, hall, h⟩ => (hall.shapes _ _ h).mono fun _ _ hpart => ⟨_, hall, hpart⟩

namespace Akin

theorem known (h : Akin promises table table' type type') : table.Known type ∧ table'.Known type' :=
  (bisimulation_akin promises table table').known _ _ h

theorem eq_null_iff (h : Akin promises table table' type type') : type = .null ↔ type' = .null :=
  (bisimulation_akin promises table table').null _ _ h

theorem eq_error_iff (h : Akin promises table table' type type') : type = .error ↔ type' = .error :=
  (bisimulation_akin promises table table').error _ _ h

theorem shapes (h : Akin promises table table' type type') :
    Shape.Akin promises (Akin promises table table') (table.resolvedShape type)
      (table'.resolvedShape type') :=
  (bisimulation_akin promises table table').shapes _ _ h

theorem exists_shapes (h : Akin promises table table' type type') : ∃ shape shape',
    table.resolvedShape type = shape ∧ table'.resolvedShape type' = shape' ∧
      Shape.Akin promises (Akin promises table table') shape shape' :=
  ⟨_, _, rfl, rfl, h.shapes⟩

theorem of_shapes (hknown : table.Known type ∧ table'.Known type')
    (hnull : type = .null ↔ type' = .null) (herror : type = .error ↔ type' = .error)
    (hshapes : Shape.Akin promises (Akin promises table table') (table.resolvedShape type)
      (table'.resolvedShape type')) : Akin promises table table' type type' := by
  have hall := bisimulation_akin promises table table'
  let akin (one other : TypeId) : Prop :=
    Akin promises table table' one other ∨ one = type ∧ other = type'
  refine ⟨akin, ⟨?_, ?_, ?_, ?_⟩, .inr ⟨rfl, rfl⟩⟩
  · rintro one other (h | ⟨rfl, rfl⟩)
    · exact hall.known _ _ h
    · exact hknown
  · rintro one other (h | ⟨rfl, rfl⟩)
    · exact hall.null _ _ h
    · exact hnull
  · rintro one other (h | ⟨rfl, rfl⟩)
    · exact hall.error _ _ h
    · exact herror
  · rintro one other (h | ⟨rfl, rfl⟩)
    · exact (hall.shapes _ _ h).mono fun _ _ => .inl
    · exact hshapes.mono fun _ _ => .inl

theorem refl (hpromises : ∀ promised, promises promised promised) (hclosed : table.Closed)
    (hknown : table.Known type) : Akin promises table table type type := by
  refine ⟨fun one other => table.Known one ∧ one = other, ⟨?_, ?_, ?_, ?_⟩, hknown, rfl⟩
  · rintro one _ ⟨h, rfl⟩
    exact ⟨h, h⟩
  · rintro one _ ⟨_, rfl⟩
    exact Iff.rfl
  · rintro one _ ⟨_, rfl⟩
    exact Iff.rfl
  · rintro one _ ⟨h, rfl⟩
    exact .refl hpromises (hclosed.resolveWithin_eq h _ (Nat.lt_succ_self _)).2
      fun part hpart => ⟨hclosed.resolved_part h hpart, rfl⟩

-- What is entered later does not matter.
theorem keeps {large large' : TypeTable} (hclosed : table.Closed) (hclosed' : table'.Closed)
    (hgrows : table.shapes.Keeps large.shapes) (hgrows' : table'.shapes.Keeps large'.shapes)
    (h : Akin promises table table' type type') : Akin promises large large' type type' := by
  have hall := bisimulation_akin promises table table'
  refine ⟨Akin promises table table', ⟨fun one other h => ?_, hall.null, hall.error,
    fun one other h => ?_⟩, h⟩
  · exact ⟨h.known.1.keeps hgrows, h.known.2.keeps hgrows'⟩
  · rw [hclosed.resolvedShape_eq hgrows h.known.1, hclosed'.resolvedShape_eq hgrows' h.known.2]
    exact h.shapes

section Entered

variable (hclosed : table.Closed) (hclosed' : table'.Closed)
include hclosed hclosed'

-- Only `null` and wrong expressions have the types that stand for them.
theorem of_entered (h : table.shape? type = some shape) (h' : table'.shape? type' = some shape')
    (hshapes : Shape.Akin promises (Akin promises table table') shape shape') :
    Akin promises table table' type type' := by
  have halias := hshapes.ne_Alias
  have hnull : (type = .null ↔ shape = .Null) ∧ (type' = .null ↔ shape' = .Null) :=
    ⟨hclosed.eq_null_iff h, hclosed'.eq_null_iff h'⟩
  have herror : (type = .error ↔ shape = .Error) ∧ (type' = .error ↔ shape' = .Error) :=
    ⟨hclosed.eq_error_iff h, hclosed'.eq_error_iff h'⟩
  refine of_shapes ⟨⟨_, h⟩, ⟨_, h'⟩⟩ ?_ ?_ ?_
  · rw [hnull.1, hnull.2]
    cases hshapes <;> simp
  · rw [herror.1, herror.2]
    cases hshapes <;> simp
  · rw [resolvedShape_of_shape? h halias.1, resolvedShape_of_shape? h' halias.2]
    exact hshapes

theorem ofBasic (basic : BasicType) :
    Akin promises table table' (.ofBasic basic) (.ofBasic basic) :=
  of_entered hclosed hclosed' (hclosed.builtin (shape?_ofBasic basic))
    (hclosed'.builtin (shape?_ofBasic basic)) (.Basic basic)

theorem null : Akin promises table table' .null .null :=
  of_entered hclosed hclosed' (hclosed.builtin shape?_null) (hclosed'.builtin shape?_null) .Null

theorem error : Akin promises table table' .error .error :=
  of_entered hclosed hclosed' (hclosed.builtin shape?_error) (hclosed'.builtin shape?_error) .Error

theorem insert (hshapes : Shape.Akin promises (Akin promises table table') shape shape') :
    Akin promises (table.insert shape).2 (table'.insert shape').2 (table.insert shape).1
      (table'.insert shape').1 := by
  obtain ⟨hparts, hparts'⟩ := hshapes.forall_parts fun _ _ h => h.known
  refine of_entered (hclosed.insert hparts) (hclosed'.insert hparts') shape?_insert shape?_insert ?_
  exact hshapes.mono fun _ _ h => h.keeps hclosed hclosed' keeps_insert keeps_insert

omit hclosed' in
-- An alias is akin to what its target is akin to.
theorem of_alias {name : Symbol} {target : TypeId} (h : table.shape? type = some (.Alias name target))
    (hakin : Akin promises table table' target type') (hnull : target ≠ .null)
    (herror : target ≠ .error) : Akin promises table table' type type' := by
  refine of_shapes ⟨⟨_, h⟩, hakin.known.2⟩ ?_ ?_ ?_
  · rw [hclosed.eq_null_iff h, ← hakin.eq_null_iff]
    simp [hnull]
  · rw [hclosed.eq_error_iff h, ← hakin.eq_error_iff]
    simp [herror]
  · rw [resolvedShape, hclosed.resolve_Alias h]
    exact hakin.shapes

-- Aliases of akin types are akin.
theorem aliases {name name' : Symbol} {target target' : TypeId}
    (h : table.shape? type = some (.Alias name target))
    (h' : table'.shape? type' = some (.Alias name' target'))
    (hakin : Akin promises table table' target target') : Akin promises table table' type type' := by
  refine of_shapes ⟨⟨_, h⟩, ⟨_, h'⟩⟩ ?_ ?_ ?_
  · rw [hclosed.eq_null_iff h, hclosed'.eq_null_iff h']
    simp
  · rw [hclosed.eq_error_iff h, hclosed'.eq_error_iff h']
    simp
  · rw [resolvedShape, resolvedShape, hclosed.resolve_Alias h, hclosed'.resolve_Alias h']
    exact hakin.shapes

end Entered

end Akin

end TypeTable

end EffectLint
