import EffectLint.Lowering.Node
import EffectLint.Proofs.Type.Akin
import EffectLint.Type.Purity
import Mathlib.Data.Option.Basic

/-!
What is asked about types has the same answer for akin types, and where a type is given for an answer,
akin types are given. How pure a function is can differ with what it promises and with nothing else.
What it means that a value leads to something that can be changed is said apart from the table: the
answers worked out of the table are these, and they stay when the table grows.
-/

namespace EffectLint

-- What is read off a type leads to smaller numbers.
namespace TypeTable

variable {table : TypeTable} {type : TypeId}

theorem Closed.resolveWithin_le (hclosed : table.Closed) (hknown : table.Known type) (steps : Nat) :
    (table.resolveWithin steps type).index ≤ type.index := by
  induction steps generalizing type with
  | zero => exact Nat.le_refl _
  | succ steps ih =>
      obtain ⟨shape, hshape⟩ := hknown
      rw [TypeTable.resolveWithin, TypeTable.shape_eq hshape]
      cases shape with
      | Alias name target =>
          have hlt := hclosed.older type _ hshape target List.mem_cons_self
          exact Nat.le_trans (ih (hclosed.part_known hshape List.mem_cons_self)) (Nat.le_of_lt hlt)
      | _ => exact Nat.le_refl _

theorem Closed.resolved_part_lt (hclosed : table.Closed) (hknown : table.Known type) {part : TypeId}
    (hpart : part ∈ (table.resolvedShape type).parts) : part.index < type.index := by
  obtain ⟨shape, hshape⟩ := hclosed.resolve_known hknown
  rw [resolvedShape, TypeTable.shape_eq hshape] at hpart
  exact Nat.lt_of_lt_of_le (hclosed.older _ shape hshape part hpart) (hclosed.resolveWithin_le hknown _)

theorem Closed.isVoid_iff (hclosed : table.Closed) (hknown : table.Known type) :
    table.isVoid type = true ↔ table.resolvedShape type = .Basic .Void := by
  obtain ⟨shape, hshape⟩ := hclosed.resolve_known hknown
  have hvoid := hclosed.builtin (shape?_ofBasic .Void)
  rw [isVoid, beq_iff_eq, resolvedShape, TypeTable.shape_eq hshape]
  constructor
  · intro h
    rw [h] at hshape
    exact Option.some.inj (hshape.symm.trans hvoid)
  · rintro rfl
    exact eq_of_shape? hshape hvoid

end TypeTable

theorem any_eq_of_forall₂ {α β : Type} {related : α → β → Prop} {left : List α} {right : List β}
    {good : α → Bool} {good' : β → Bool} (h : List.Forall₂ related left right)
    (hgood : ∀ one ∈ left, ∀ other ∈ right, related one other → good one = good' other) :
    left.any good = right.any good' := by
  induction h with
  | nil => rfl
  | cons hfirst _ ih =>
      rw [List.any_cons, List.any_cons, hgood _ List.mem_cons_self _ List.mem_cons_self hfirst,
        ih fun one hone other hother =>
          hgood one (List.mem_cons_of_mem _ hone) other (List.mem_cons_of_mem _ hother)]

namespace TypeTable

variable {promises : Promises → Promises → Prop} {table table' : TypeTable} {type type' : TypeId}

namespace Akin

theorem isClass_eq (h : Akin promises table table' type type') :
    table.isClass type = table'.isClass type' := by
  obtain ⟨shape, shape', hshape, hshape', hshapes⟩ := h.exists_shapes
  rw [isClass, isClass, hshape, hshape']
  cases hshapes <;> rfl

theorem function? (h : Akin promises table table' type type') :
    Option.Rel (fun function function' : FunctionType =>
      function.signature.Akin promises (Akin promises table table') function'.signature)
      (table.function? type) (table'.function? type') := by
  obtain ⟨shape, shape', hshape, hshape', hshapes⟩ := h.exists_shapes
  rw [TypeTable.function?, TypeTable.function?, hshape, hshape']
  cases hshapes with
  | Function hsignature => exact .some hsignature
  | _ => exact .none

theorem calleeFunction? (h : Akin promises table table' type type') :
    Option.Rel (fun function function' : FunctionType =>
      function.signature.Akin promises (Akin promises table table') function'.signature)
      (table.calleeFunction? type) (table'.calleeFunction? type') := by
  obtain ⟨shape, shape', hshape, hshape', hshapes⟩ := h.exists_shapes
  rw [TypeTable.calleeFunction?, TypeTable.calleeFunction?, hshape, hshape']
  cases hshapes with
  | Delegate hfunction => exact hfunction.function?
  | _ => exact h.function?

theorem called? (h : Akin promises table table' type type') :
    Option.Rel (fun function function' : FunctionType =>
      function.signature.Akin promises (Akin promises table table') function'.signature)
      (table.called? type) (table'.called? type') := by
  obtain ⟨shape, shape', hshape, hshape', hshapes⟩ := h.exists_shapes
  have hcallee := h.calleeFunction?
  rw [TypeTable.called?, TypeTable.called?, hshape, hshape']
  generalize table.calleeFunction? type = callee at hcallee ⊢
  generalize table'.calleeFunction? type' = callee' at hcallee ⊢
  cases hcallee with
  | some hfunction => exact .some hfunction
  | none =>
      cases hshapes with
      | Pointer htarget => exact htarget.function?
      | _ => exact .none

theorem pointerTarget? (h : Akin promises table table' type type') :
    Option.Rel (Akin promises table table') (Lower.pointerTarget? table type)
      (Lower.pointerTarget? table' type') := by
  obtain ⟨shape, shape', hshape, hshape', hshapes⟩ := h.exists_shapes
  rw [Lower.pointerTarget?, Lower.pointerTarget?, hshape, hshape']
  cases hshapes with
  | Pointer htarget => exact .some htarget
  | _ => exact .none

theorem mapValue? (h : Akin promises table table' type type') :
    Option.Rel (Akin promises table table') (Lower.mapValue? table type)
      (Lower.mapValue? table' type') := by
  obtain ⟨shape, shape', hshape, hshape', hshapes⟩ := h.exists_shapes
  rw [Lower.mapValue?, Lower.mapValue?, hshape, hshape']
  cases hshapes with
  | AssocArray _ hvalue => exact .some hvalue
  | _ => exact .none

section Closed

variable (hclosed : table.Closed) (hclosed' : table'.Closed)
include hclosed hclosed'

theorem isVoid_eq (h : Akin promises table table' type type') :
    table.isVoid type = table'.isVoid type' := by
  obtain ⟨shape, shape', hshape, hshape', hshapes⟩ := h.exists_shapes
  rw [Bool.eq_iff_iff, hclosed.isVoid_iff h.known.1, hclosed'.isVoid_iff h.known.2, hshape, hshape']
  cases hshapes <;> simp

theorem element? (h : Akin promises table table' type type') :
    Option.Rel (Akin promises table table') (Lower.element? table type)
      (Lower.element? table' type') := by
  obtain ⟨shape, shape', hshape, hshape', hshapes⟩ := h.exists_shapes
  rw [Lower.element?, Lower.element?, hshape, hshape']
  cases hshapes with
  | Array helement | Pointer helement => exact .some helement
  | AssocArray _ hvalue => exact .some hvalue
  | Basic basic =>
      cases basic with
      | Text => exact .some (ofBasic hclosed hclosed' .Character)
      | _ => exact .none
  | _ => exact .none

-- A type that is missing counts as the error type.
theorem getD_error {type type' : Option TypeId}
    (h : Option.Rel (Akin promises table table') type type') :
    Akin promises table table' (type.getD .error) (type'.getD .error) := by
  cases h with
  | none => exact error hclosed hclosed'
  | some h => exact h

theorem binaryType {left left' right right' : Option TypeId} (op : BinaryOp)
    (hleft : Option.Rel (Akin promises table table') left left')
    (hright : Option.Rel (Akin promises table table') right right') :
    Akin promises table table' (Lower.binaryType table op left right)
      (Lower.binaryType table' op left' right') := by
  have hleft := getD_error hclosed hclosed' hleft
  have hright := getD_error hclosed hclosed' hright
  obtain ⟨shape, shape', hshape, hshape', hshapes⟩ := hleft.exists_shapes
  obtain ⟨other, other', hother, hother', hothers⟩ := hright.exists_shapes
  simp only [Lower.binaryType, hshape, hshape', hother, hother']
  split
  · exact ofBasic hclosed hclosed' .Boolean
  · split
    · exact hleft
    · cases hshapes with
      | Basic basic =>
          cases hothers with
          | Basic other =>
              dsimp only
              split
              · exact ofBasic hclosed hclosed' _
              · exact hleft
          | _ => exact hleft
      | _ => exact hleft

-- What a tuple holds has a smaller number, so the steps suffice on both sides.
theorem mutableWithin_eq {steps steps' : Nat} (h : Akin promises table table' type type')
    (hsteps : type.index < steps) (hsteps' : type'.index < steps') :
    table.mutableWithin steps type = table'.mutableWithin steps' type' := by
  induction steps generalizing type type' steps' with
  | zero => omega
  | succ steps ih =>
      obtain ⟨steps', rfl⟩ : ∃ more, steps' = more + 1 := ⟨steps' - 1, by omega⟩
      have hlt : ∀ part ∈ (table.resolvedShape type).parts, part.index < type.index :=
        fun part => hclosed.resolved_part_lt h.known.1
      have hlt' : ∀ part ∈ (table'.resolvedShape type').parts, part.index < type'.index :=
        fun part => hclosed'.resolved_part_lt h.known.2
      obtain ⟨shape, shape', hshape, hshape', hshapes⟩ := h.exists_shapes
      rw [hshape] at hlt
      rw [hshape'] at hlt'
      rw [mutableWithin, mutableWithin, hshape, hshape']
      cases hshapes with
      | Tuple helements =>
          refine any_eq_of_forall₂ helements fun one hone other hother hakin => ih hakin ?_ ?_
          · exact Nat.lt_of_lt_of_le (hlt one hone) (Nat.le_of_lt_succ hsteps)
          · exact Nat.lt_of_lt_of_le (hlt' other hother) (Nat.le_of_lt_succ hsteps')
      | _ => rfl

theorem hasMutableIndirection_eq (h : Akin promises table table' type type') :
    table.hasMutableIndirection type = table'.hasMutableIndirection type' :=
  mutableWithin_eq hclosed hclosed' h (Nat.lt_succ_self _) (Nat.lt_succ_self _)

-- A function that is called without an effect is so by its promises and by its parameters, and the
-- parameters of akin functions are alike.
theorem any_isMutable_eq {signature signature' : Signature}
    (h : signature.Akin promises (Akin promises table table') signature') :
    signature.parameters.any (ParameterType.isMutable table) =
      signature'.parameters.any (ParameterType.isMutable table') := by
  refine any_eq_of_forall₂ h.parameters fun one _ other _ hparameter => ?_
  rw [ParameterType.isMutable, ParameterType.isMutable, hparameter.isRef,
    hasMutableIndirection_eq hclosed hclosed' hparameter.type]

end Closed

end Akin

end TypeTable

theorem Signature.purity_eq_strong (signature : Signature) (table : TypeTable) :
    (signature.purity table == .Strong) = (signature.promises.isPure &&
      !signature.parameters.any (ParameterType.isMutable table)) := by
  unfold purity
  cases signature.promises.isPure <;>
    cases signature.parameters.any (ParameterType.isMutable table) <;> rfl

theorem any_congr_of_mem {α : Type} {list : List α} {good good' : α → Bool}
    (h : ∀ one ∈ list, good one = good' one) : list.any good = list.any good' := by
  have hsame : List.Forall₂ Eq list list := List.forall₂_same.mpr fun _ _ => rfl
  refine any_eq_of_forall₂ hsame ?_
  rintro one hone _ _ rfl
  exact h one hone

-- The shapes of values that refer to something outside of them.
inductive Shape.Refers : Shape → Prop where
  | Pointer (target : TypeId) : Refers (.Pointer target)
  | Array (element : TypeId) : Refers (.Array element)
  | AssocArray (key value : TypeId) : Refers (.AssocArray key value)
  | Class (name : Symbol) : Refers (.Class name)
  | Delegate (function : TypeId) : Refers (.Delegate function)

namespace TypeTable

-- The shape behind all the aliases in front of it.
inductive Resolves (table : TypeTable) : TypeId → Shape → Prop where
  | Here {type : TypeId} {shape : Shape} (hshape : table.shape? type = some shape)
      (hfinal : ∀ name target, shape ≠ .Alias name target) : Resolves table type shape
  | Through {type target : TypeId} {name : Symbol} {shape : Shape}
      (halias : table.shape? type = some (.Alias name target))
      (htarget : Resolves table target shape) : Resolves table type shape

-- A value of the type refers to something, itself or in an element of a tuple at any depth.
inductive Mutable (table : TypeTable) : TypeId → Prop where
  | Refers {type : TypeId} {shape : Shape} (hshape : table.Resolves type shape)
      (hrefers : shape.Refers) : Mutable table type
  | Element {type element : TypeId} {elements : List TypeId}
      (hshape : table.Resolves type (.Tuple elements)) (hmem : element ∈ elements)
      (helement : Mutable table element) : Mutable table type

variable {table small large : TypeTable} {type : TypeId} {shape : Shape}

theorem Closed.resolves_resolvedShape (hclosed : table.Closed) (hknown : table.Known type) :
    table.Resolves type (table.resolvedShape type) := by
  induction hindex : type.index using Nat.strongRecOn generalizing type with
  | ind index ih =>
      subst hindex
      have hfinal := (hclosed.resolveWithin_eq hknown _ (Nat.lt_succ_self _)).2
      obtain ⟨shape, hshape⟩ := hknown
      by_cases halias : ∃ name target, shape = .Alias name target
      · obtain ⟨name, target, rfl⟩ := halias
        have hlt := hclosed.older type _ hshape target List.mem_cons_self
        have htarget := ih _ hlt (hclosed.part_known hshape List.mem_cons_self) rfl
        rw [resolvedShape, hclosed.resolve_Alias hshape]
        exact .Through hshape htarget
      · have hne : ∀ name target, shape ≠ .Alias name target :=
          fun name target heq => halias ⟨name, target, heq⟩
        rw [resolvedShape_of_shape? hshape hne]
        exact .Here hshape hne

theorem Resolves.unique {other : Shape} (h : table.Resolves type shape)
    (h' : table.Resolves type other) : shape = other := by
  induction h with
  | Here hshape hfinal =>
      cases h' with
      | Here hother => exact Option.some.inj (hshape.symm.trans hother)
      | Through halias => exact absurd (Option.some.inj (hshape.symm.trans halias)) (hfinal _ _)
  | Through halias _ ih =>
      cases h' with
      | Here hother hfinal => exact absurd (Option.some.inj (hother.symm.trans halias)) (hfinal _ _)
      | Through halias' htarget =>
          cases halias.symm.trans halias'
          exact ih htarget

-- The elements of a tuple have smaller numbers, so the steps suffice.
theorem Closed.mutableWithin_iff (hclosed : table.Closed) (hknown : table.Known type) {steps : Nat}
    (hsteps : type.index < steps) : table.mutableWithin steps type = true ↔ table.Mutable type := by
  induction steps generalizing type with
  | zero => omega
  | succ steps ih =>
      have hresolves := hclosed.resolves_resolvedShape hknown
      have hpart : ∀ part ∈ (table.resolvedShape type).parts,
          (table.mutableWithin steps part = true ↔ table.Mutable part) := by
        intro part hpart
        have hlt := hclosed.resolved_part_lt hknown hpart
        exact ih (hclosed.resolved_part hknown hpart) (by omega)
      rw [TypeTable.mutableWithin]
      generalize table.resolvedShape type = shape at hresolves hpart ⊢
      have honly : ∀ {other}, table.Resolves type other → other = shape :=
        fun h => h.unique hresolves
      cases shape with
      | Pointer target => exact iff_of_true rfl (.Refers hresolves (.Pointer target))
      | Array element => exact iff_of_true rfl (.Refers hresolves (.Array element))
      | AssocArray key value => exact iff_of_true rfl (.Refers hresolves (.AssocArray key value))
      | Class name => exact iff_of_true rfl (.Refers hresolves (.Class name))
      | Delegate function => exact iff_of_true rfl (.Refers hresolves (.Delegate function))
      | Tuple elements =>
          rw [List.any_eq_true]
          constructor
          · rintro ⟨element, hmem, helement⟩
            exact .Element hresolves hmem ((hpart element hmem).mp helement)
          · intro h
            cases h with
            | Refers hother hrefers =>
                cases honly hother
                cases hrefers
            | Element hother hmem helement =>
                cases honly hother
                exact ⟨_, hmem, (hpart _ hmem).mpr helement⟩
      | _ =>
          refine iff_of_false Bool.false_ne_true fun h => ?_
          cases h with
          | Refers hother hrefers =>
              cases honly hother
              cases hrefers
          | Element hother => cases honly hother

theorem Closed.hasMutableIndirection_iff (hclosed : table.Closed) (hknown : table.Known type) :
    table.hasMutableIndirection type = true ↔ table.Mutable type :=
  hclosed.mutableWithin_iff hknown (Nat.lt_succ_self _)

theorem Closed.mutableWithin_keeps (hclosed : small.Closed)
    (hgrows : small.shapes.Keeps large.shapes) (steps : Nat) (hknown : small.Known type) :
    large.mutableWithin steps type = small.mutableWithin steps type := by
  induction steps generalizing type with
  | zero => rfl
  | succ steps ih =>
      have hpart : ∀ part ∈ (small.resolvedShape type).parts,
          large.mutableWithin steps part = small.mutableWithin steps part :=
        fun part hpart => ih (hclosed.resolved_part hknown hpart)
      rw [TypeTable.mutableWithin, TypeTable.mutableWithin, hclosed.resolvedShape_eq hgrows hknown]
      cases hshape : small.resolvedShape type with
      | Tuple elements =>
          rw [hshape] at hpart
          exact any_congr_of_mem hpart
      | _ => rfl

end TypeTable

namespace Signature

open TypeTable

variable {table small large : TypeTable} {signature : Signature}

-- Something can be changed through the parameters.
def Exposed (table : TypeTable) (signature : Signature) : Prop :=
  ∃ parameter ∈ signature.parameters, parameter.isRef = true ∨ table.Mutable parameter.type

-- How pure a function is, as its declaration has it.
def HasPurity (table : TypeTable) (signature : Signature) : Purity → Prop
  | .Impure => signature.promises.isPure = false
  | .Weak => signature.promises.isPure = true ∧ signature.Exposed table
  | .Strong => signature.promises.isPure = true ∧ ¬signature.Exposed table

theorem hasPurity_unique {purity other : Purity} (h : signature.HasPurity table purity)
    (h' : signature.HasPurity table other) : purity = other := by
  cases purity <;> cases other <;> simp_all [HasPurity]

theorem any_isMutable_iff (hclosed : table.Closed)
    (hknown : ∀ parameter ∈ signature.parameters, table.Known parameter.type) :
    signature.parameters.any (ParameterType.isMutable table) = true ↔ signature.Exposed table := by
  rw [List.any_eq_true]
  refine exists_congr fun parameter => and_congr_right fun hmem => ?_
  rw [ParameterType.isMutable, Bool.or_eq_true,
    hclosed.hasMutableIndirection_iff (hknown parameter hmem)]

-- The answer worked out is the one that the declaration gives, and there is no other.
theorem hasPurity_iff (hclosed : table.Closed)
    (hknown : ∀ parameter ∈ signature.parameters, table.Known parameter.type) {purity : Purity} :
    signature.HasPurity table purity ↔ signature.purity table = purity := by
  have hany := any_isMutable_iff hclosed hknown
  unfold Signature.purity
  by_cases hexposed : signature.Exposed table
  · rw [hany.mpr hexposed]
    cases hpure : signature.promises.isPure <;> cases purity <;> simp [HasPurity, hpure, hexposed]
  · rw [Bool.eq_false_iff.mpr fun h => hexposed (hany.mp h)]
    cases hpure : signature.promises.isPure <;> cases purity <;> simp [HasPurity, hpure, hexposed]

-- A function is as pure in a later table.
theorem purity_keeps (hclosed : small.Closed) (hgrows : small.shapes.Keeps large.shapes)
    (hknown : ∀ parameter ∈ signature.parameters, small.Known parameter.type) :
    signature.purity large = signature.purity small := by
  have hany : signature.parameters.any (ParameterType.isMutable large) =
      signature.parameters.any (ParameterType.isMutable small) := by
    refine any_congr_of_mem fun parameter hmem => ?_
    rw [ParameterType.isMutable, ParameterType.isMutable, hasMutableIndirection,
      hasMutableIndirection, hclosed.mutableWithin_keeps hgrows _ (hknown parameter hmem)]
  unfold purity
  rw [hany]

end Signature

end EffectLint
