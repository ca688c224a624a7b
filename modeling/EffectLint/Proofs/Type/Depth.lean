import EffectLint.Lowering.Type
import EffectLint.Proofs.Tree.Induction

/-!
How deep types nest, and how deep the calls go that find out what they denote. Resolving a type goes
down into its parts, each in a call of its own, so the calls stand in each other just as the types do.
-/

namespace EffectLint

mutual

-- How many types stand in each other.
def TypeTree.depth : TypeTree → Nat
  | .Basic _ _ | .Named _ _ | .Error _ => 0
  | .Pointer _ part | .Array _ part => part.depth + 1
  | .AssocArray _ value key => max value.depth key.depth + 1
  | .Callable _ _ _ result parameters => max result.depth (TypeTree.deepest parameters) + 1

def TypeTree.deepest : List (Parameter TypeTree) → Nat
  | [] => 0
  | ⟨_, type, _⟩ :: rest => max type.depth (deepest rest)

end

theorem TypeTree.deepest_le_iff {parameters : List (Parameter TypeTree)} {bound : Nat} :
    deepest parameters ≤ bound ↔ ∀ parameter ∈ parameters, parameter.type.depth ≤ bound := by
  induction parameters with
  | nil => exact ⟨fun _ => List.forall_mem_nil _, fun _ => Nat.zero_le _⟩
  | cons first rest ih => rw [deepest, Nat.max_le, ih, List.forall_mem_cons]

theorem TypeTree.exists_of_lt_deepest {parameters : List (Parameter TypeTree)} {bound : Nat}
    (h : bound < deepest parameters) : ∃ parameter ∈ parameters, bound < parameter.type.depth := by
  induction parameters with
  | nil => exact absurd h (Nat.not_lt_zero _)
  | cons first rest ih =>
      rw [deepest] at h
      rcases Nat.lt_or_ge bound first.type.depth with hfirst | hfirst
      · exact ⟨first, List.mem_cons_self, hfirst⟩
      · obtain ⟨parameter, hmem, hdeep⟩ := ih (by omega)
        exact ⟨parameter, List.mem_cons_of_mem _ hmem, hdeep⟩

namespace Lower

mutual

-- Resolving a type where no more than so many calls may stand in the first one.
def typeWithin : TypeTree → Nat → OptionT Lower TypeId
  | .Pointer _ target, depth + 1 => do
      wrapType (← typeWithin target depth) .Pointer
  | .Array _ element, depth + 1 => do
      wrapType (← typeWithin element depth) .Array
  | .AssocArray _ value key, depth + 1 => do
      let value ← typeWithin value depth
      let key ← typeWithin key depth
      let built : Lower TypeId :=
        if value = .error ∨ key = .error then return .error else internType (.AssocArray key value)
      built
  | .Callable _ isDelegate promises result parameters, depth + 1 => do
      let result ← typeWithin result depth
      let parameters ← parameterTypesWithin parameters depth
      let function ← internType (.Function ⟨parameters, result, promises⟩)
      internType (if isDelegate then .Delegate function else .Pointer function)
  | .Pointer _ _, 0 | .Array _ _, 0 | .AssocArray _ _ _, 0 | .Callable _ _ _ _ _, 0 => failure
  | .Basic span basic, _ => type (.Basic span basic)
  | .Named span name, _ => type (.Named span name)
  | .Error span, _ => type (.Error span)

def parameterTypesWithin : List (Parameter TypeTree) → Nat → OptionT Lower (List ParameterType)
  | [], _ => return []
  | ⟨isRef, written, _⟩ :: rest, depth => do
      let first ← typeWithin written depth
      let others ← parameterTypesWithin rest depth
      return ⟨first, isRef⟩ :: others

end

theorem parameterTypesWithin_eq {parameters : List (Parameter TypeTree)} {depth : Nat}
    (h : ∀ parameter ∈ parameters, typeWithin parameter.type depth = liftM (type parameter.type)) :
    parameterTypesWithin parameters depth = liftM (parameterTypes parameters) := by
  induction parameters with
  | nil => rfl
  | cons first rest ih =>
      obtain ⟨hfirst, hrest⟩ := List.forall_mem_cons.mp h
      rw [parameterTypesWithin, hfirst, ih hrest]
      rfl

-- As many calls as the type is deep are enough.
theorem typeWithin_eq {written : TypeTree} {depth : Nat} (h : written.depth ≤ depth) :
    typeWithin written depth = liftM (type written) := by
  induction written generalizing depth with
  | Basic | Named | Error => rfl
  | Pointer span target ih | Array span element ih =>
      cases depth with
      | zero => exact absurd h (Nat.not_succ_le_zero _)
      | succ depth =>
          rw [typeWithin, ih (Nat.le_of_succ_le_succ h)]
          rfl
  | AssocArray span value key ihValue ihKey =>
      cases depth with
      | zero => exact absurd h (Nat.not_succ_le_zero _)
      | succ depth =>
          obtain ⟨hvalue, hkey⟩ := Nat.max_le.mp (Nat.le_of_succ_le_succ h)
          rw [typeWithin, ihValue hvalue, ihKey hkey]
          rfl
  | Callable span isDelegate promises result parameters ihResult ihParameters =>
      cases depth with
      | zero => exact absurd h (Nat.not_succ_le_zero _)
      | succ depth =>
          obtain ⟨hresult, hparameters⟩ := Nat.max_le.mp (Nat.le_of_succ_le_succ h)
          have hall := TypeTree.deepest_le_iff.mp hparameters
          rw [typeWithin, ihResult hresult, parameterTypesWithin_eq fun parameter hmem =>
            ihParameters parameter hmem (hall parameter hmem)]
          rfl

section

variable {α β : Type} {first : OptionT Lower α} {next : α → OptionT Lower β} {state : LoweringState}

theorem attempt_apply : (first >>= next) state =
    (first state).1.elim (none, (first state).2) fun answer => next answer (first state).2 := by
  change (match (first state).1 with
    | some answer => next answer
    | none => pure none : Lower (Option β)) (first state).2 = _
  cases (first state).1 <;> rfl

theorem attempt_none (h : (first state).1 = none) : ((first >>= next) state).1 = none := by
  rw [attempt_apply, h]
  rfl

theorem attempt_none_next (h : ∀ answer state, (next answer state).1 = none) :
    ((first >>= next) state).1 = none := by
  rw [attempt_apply]
  cases (first state).1 with
  | none => rfl
  | some answer => exact h answer _

end

theorem parameterTypesWithin_none {parameters : List (Parameter TypeTree)} {depth : Nat}
    {parameter : Parameter TypeTree} (hmem : parameter ∈ parameters)
    (h : ∀ state, (typeWithin parameter.type depth state).1 = none) (state : LoweringState) :
    (parameterTypesWithin parameters depth state).1 = none := by
  induction hmem generalizing state with
  | head => exact attempt_none (h state)
  | tail first _ ih => exact attempt_none_next fun _ state => attempt_none (ih state)

-- With fewer calls nothing comes of it.
theorem typeWithin_none {written : TypeTree} {depth : Nat} (h : depth < written.depth)
    (state : LoweringState) : (typeWithin written depth state).1 = none := by
  induction written generalizing depth state with
  | Basic | Named | Error => exact absurd h (Nat.not_lt_zero _)
  | Pointer span part ih | Array span part ih =>
      cases depth with
      | zero => rfl
      | succ depth => exact attempt_none (ih (Nat.lt_of_succ_lt_succ h) state)
  | AssocArray span value key ihValue ihKey =>
      cases depth with
      | zero => rfl
      | succ depth =>
          have hparts : depth < max value.depth key.depth := Nat.lt_of_succ_lt_succ h
          rcases Nat.lt_or_ge depth value.depth with hvalue | hvalue
          · exact attempt_none (ihValue hvalue state)
          · exact attempt_none_next fun _ state => attempt_none (ihKey (by omega) state)
  | Callable span isDelegate promises result parameters ihResult ihParameters =>
      cases depth with
      | zero => rfl
      | succ depth =>
          have hparts : depth < max result.depth (TypeTree.deepest parameters) :=
            Nat.lt_of_succ_lt_succ h
          rcases Nat.lt_or_ge depth result.depth with hresult | hresult
          · exact attempt_none (ihResult hresult state)
          · obtain ⟨parameter, hmem, hdeep⟩ := TypeTree.exists_of_lt_deepest
              (show depth < TypeTree.deepest parameters by omega)
            exact attempt_none_next fun _ state => attempt_none
              (parameterTypesWithin_none hmem (ihParameters parameter hmem hdeep) state)

-- Resolving a type takes just as many calls in each other as the type is deep.
theorem typeWithin_isSome_iff {written : TypeTree} {depth : Nat} {state : LoweringState} :
    (typeWithin written depth state).1.isSome ↔ written.depth ≤ depth := by
  constructor
  · intro hsome
    refine Nat.le_of_not_lt fun hdeep => ?_
    rw [typeWithin_none hdeep state] at hsome
    cases hsome
  · intro h
    rw [typeWithin_eq h]
    rfl

end Lower

end EffectLint
