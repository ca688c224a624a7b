import EffectLint.Lowering.State

/-!
What written types denote. A type that mentions an unknown name is the error type, and so is
every pointer, array and map built on it.
-/

namespace EffectLint

namespace Lower

-- A type built on another, unless that one is already wrong.
def wrapType (inner : TypeId) (wrap : TypeId → Shape) : Lower TypeId :=
  if inner = .error then return .error else internType (wrap inner)

mutual

def type : TypeTree → Lower TypeId
  | .Basic _ type => return .ofBasic type
  | .Named _ name => do
      match ← lookup name.text with
      | some (.Type id) => return id
      | _ =>
          report (.about .UnknownType name.span name.text)
          return .error
  | .Pointer _ target => do
      wrapType (← type target) .Pointer
  | .Array _ element => do
      wrapType (← type element) .Array
  | .AssocArray _ value key => do
      let value ← type value
      let key ← type key
      if value = .error ∨ key = .error then
        return .error
      else
        internType (.AssocArray key value)
  | .Callable _ isDelegate promises result parameters => do
      let result ← type result
      let parameters ← parameterTypes parameters
      let function ← internType (.Function ⟨parameters, result, promises⟩)
      internType (if isDelegate then .Delegate function else .Pointer function)
  | .Error _ => return .error

def parameterTypes : List (Parameter TypeTree) → Lower (List ParameterType)
  | [] => return []
  | ⟨isRef, written, _⟩ :: rest => do
      let first ← type written
      let others ← parameterTypes rest
      return ⟨first, isRef⟩ :: others

end

def signature (result : TypeTree) (parameters : List (Parameter TypeTree)) (promises : Promises) :
    Lower Signature := do
  let result ← type result
  let parameters ← parameterTypes parameters
  return ⟨parameters, result, promises⟩

end Lower

end EffectLint
