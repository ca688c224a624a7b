import EffectLint.Type.Table

/-!
How pure a function is, as far as its type tells. The answer for a function type is worked out
when it is first asked for and remembered.
-/

namespace EffectLint

-- From the weakest guarantee to the strongest.
inductive Purity where
  -- may read and write anything
  | Impure
  -- may change what its arguments lead to
  | Weak
  -- depends on the values of its arguments alone
  | Strong
  deriving DecidableEq

def ParameterType.isMutable (table : TypeTable) (parameter : ParameterType) : Bool :=
  parameter.isRef || table.hasMutableIndirection parameter.type

def Signature.purity (table : TypeTable) (signature : Signature) : Purity :=
  if !signature.promises.isPure then .Impure
  else if signature.parameters.any (ParameterType.isMutable table) then .Weak
  else .Strong

-- The answers found so far.
structure PurityMemo where
  found : List (TypeId × Purity)

namespace PurityMemo

def empty : PurityMemo :=
  ⟨[]⟩

def find? (memo : PurityMemo) (type : TypeId) : Option Purity :=
  memo.found.lookup type

def insert (memo : PurityMemo) (type : TypeId) (purity : Purity) : PurityMemo :=
  ⟨(type, purity) :: memo.found⟩

end PurityMemo

abbrev Remembering := StateM PurityMemo

namespace TypeTable

def purity (table : TypeTable) (function : FunctionType) : Remembering Purity := fun memo =>
  match memo.find? function.type with
  | some purity => (purity, memo)
  | none =>
      let purity := function.signature.purity table
      (purity, memo.insert function.type purity)

end TypeTable

end EffectLint
