import EffectLint.Type.Basic

/-!
The table of all types. A type is entered after its parts, so they have smaller numbers; what
follows a type down to its parts needs no more steps than its own number allows.
-/

namespace EffectLint

structure TypeTable where
  shapes : Numbering Shape

namespace TypeTable

def insert (table : TypeTable) (shape : Shape) : TypeId × TypeTable :=
  let (index, shapes) := table.shapes.insert shape
  (⟨index⟩, ⟨shapes⟩)

def builtins : List Shape :=
  BasicType.all.map Shape.Basic ++ [.Null, .Error]

def start : TypeTable :=
  builtins.foldl (fun table shape => (table.insert shape).2) ⟨.empty⟩

def size (table : TypeTable) : Nat :=
  table.shapes.size

def shape? (table : TypeTable) (type : TypeId) : Option Shape :=
  table.shapes.get? type.index

-- The shape of a type of this table.
def shape (table : TypeTable) (type : TypeId) : Shape :=
  (table.shape? type).getD .Error

def resolveWithin (table : TypeTable) : Nat → TypeId → TypeId
  | 0, type => type
  | steps + 1, type =>
      match table.shape type with
      | .Alias _ target => resolveWithin table steps target
      | _ => type

-- The type that is left when every alias in front of it is followed.
def resolve (table : TypeTable) (type : TypeId) : TypeId :=
  table.resolveWithin (type.index + 1) type

def resolvedShape (table : TypeTable) (type : TypeId) : Shape :=
  table.shape (table.resolve type)

def isVoid (table : TypeTable) (type : TypeId) : Bool :=
  table.resolve type == .void

def isError (table : TypeTable) (type : TypeId) : Bool :=
  table.resolve type == .error

def isClass (table : TypeTable) (type : TypeId) : Bool :=
  match table.resolvedShape type with
  | .Class _ => true
  | _ => false

-- A function type with its own number.
structure FunctionType where
  type : TypeId
  signature : Signature

def function? (table : TypeTable) (type : TypeId) : Option FunctionType :=
  match table.resolvedShape type with
  | .Function signature => some ⟨table.resolve type, signature⟩
  | _ => none

-- The function type behind a callee. A delegate stands for its function, while a pointer to a
-- function has none.
def calleeFunction? (table : TypeTable) (type : TypeId) : Option FunctionType :=
  match table.resolvedShape type with
  | .Delegate function => table.function? function
  | _ => table.function? type

-- What a call of a value of the type runs. Here a pointer to a function counts as well.
def called? (table : TypeTable) (type : TypeId) : Option FunctionType :=
  match table.calleeFunction? type with
  | some function => some function
  | none =>
      match table.resolvedShape type with
      | .Pointer target => table.function? target
      | _ => none

def mutableWithin (table : TypeTable) : Nat → TypeId → Bool
  | 0, _ => false
  | steps + 1, type =>
      match table.resolvedShape type with
      | .Pointer _ | .Array _ | .AssocArray _ _ | .Class _ | .Delegate _ => true
      | .Tuple elements => elements.any (mutableWithin table steps)
      | .Basic _ | .Null | .Error | .Function _ | .Alias _ _ => false

-- Whether what a value of the type refers to can be changed through it.
def hasMutableIndirection (table : TypeTable) (type : TypeId) : Bool :=
  table.mutableWithin (type.index + 1) type

end TypeTable

end EffectLint
