import EffectLint.Name.Numbering

/-!
Names. Every name is stored once and handled by its symbol afterwards, so that two names are
compared by their numbers.
-/

namespace EffectLint

structure Symbol where
  index : Nat
  deriving DecidableEq

structure NameTable where
  names : Numbering String

namespace NameTable

def empty : NameTable :=
  ⟨.empty⟩

def size (table : NameTable) : Nat :=
  table.names.size

def toList (table : NameTable) : List String :=
  table.names.values.toList

def insert (table : NameTable) (name : String) : Symbol × NameTable :=
  let (index, names) := table.names.insert name
  (⟨index⟩, ⟨names⟩)

def find? (table : NameTable) (name : String) : Option Symbol :=
  (table.names.find? name).map Symbol.mk

def get? (table : NameTable) (symbol : Symbol) : Option String :=
  table.names.get? symbol.index

-- The text of a symbol of this table.
def text (table : NameTable) (symbol : Symbol) : String :=
  (table.get? symbol).getD ""

end NameTable

end EffectLint
