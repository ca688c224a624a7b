import EffectLint.Program.Node

/-!
The arena of all nodes. A node is added after its operands and never changes. Every node is an
operand of at most one other, so what hangs below a node is a tree.
-/

namespace EffectLint

structure Arena where
  nodes : Array Node
  parents : Array (Option NodeId)

namespace Arena

def empty : Arena :=
  ⟨#[], #[]⟩

def size (arena : Arena) : Nat :=
  arena.nodes.size

def node? (arena : Arena) (id : NodeId) : Option Node :=
  arena.nodes[id.index]?

-- A node of this arena.
def node (arena : Arena) (id : NodeId) : Node :=
  (arena.node? id).getD ⟨.Error, none, Span.emptyAt 0⟩

def kind (arena : Arena) (id : NodeId) : NodeKind :=
  (arena.node id).kind

def type? (arena : Arena) (id : NodeId) : Option TypeId :=
  (arena.node id).type

def operands (arena : Arena) (id : NodeId) : List NodeId :=
  (arena.kind id).operands

def parent? (arena : Arena) (id : NodeId) : Option NodeId :=
  (arena.parents[id.index]?).join

-- Give the operands of a new node their parent.
def adopt (parents : Array (Option NodeId)) (parent : NodeId) (operands : List NodeId) :
    Array (Option NodeId) :=
  operands.foldl (fun parents operand => parents.setIfInBounds operand.index (some parent)) parents

def add (arena : Arena) (node : Node) : NodeId × Arena :=
  let id : NodeId := ⟨arena.size⟩
  (id, ⟨arena.nodes.push node, (adopt arena.parents id node.kind.operands).push none⟩)

-- Operands come before the node that they belong to, and each has that node as its parent.
-- What is stored as a parent is indeed one.
structure WellFormed (arena : Arena) : Prop where
  sizes : arena.parents.size = arena.nodes.size
  older : ∀ parent child, parent.index < arena.size → child ∈ arena.operands parent →
    child.index < parent.index
  parent_iff : ∀ parent child, arena.parent? child = some parent ↔
    parent.index < arena.size ∧ child ∈ arena.operands parent
  distinct : ∀ parent, (arena.operands parent).Nodup

end Arena

end EffectLint
