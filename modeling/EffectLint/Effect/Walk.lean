import EffectLint.Program.Arena

/-!
Walking through everything below a node, operands from left to right before the node that they
belong to. The visitor may stop the walk. What is still to be done is kept on a list, so the
depth of a tree does not matter.
-/

namespace EffectLint

inductive Control where
  | Continue
  | Stop
  deriving DecidableEq

namespace Arena

-- What is still to be done: look at a node's operands, or visit the node itself.
inductive Pending where
  | Enter (id : NodeId)
  | Visit (id : NodeId)

variable {σ : Type}

-- Whether the visitor stopped the walk within so many steps.
def walkWithin (arena : Arena) (visit : NodeId → StateM σ Control) :
    Nat → List Pending → StateM σ Bool
  | 0, _ => pure false
  | _ + 1, [] => pure false
  | steps + 1, .Enter id :: rest =>
      walkWithin arena visit steps ((arena.operands id).map .Enter ++ .Visit id :: rest)
  | steps + 1, .Visit id :: rest => do
      match ← visit id with
      | .Stop => return true
      | .Continue => walkWithin arena visit steps rest

-- A tree has no more nodes than the number of its root allows, and each takes two steps.
def walkSteps (root : NodeId) : Nat :=
  2 * (root.index + 1)

def walk (arena : Arena) (visit : NodeId → StateM σ Control) (root : NodeId) : StateM σ Bool :=
  arena.walkWithin visit (walkSteps root) [.Enter root]

-- The nodes of a tree, operands before the node that they belong to.
def postorderWithin (arena : Arena) : Nat → NodeId → List NodeId
  | 0, _ => []
  | depth + 1, id => (arena.operands id).flatMap (postorderWithin arena depth) ++ [id]

def postorder (arena : Arena) (root : NodeId) : List NodeId :=
  arena.postorderWithin (root.index + 1) root

-- The nodes of a tree with their depth below the root, a node before its operands.
def preorderWithin (arena : Arena) : Nat → Nat → NodeId → List (Nat × NodeId)
  | 0, _, _ => []
  | bound + 1, depth, id =>
      (depth, id) :: (arena.operands id).flatMap (preorderWithin arena bound (depth + 1))

end Arena

end EffectLint
