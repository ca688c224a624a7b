import EffectLint.Program.Arena
import Mathlib.Data.List.Nodup

/-!
An arena stays well-formed when a node is added whose operands are distinct and free.
-/

namespace EffectLint

namespace Arena

-- What a new node may have as an operand: a node that is there and belongs to no other yet.
def Free (arena : Arena) (id : NodeId) : Prop :=
  id.index < arena.size ∧ arena.parent? id = none

instance (arena : Arena) (id : NodeId) : Decidable (arena.Free id) :=
  inferInstanceAs (Decidable (_ ∧ _))

theorem wellFormed_empty : empty.WellFormed where
  sizes := rfl
  older := by
    intro parent child hparent
    cases hparent
  parent_iff := by
    intro parent child
    constructor
    · intro h
      cases h
    · rintro ⟨hparent, _⟩
      cases hparent
  distinct := by
    intro parent
    exact List.nodup_nil

variable {arena : Arena}

theorem node_of_node? {id : NodeId} {node : Node} (h : arena.node? id = some node) :
    arena.node id = node := by
  rw [Arena.node, h, Option.getD_some]

theorem kind_of_node? {id : NodeId} {node : Node} (h : arena.node? id = some node) :
    arena.kind id = node.kind := by
  rw [kind, node_of_node? h]

section Add

variable (node : Node)

theorem size_add : (arena.add node).2.size = arena.size + 1 :=
  Array.size_push _

theorem node_add_of_lt {id : NodeId} (hid : id.index < arena.size) :
    (arena.add node).2.node id = arena.node id := by
  simp only [Arena.node, node?, add, Array.getElem?_push_lt hid, Array.getElem?_eq_getElem hid]

theorem node_add_self : (arena.add node).2.node (arena.add node).1 = node := by
  simp [Arena.node, node?, add, size]

theorem operands_add_of_lt {id : NodeId} (hid : id.index < arena.size) :
    (arena.add node).2.operands id = arena.operands id := by
  simp only [operands, kind, node_add_of_lt node hid]

theorem operands_add_self {id : NodeId} (hid : id.index = arena.size) :
    (arena.add node).2.operands id = node.kind.operands := by
  have heq : id = (arena.add node).1 := congrArg NodeId.mk hid
  rw [operands, kind, heq, node_add_self]

theorem size_adopt (parents : Array (Option NodeId)) (parent : NodeId) (ids : List NodeId) :
    (adopt parents parent ids).size = parents.size := by
  unfold adopt
  induction ids generalizing parents with
  | nil => rfl
  | cons first rest ih => rw [List.foldl_cons, ih, Array.size_setIfInBounds]

theorem getElem?_adopt (parents : Array (Option NodeId)) (parent : NodeId) (ids : List NodeId)
    (index : Nat) :
    (adopt parents parent ids)[index]? =
      if (⟨index⟩ : NodeId) ∈ ids ∧ index < parents.size then some (some parent)
      else parents[index]? := by
  unfold adopt
  induction ids generalizing parents with
  | nil => simp
  | cons first rest ih =>
      rw [List.foldl_cons, ih, Array.size_setIfInBounds]
      by_cases hrest : (⟨index⟩ : NodeId) ∈ rest ∧ index < parents.size
      · have hmem : (⟨index⟩ : NodeId) ∈ first :: rest := List.mem_cons_of_mem _ hrest.1
        rw [if_pos hrest, if_pos ⟨hmem, hrest.2⟩]
      · rw [if_neg hrest, Array.getElem?_setIfInBounds]
        by_cases hfirst : first.index = index
        · have hmem : (⟨index⟩ : NodeId) ∈ first :: rest := by
            rw [← hfirst]
            exact List.mem_cons_self
          by_cases hsize : index < parents.size
          · simp [hfirst, hmem, hsize]
          · simp [hfirst, hsize]
        · have hne : (⟨index⟩ : NodeId) ≠ first := by
            rintro rfl
            exact hfirst rfl
          simp only [hfirst, if_false, List.mem_cons, hne, false_or]
          rw [if_neg hrest]

theorem WellFormed.parent?_add (wf : arena.WellFormed) {child : NodeId}
    (hchild : child.index < arena.size) :
    (arena.add node).2.parent? child =
      if child ∈ node.kind.operands then some ⟨arena.size⟩ else arena.parent? child := by
  have hsize : child.index < arena.parents.size := by rw [wf.sizes]; exact hchild
  have hadopt : child.index < (adopt arena.parents ⟨arena.size⟩ node.kind.operands).size := by
    rw [size_adopt]
    exact hsize
  have hself : (⟨child.index⟩ : NodeId) = child := rfl
  simp only [parent?, add, Array.getElem?_push_lt hadopt, ← Array.getElem?_eq_getElem hadopt,
    getElem?_adopt, hsize, and_true, hself]
  split <;> rfl

theorem WellFormed.parent?_add_of_le (wf : arena.WellFormed) {child : NodeId}
    (hchild : arena.size ≤ child.index) : (arena.add node).2.parent? child = none := by
  have hadopt : (adopt arena.parents ⟨arena.size⟩ node.kind.operands).size = arena.size := by
    rw [size_adopt, wf.sizes, size]
  simp only [parent?, add, Array.getElem?_push, hadopt]
  split
  · rfl
  · rw [Array.getElem?_eq_none (by omega)]
    rfl

theorem WellFormed.operand_free_lt (wf : arena.WellFormed) {parent child : NodeId}
    (hparent : parent.index < arena.size) (hchild : child ∈ arena.operands parent) :
    child.index < arena.size ∧ ¬arena.Free child := by
  have hlt := wf.older parent child hparent hchild
  refine ⟨Nat.lt_trans hlt hparent, ?_⟩
  rintro ⟨_, hfree⟩
  have hsome := (wf.parent_iff parent child).mpr ⟨hparent, hchild⟩
  rw [hfree] at hsome
  cases hsome

theorem WellFormed.parent_iff_add (wf : arena.WellFormed)
    (hfree : ∀ child ∈ node.kind.operands, arena.Free child) (parent child : NodeId) :
    (arena.add node).2.parent? child = some parent ↔
      parent.index < (arena.add node).2.size ∧ child ∈ (arena.add node).2.operands parent := by
  rw [size_add]
  by_cases hlt : parent.index < arena.size
  · have hne : (⟨arena.size⟩ : NodeId) ≠ parent := by
      rintro rfl
      exact Nat.lt_irrefl _ hlt
    rw [operands_add_of_lt node hlt]
    by_cases hchild : child.index < arena.size
    · rw [wf.parent?_add node hchild]
      split
      · next hmem =>
        have hnot : child ∉ arena.operands parent :=
          fun h => (wf.operand_free_lt hlt h).2 (hfree child hmem)
        simp [hne, hnot]
      · rw [wf.parent_iff]
        simp [hlt, Nat.lt_succ_of_lt hlt]
    · have hnot : child ∉ arena.operands parent :=
        fun h => hchild (wf.operand_free_lt hlt h).1
      rw [wf.parent?_add_of_le node (Nat.le_of_not_lt hchild)]
      simp [hnot]
  · by_cases heq : parent.index = arena.size
    · have hparent : parent = ⟨arena.size⟩ := congrArg NodeId.mk heq
      rw [operands_add_self node heq]
      by_cases hchild : child.index < arena.size
      · rw [wf.parent?_add node hchild]
        split
        · next hmem => simp [hparent, hmem]
        · next hmem =>
          have hnot : arena.parent? child ≠ some parent :=
            fun h => hlt ((wf.parent_iff parent child).mp h).1
          simp [hnot, hmem]
      · have hnot : child ∉ node.kind.operands := fun h => hchild (hfree child h).1
        rw [wf.parent?_add_of_le node (Nat.le_of_not_lt hchild)]
        simp [hnot]
    · have hnot : (arena.add node).2.parent? child ≠ some parent := by
        by_cases hchild : child.index < arena.size
        · rw [wf.parent?_add node hchild]
          split
          · rintro ⟨⟩
            exact heq rfl
          · exact fun h => hlt ((wf.parent_iff parent child).mp h).1
        · rw [wf.parent?_add_of_le node (Nat.le_of_not_lt hchild)]
          rintro ⟨⟩
      have hlarge : ¬parent.index < arena.size + 1 := by omega
      simp [hnot, hlarge]

theorem WellFormed.add (wf : arena.WellFormed)
    (hfree : ∀ child ∈ node.kind.operands, arena.Free child)
    (hdistinct : node.kind.operands.Nodup) : (arena.add node).2.WellFormed where
  sizes := by
    simp only [Arena.add, Array.size_push, size_adopt, wf.sizes]
  older := by
    intro parent child hparent hchild
    rw [size_add] at hparent
    by_cases hlt : parent.index < arena.size
    · rw [operands_add_of_lt node hlt] at hchild
      exact wf.older parent child hlt hchild
    · have heq : parent.index = arena.size := by omega
      rw [operands_add_self node heq] at hchild
      have := (hfree child hchild).1
      omega
  parent_iff := wf.parent_iff_add node hfree
  distinct := by
    intro parent
    by_cases hlt : parent.index < arena.size
    · rw [operands_add_of_lt node hlt]
      exact wf.distinct parent
    · by_cases heq : parent.index = arena.size
      · rw [operands_add_self node heq]
        exact hdistinct
      · have hnode : (arena.add node).2.node? parent = none := by
          apply Array.getElem?_eq_none
          have hsize : (arena.add node).2.size = arena.size + 1 := size_add node
          unfold size at hsize hlt heq
          omega
        simp [operands, kind, Arena.node, hnode, NodeKind.operands]

end Add

end Arena

end EffectLint
