import EffectLint.Effect.Walk
import EffectLint.Proofs.Arena.Growth
import Mathlib.Data.Finset.Card
import Mathlib.Data.Finset.Range
import Mathlib.Data.List.Basic
import Mathlib.Data.List.Nodup
import Mathlib.Data.List.Range
import Mathlib.Logic.Relation

/-!
The tree below a node of a well-formed arena. Its nodes are those of the postorder, each of them
once, so a tree has no more nodes than the number of its root allows. Trees may stand side by side in
an arena: a new node joins some of them into one, and those that are not its operands stay as they
are.
-/

namespace EffectLint

namespace Arena

-- The nodes of the tree below `root`, which is one of them.
def Below (arena : Arena) : NodeId → NodeId → Prop :=
  Relation.ReflTransGen fun parent child => child ∈ arena.operands parent

section Operands

variable {arena : Arena}

-- A list of nodes that has the operands of each of them holds the trees below them.
theorem mem_of_below {ids : List NodeId}
    (hclosed : ∀ id ∈ ids, ∀ operand ∈ arena.operands id, operand ∈ ids) {root id : NodeId}
    (hroot : root ∈ ids) (h : arena.Below root id) : id ∈ ids := by
  induction h with
  | refl => exact hroot
  | tail _ hchild ih => exact hclosed _ ih _ hchild

theorem operands_eq_nil {id : NodeId} (hid : arena.size ≤ id.index) : arena.operands id = [] := by
  have hnode : arena.node? id = none := Array.getElem?_eq_none hid
  simp [operands, kind, node, hnode, NodeKind.operands]

theorem operands_lt_size {parent child : NodeId} (hchild : child ∈ arena.operands parent) :
    parent.index < arena.size := by
  by_contra hparent
  rw [operands_eq_nil (Nat.le_of_not_lt hparent)] at hchild
  exact List.not_mem_nil hchild

theorem WellFormed.operand_lt (wf : arena.WellFormed) {parent child : NodeId}
    (hchild : child ∈ arena.operands parent) : child.index < parent.index :=
  wf.older parent child (operands_lt_size hchild) hchild

theorem WellFormed.parent_eq (wf : arena.WellFormed) {parent child : NodeId}
    (hchild : child ∈ arena.operands parent) : arena.parent? child = some parent :=
  (wf.parent_iff parent child).mpr ⟨operands_lt_size hchild, hchild⟩

theorem WellFormed.below_le (wf : arena.WellFormed) {root id : NodeId} (h : arena.Below root id) :
    id.index ≤ root.index := by
  induction h with
  | refl => exact Nat.le_refl _
  | tail _ hchild ih => exact Nat.le_of_lt (Nat.lt_of_lt_of_le (wf.operand_lt hchild) ih)

-- Two nodes above a common one lie above one another, because a node has one parent.
theorem WellFormed.below_total (wf : arena.WellFormed) {first second id : NodeId}
    (hfirst : arena.Below first id) (hsecond : arena.Below second id) :
    arena.Below first second ∨ arena.Below second first := by
  have hunique : Relator.RightUnique fun child parent => child ∈ arena.operands parent := by
    intro child left right hleft hright
    exact Option.some.inj ((wf.parent_eq hleft).symm.trans (wf.parent_eq hright))
  have hup : ∀ {root}, arena.Below root id →
      Relation.ReflTransGen (fun child parent => child ∈ arena.operands parent) id root := by
    intro root h
    exact Relation.reflTransGen_swap.mp h
  rcases Relation.ReflTransGen.total_of_right_unique hunique (hup hfirst) (hup hsecond) with h | h
  · exact .inr (Relation.reflTransGen_swap.mp h)
  · exact .inl (Relation.reflTransGen_swap.mp h)

-- The trees of two operands have no node in common.
theorem WellFormed.below_disjoint (wf : arena.WellFormed) {parent left right id : NodeId}
    (hleft : left ∈ arena.operands parent) (hright : right ∈ arena.operands parent)
    (hne : left ≠ right) (hl : arena.Below left id) (hr : arena.Below right id) : False := by
  have hcontra : ∀ {above under : NodeId}, above ∈ arena.operands parent →
      under ∈ arena.operands parent → above ≠ under → arena.Below above under → False := by
    intro above under habove hunder hne h
    rcases Relation.ReflTransGen.cases_tail h with heq | ⟨between, hbetween, hchild⟩
    · exact hne heq.symm
    · have heq : between = parent :=
        Option.some.inj ((wf.parent_eq hchild).symm.trans (wf.parent_eq hunder))
      have hle := wf.below_le hbetween
      have hlt := wf.operand_lt habove
      rw [heq] at hle
      omega
  rcases wf.below_total hl hr with h | h
  · exact hcontra hleft hright hne h
  · exact hcontra hright hleft (Ne.symm hne) h

end Operands

section Postorder

variable {arena : Arena}

-- The number of the root bounds the depth, so a larger bound changes nothing.
theorem WellFormed.postorderWithin_eq (wf : arena.WellFormed) (depth : Nat) (id : NodeId)
    (hdepth : id.index < depth) : arena.postorderWithin depth id = arena.postorder id := by
  induction depth using Nat.strongRecOn generalizing id with
  | ind depth ih =>
      cases depth with
      | zero => omega
      | succ depth =>
          simp only [postorder, postorderWithin]
          congr 1
          apply List.flatMap_congr
          intro child hchild
          have hlt := wf.operand_lt hchild
          rw [ih depth (by omega) child (by omega)]
          by_cases heq : depth = id.index
          · rw [← heq, ih depth (by omega) child (by omega)]
          · rw [ih id.index (by omega) child hlt]

theorem WellFormed.postorder_eq (wf : arena.WellFormed) (id : NodeId) :
    arena.postorder id = (arena.operands id).flatMap arena.postorder ++ [id] := by
  conv_lhs => rw [postorder, postorderWithin]
  congr 1
  apply List.flatMap_congr
  intro child hchild
  exact wf.postorderWithin_eq id.index child (wf.operand_lt hchild)

theorem WellFormed.mem_postorder_iff (wf : arena.WellFormed) {root id : NodeId} :
    id ∈ arena.postorder root ↔ arena.Below root id := by
  induction hindex : root.index using Nat.strongRecOn generalizing root with
  | ind index ih =>
      subst hindex
      rw [wf.postorder_eq, List.mem_append, List.mem_flatMap, List.mem_singleton]
      constructor
      · rintro (⟨child, hchild, hid⟩ | rfl)
        · exact .head hchild ((ih _ (wf.operand_lt hchild) rfl).mp hid)
        · exact .refl
      · intro h
        rcases Relation.ReflTransGen.cases_head h with heq | ⟨child, hchild, hid⟩
        · exact .inr heq.symm
        · exact .inl ⟨child, hchild, (ih _ (wf.operand_lt hchild) rfl).mpr hid⟩

theorem WellFormed.postorder_nodup (wf : arena.WellFormed) (root : NodeId) :
    (arena.postorder root).Nodup := by
  induction hindex : root.index using Nat.strongRecOn generalizing root with
  | ind index ih =>
      subst hindex
      rw [wf.postorder_eq, List.nodup_append]
      refine ⟨?_, List.nodup_singleton root, ?_⟩
      · rw [List.nodup_flatMap]
        refine ⟨fun child hchild => ih _ (wf.operand_lt hchild) child rfl, ?_⟩
        refine (wf.distinct root).imp_of_mem ?_
        intro left right hleft hright hne id hl hr
        exact wf.below_disjoint hleft hright hne (wf.mem_postorder_iff.mp hl)
          (wf.mem_postorder_iff.mp hr)
      · intro id hid other hother heq
        obtain ⟨child, hchild, hbelow⟩ := List.mem_flatMap.mp hid
        have hle := wf.below_le (wf.mem_postorder_iff.mp hbelow)
        have hlt := wf.operand_lt hchild
        rw [heq, List.mem_singleton.mp hother] at hle
        omega

theorem WellFormed.length_postorder_le (wf : arena.WellFormed) (root : NodeId) :
    (arena.postorder root).length ≤ root.index + 1 := by
  have hnodup : ((arena.postorder root).map NodeId.index).Nodup := by
    apply (wf.postorder_nodup root).map
    intro left right heq
    cases left
    cases right
    exact congrArg NodeId.mk heq
  have hsubset : ((arena.postorder root).map NodeId.index).toFinset ⊆
      Finset.range (root.index + 1) := by
    intro index hindex
    obtain ⟨id, hid, rfl⟩ := List.mem_map.mp (List.mem_toFinset.mp hindex)
    have hle := wf.below_le (wf.mem_postorder_iff.mp hid)
    exact Finset.mem_range.mpr (by omega)
  have hcard := Finset.card_le_card hsubset
  rwa [List.toFinset_card_of_nodup hnodup, List.length_map, Finset.card_range] at hcard

end Postorder

end Arena

namespace Arena

-- The roots of trees in a well-formed arena. They are distinct and belong to no node.
structure Forest (arena : Arena) (roots : List NodeId) : Prop where
  wf : arena.WellFormed
  free : ∀ id ∈ roots, arena.Free id
  distinct : roots.Nodup

-- The operands of all nodes, one node behind the other.
def allOperands (arena : Arena) : List NodeId :=
  (List.range arena.size).flatMap fun index => arena.operands ⟨index⟩

variable {arena : Arena}

-- A node has one parent, so it is met once among all operands.
theorem WellFormed.allOperands_nodup (wf : arena.WellFormed) : arena.allOperands.Nodup := by
  rw [allOperands, List.nodup_flatMap]
  refine ⟨fun index _ => wf.distinct ⟨index⟩, List.nodup_range.imp ?_⟩
  intro left right hne id hleft hright
  have hparent := (wf.parent_eq hleft).symm.trans (wf.parent_eq hright)
  exact hne (congrArg NodeId.index (Option.some.inj hparent))

theorem WellFormed.parent?_eq_some_iff (wf : arena.WellFormed) {parent child : NodeId} :
    arena.parent? child = some parent ↔ child ∈ arena.operands parent :=
  (wf.parent_iff parent child).trans (and_iff_right_of_imp operands_lt_size)

namespace Forest

variable {roots : List NodeId}

theorem empty : Arena.empty.Forest [] :=
  ⟨wellFormed_empty, fun _ hmem => absurd hmem List.not_mem_nil, List.nodup_nil⟩

theorem sublist {fewer : List NodeId} (h : arena.Forest roots) (hsub : fewer.Sublist roots) :
    arena.Forest fewer :=
  ⟨h.wf, fun id hmem => h.free id (hsub.subset hmem), h.distinct.sublist hsub⟩

theorem perm {others : List NodeId} (h : arena.Forest roots) (hperm : roots.Perm others) :
    arena.Forest others :=
  ⟨h.wf, fun id hmem => h.free id (hperm.mem_iff.mpr hmem), hperm.nodup_iff.mp h.distinct⟩

-- The operands of the new node are among the roots that are taken, each at most once.
theorem add {kept taken : List NodeId} (h : arena.Forest (kept ++ taken)) {node : Node}
    (hoperands : node.kind.operands.Sublist taken) :
    (arena.add node).2.Forest (kept ++ [(arena.add node).1]) := by
  have hfree : ∀ child ∈ node.kind.operands, arena.Free child := fun child hmem =>
    h.free child (List.mem_append_right _ (hoperands.subset hmem))
  obtain ⟨hkept, htaken, hapart⟩ := List.nodup_append.mp h.distinct
  have hlt : ∀ id ∈ kept, id.index < arena.size := fun id hmem =>
    (h.free id (List.mem_append_left _ hmem)).1
  have hnew : ∀ id ∈ kept, id ≠ (arena.add node).1 := by
    rintro id hmem rfl
    exact Nat.lt_irrefl _ (hlt _ hmem)
  refine ⟨h.wf.add node hfree (htaken.sublist hoperands), fun id hmem => ?_, ?_⟩
  · rcases List.mem_append.mp hmem with hmem | hmem
    · have hnot : id ∉ node.kind.operands := fun hop =>
        hapart id hmem id (hoperands.subset hop) rfl
      have hold := h.free id (List.mem_append_left _ hmem)
      refine ⟨?_, ?_⟩
      · rw [size_add]
        exact Nat.lt_succ_of_lt hold.1
      · rw [h.wf.parent?_add node hold.1, if_neg hnot]
        exact hold.2
    · obtain rfl := List.mem_singleton.mp hmem
      refine ⟨?_, h.wf.parent?_add_of_le node (Nat.le_refl _)⟩
      rw [size_add]
      exact Nat.lt_succ_self _
  · refine hkept.append (List.nodup_singleton _) fun id hleft hright => ?_
    exact hnew id hleft (List.mem_singleton.mp hright)

-- Nothing stands above a root, so no root lies below another.
theorem disjoint (h : arena.Forest roots) :
    roots.Pairwise fun left right => ∀ id, ¬(arena.Below left id ∧ arena.Below right id) := by
  have hroot : ∀ {above root : NodeId}, root ∈ roots → arena.Below above root → above = root := by
    intro above root hmem hbelow
    rcases Relation.ReflTransGen.cases_tail hbelow with heq | ⟨parent, -, hchild⟩
    · exact heq.symm
    · have hparent := h.wf.parent_eq hchild
      rw [(h.free root hmem).2] at hparent
      cases hparent
  refine h.distinct.imp_of_mem ?_
  rintro left right hleft hright hne id ⟨hl, hr⟩
  rcases h.wf.below_total hl hr with hbelow | hbelow
  · exact hne (hroot hright hbelow)
  · exact hne (hroot hleft hbelow).symm

end Forest

end Arena

end EffectLint
