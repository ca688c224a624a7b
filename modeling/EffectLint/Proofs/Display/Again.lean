import EffectLint.Proofs.Display.Node
import EffectLint.Proofs.Lowering.Again

/-!
Lowering the tree of a node again where the same scopes are open. Nothing is said, and the node
that comes of it is like the first one.
-/

namespace EffectLint

namespace Expr

def castType? : Expr → Option TypeTree
  | .Cast _ written _ => some written
  | _ => none

theorem castType?_bare (whole : Expr) : whole.bare.castType? = whole.castType?.map TypeTree.bare := by
  cases whole with
  | Assert span condition message => cases message <;> rfl
  | _ => rfl

theorem isQuestion_bare (whole : Expr) : whole.bare.isQuestion = whole.isQuestion := by
  cases whole with
  | Assert span condition message => cases message <;> rfl
  | _ => rfl

theorem isFalseLiteral_bare (whole : Expr) : whole.bare.isFalseLiteral = whole.isFalseLiteral := by
  induction whole using Expr.induction with
  | step whole ih =>
      cases whole with
      | Paren span inner =>
          have hinner := ih inner (List.mem_singleton_self inner)
          rw [bare, isFalseLiteral, isFalseLiteral, hinner]
      | Assert span condition message => cases message <;> rfl
      | _ => rfl

theorem exists_Paren {whole inner : Expr} (h : whole.bare = (Paren ⟨0, 0⟩ inner).bare) :
    ∃ span other, whole = .Paren span other ∧ other.bare = inner.bare := by
  cases whole with
  | Paren span other => exact ⟨span, other, rfl, by simpa only [bare, Paren.injEq, true_and] using h⟩
  | Assert span condition message => cases message <;> simp [bare] at h
  | _ => simp [bare] at h

theorem exists_Integer {whole : Expr} {value : Nat} (h : whole.bare = .Integer ⟨0, 0⟩ value) :
    ∃ span, whole = .Integer span value := by
  cases whole with
  | Integer span other => exact ⟨span, by simpa only [bare, Integer.injEq, true_and] using h⟩
  | Assert span condition message => cases message <;> simp [bare] at h
  | _ => simp [bare] at h

theorem exists_Assert {whole condition : Expr}
    (h : whole.bare = (Assert ⟨0, 0⟩ condition none).bare) :
    ∃ span other, whole = .Assert span other none ∧ other.bare = condition.bare := by
  cases whole with
  | Assert span other message =>
      cases message with
      | none => exact ⟨span, other, rfl, by simpa only [bare, Assert.injEq, true_and, and_true] using h⟩
      | some message => simp [bare] at h
  | _ => simp [bare] at h

end Expr

namespace NodeKind

-- The type that is written in front of an operand.
def target : NodeKind → TypeId
  | .Cast type _ => type
  | _ => .error

end NodeKind

namespace Lower

theorem prepare_eq (whole : Expr) :
    prepare whole = (whole.castType?.map type).getD (return .error) := by
  cases whole <;> rfl

-- The places in the source do not matter.
theorem expected_bare (program : Program) (scopes : Scopes) (whole : Expr) (target : TypeId)
    (ids : List NodeId) :
    expected program scopes whole.bare target ids = expected program scopes whole target ids := by
  cases whole with
  | Assert span condition message =>
      cases message <;> simp only [Expr.bare, expected, Expr.isFalseLiteral_bare]
  | _ => rfl

end Lower

open Lower

section

variable {program : Program} {scopes : Scopes} {type : Option TypeId} {kind : NodeKind}
  {tree : Nat → NodeId → Expr}

theorem Program.castType?_kindTree (program : Program) (tree : Nat → NodeId → Expr)
    (kind : NodeKind) : (program.kindTree tree kind).castType? =
      match kind with
      | .Cast type _ => some (program.typeTree type)
      | _ => none := by
  cases kind with
  | Step op fixity operand => cases fixity <;> rfl
  | Binary op left right =>
      rw [Program.kindTree]
      split <;> rfl
  | _ => rfl

theorem Program.isQuestion_kindTree (program : Program) (tree : Nat → NodeId → Expr)
    (kind : NodeKind) : (program.kindTree tree kind).isQuestion = false := by
  cases kind with
  | Step op fixity operand => cases fixity <;> rfl
  | Binary op left right =>
      rw [Program.kindTree]
      split <;> rfl
  | _ => rfl

theorem Program.Makes.isFalseLiteral_kindTree (h : program.Makes scopes type kind) :
    (program.kindTree tree kind).isFalseLiteral = kind.isFalse := by
  cases kind with
  | Step op fixity operand => cases fixity <;> rfl
  | Binary op left right =>
      rw [Program.kindTree]
      split <;> rfl
  | Integer value =>
      obtain ⟨digits, rfl, _⟩ := h
      simp only [kindTree, Expr.isFalseLiteral, NodeKind.isFalse, Int.toNat_natCast]
      exact decide_eq_decide.mpr Int.natCast_eq_zero.symm
  | _ => rfl

theorem Program.Makes.target_ne_error (hclosed : program.types.Closed)
    (h : program.Makes scopes type kind) {whole : Expr}
    (hbare : whole.bare = (program.kindTree tree kind).bare) :
    ∀ span written operand, whole = .Cast span written operand → kind.target ≠ .error := by
  rintro span written operand rfl
  have hcast := congrArg Expr.castType? hbare
  rw [Expr.castType?_bare, Expr.castType?_bare, castType?_kindTree] at hcast
  cases kind with
  | Cast target operand => exact h.1.ne_error hclosed
  | _ => cases hcast

-- What the type in front of an operand denotes is known.
theorem Program.Makes.prepare_again (hclosed : program.types.Closed)
    (h : program.Makes scopes type kind) {whole : Expr}
    (hbare : whole.bare = (program.kindTree tree kind).bare) {later : Program}
    (hlater : later.Extends program) (reporter : Reporter) :
    prepare whole ⟨later, scopes, reporter⟩ = (kind.target, ⟨later, scopes, reporter⟩) := by
  have hcast := congrArg Expr.castType? hbare
  rw [Expr.castType?_bare, Expr.castType?_bare, castType?_kindTree] at hcast
  rw [prepare_eq]
  cases kind with
  | Cast target operand =>
      obtain ⟨written, hwritten, hsame⟩ := Option.map_eq_some_iff.mp hcast
      rw [hwritten]
      exact (spellsType hclosed h.1).again written hsame later hlater reporter
  | _ =>
      rw [Option.map_eq_none_iff.mp hcast]
      rfl

-- The parts of the tree are the trees of the operands.
theorem Program.Makes.parts_kindTree (h : program.Makes scopes type kind) (hkind : kind ≠ .Halt)
    {whole : Expr} (hbare : whole.bare = (program.kindTree tree kind).bare) :
    List.Forall₂ (fun part operand => ∃ level, part.bare = (tree level operand).bare) whole.parts
      kind.operands := by
  have hparts : whole.parts.map Expr.bare = (program.kindTree tree kind).parts.map Expr.bare := by
    rw [← Expr.parts_bare, hbare, Expr.parts_bare]
  have hplaces := @places_kindTree _ _ _ _ tree h hkind
  have hall : List.Forall₂ (fun bare operand => ∃ level, bare = (tree level operand).bare)
      (whole.parts.map Expr.bare) kind.operands := by
    rw [hparts, ← Expr.map_places, List.map_map, List.forall₂_map_left_iff]
    exact hplaces.imp fun place operand hholds => ⟨place.1, congrArg Expr.bare hholds.2⟩
  exact List.forall₂_map_left_iff.mp hall

theorem Program.Makes.expected_kindTree (h : program.Makes scopes type kind) (hkind : kind ≠ .Halt)
    (hcondition : ∀ condition ∈ kind.operands, ∀ level,
      (tree level condition).isFalseLiteral = (program.arena.kind condition).isFalse)
    {later : Program} (hlater : later.Extends program)
    (hoperands : ∀ operand ∈ kind.operands, later.arena.kind operand = program.arena.kind operand) :
    expected later scopes (program.kindTree tree kind) kind.target kind.operands = some kind := by
  have hname := h.name
  cases kind with
  | Declare declared value => exact h.elim
  | Error => exact h.elim
  | Halt => exact absurd rfl hkind
  | Assign store target value =>
      rcases h.1 with rfl | ⟨op, rfl⟩ <;> rfl
  | Step op fixity operand => cases fixity <;> rfl
  | Logical op left right => cases op <;> rfl
  | Binary op left right =>
      rw [Program.kindTree]
      split <;> rfl
  | Assert condition message =>
      have hfalse : (tree Level.assign condition).isFalseLiteral = false := by
        rw [hcondition condition (by simp [NodeKind.operands])]
        exact h.1
      cases message <;> simp [kindTree, expected, hfalse, NodeKind.operands, one?, two?]
  | Call callee arguments named =>
      obtain ⟨_, _, _, hnamed, _⟩ := h
      have hcallee := hoperands callee (by simp [NodeKind.operands])
      simp only [kindTree, expected, NodeKind.operands, hnamed, hcallee]
  | Integer value =>
      obtain ⟨digits, rfl, _⟩ := h
      rfl
  | Variable id => exact congrArg bindingKind? (hlater.binding?_eq (hname.1 id rfl).2)
  | Function id => exact congrArg bindingKind? (hlater.binding?_eq (hname.2.1 id rfl).2)
  | Module id => exact congrArg bindingKind? (hlater.binding?_eq (hname.2.2.1 id rfl).2)
  | New target => exact congrArg classKind? (hlater.binding?_eq (hname.2.2.2 target rfl).2)
  | _ => rfl

end

theorem Arena.Alike.extends {large small : Program} (hextends : large.Extends small)
    {id id' : NodeId} (h : small.arena.Alike id id') : large.arena.Alike id id' := by
  induction h with
  | intro hnode hnode' hkind htype _ ih =>
      exact .intro (hextends.nodes _ _ hnode) (hextends.nodes _ _ hnode') hkind htype ih

theorem Arena.Alike.like {program : Program} {scopes : Scopes} {id id' : NodeId}
    (h : program.arena.Alike id id') (hmade : program.Made scopes id) : Like program id id' := by
  have hne := hmade.kind_ne_error
  cases h with
  | @intro _ _ node node' hnode hnode' hbare htype _ =>
      have hkind := Arena.kind_of_node? hnode
      have hkind' := Arena.kind_of_node? hnode'
      rw [hkind] at hne
      refine ⟨?_, ?_, ?_, ?_⟩
      · rw [Arena.type?, Arena.type?, Arena.node_of_node? hnode, Arena.node_of_node? hnode', htype]
      · rw [hkind, hkind', ← node'.kind.isFalse_bare, hbare, node.kind.isFalse_bare]
      · rw [hkind, hkind', ← node'.kind.functionNamed_bare, hbare, node.kind.functionNamed_bare]
      · rw [hkind']
        intro herror
        rw [herror] at hbare
        exact hne (NodeKind.bare_eq_error hbare.symm)

namespace Lower

-- Lowering an expression in a program that has grown says nothing, and what it adds is like the
-- tree that is there.
def LowersLike (source : List Char) (program : Program) (scopes : Scopes) (whole : Expr)
    (id : NodeId) : Prop :=
  ∀ later : Program, later.Extends program → ∃ made id', made.Extends later ∧
    made.arena.Alike id id' ∧
    ∀ reporter, expr source whole ⟨later, scopes, reporter⟩ = (id', ⟨made, scopes, reporter⟩)

section

variable {source : List Char} {program : Program} {scopes : Scopes}

theorem LowersLike.paren {span : Span} {inner : Expr} {id : NodeId}
    (h : LowersLike source program scopes inner id) :
    LowersLike source program scopes (.Paren span inner) id := by
  have hexpr : expr source (.Paren span inner) = expr source inner := expr_eq source _
  unfold LowersLike
  rw [hexpr]
  exact h

theorem LowersLike.each {parts : List Expr} {ids : List NodeId}
    (hparts : List.Forall₂ (LowersLike source program scopes) parts ids) {later : Program}
    (hlater : later.Extends program) :
    ∃ made ids', made.Extends later ∧ List.Forall₂ made.arena.Alike ids ids' ∧
      ∀ reporter, parts.mapM (expr source) ⟨later, scopes, reporter⟩ =
        (ids', ⟨made, scopes, reporter⟩) := by
  induction hparts generalizing later with
  | nil => exact ⟨later, [], .refl _, .nil, fun _ => rfl⟩
  | cons hfirst _ ih =>
      obtain ⟨one, id', hone, halike, hrun⟩ := hfirst later hlater
      obtain ⟨all, ids', hall, halikes, hruns⟩ := ih (hlater.trans hone)
      refine ⟨all, id' :: ids', hone.trans hall, .cons (halike.extends hall) halikes, ?_⟩
      intro reporter
      rw [List.mapM_cons, bind_apply, hrun, bind_apply, hruns]
      rfl

-- One node over operands that are lowered again.
theorem LowersLike.node {id : NodeId} {node : Node} (hsound : program.Sound scopes)
    (hnode : program.arena.node? id = some node)
    (hmakes : program.Makes scopes node.type node.kind) (hkind : node.kind ≠ .Halt)
    (hmade : ∀ operand ∈ node.kind.operands, program.Made scopes operand)
    {tree : Nat → NodeId → Expr}
    (htree : ∀ condition ∈ node.kind.operands, ∀ level,
      (tree level condition).isFalseLiteral = (program.arena.kind condition).isFalse)
    {whole : Expr} (hbare : whole.bare = (program.kindTree tree node.kind).bare)
    (hparts : List.Forall₂ (LowersLike source program scopes) whole.parts node.kind.operands) :
    LowersLike source program scopes whole id := by
  intro later hlater
  obtain ⟨grown, ids', hgrown, halikes, hruns⟩ := LowersLike.each hparts hlater
  have hextends := hlater.trans hgrown
  have hquestion : whole.isQuestion = false := by
    rw [← whole.isQuestion_bare, hbare, Expr.isQuestion_bare, program.isQuestion_kindTree]
  have hexpected : expected grown scopes whole node.kind.target node.kind.operands =
      some node.kind := by
    rw [← expected_bare, hbare, expected_bare]
    refine hmakes.expected_kindTree hkind htree hextends fun operand hmem => ?_
    cases hmade operand hmem with
    | intro hoperand =>
        rw [Arena.kind_of_node? hoperand, Arena.kind_of_node? (hextends.nodes _ _ hoperand)]
  have hagain := hmakes.extends hextends hsound fun operand hmem => by
    cases hmade operand hmem with
    | intro hoperand => exact ⟨_, hoperand⟩
  have hlikes : List.Forall₂ (Like grown) node.kind.operands ids' := by
    refine List.forall₂_iff_zip.mpr ⟨halikes.length_eq, fun {operand _} hpair => ?_⟩
    have hoperand := hmade operand (List.of_mem_zip hpair).1
    exact (List.forall₂_zip halikes hpair).like (hoperand.extends hextends hsound)
  obtain ⟨made, hsame, hoperands, hadds⟩ := @make_again source _ _ _ _ _ _
    (hmakes.target_ne_error hsound.closed hbare) _ _ hparts.length_eq.symm hexpected hagain hlikes
  refine ⟨grown.addNode ⟨made, node.type, whole.span⟩, ⟨grown.arena.size⟩,
    hgrown.trans (grown.addNode_extends _), ?_, fun reporter => ?_⟩
  · have hadded := grown.addNode_extends ⟨made, node.type, whole.span⟩
    refine .intro ((hextends.trans hadded).nodes _ _ hnode) Array.getElem?_push_size hsame rfl ?_
    rw [hoperands]
    exact fun pair hpair => (List.forall₂_zip halikes hpair).extends hadded
  · rw [expr_eq_parts source hquestion, bind_apply, hmakes.prepare_again hsound.closed hbare hlater,
      bind_apply, hruns]
    exact hadds reporter

-- A trap is written as an assertion of zero, whatever it was made of.
theorem LowersLike.trap {id : NodeId} {node : Node} (hnode : program.arena.node? id = some node)
    (hkind : node.kind = .Halt) (htype : node.type = some .void) {whole : Expr} {tree : Nat → NodeId → Expr}
    (hbare : whole.bare = (program.kindTree tree .Halt).bare) :
    LowersLike source program scopes whole id := by
  obtain ⟨span, condition, rfl, hcondition⟩ := Expr.exists_Assert hbare
  obtain ⟨inner, rfl⟩ := Expr.exists_Integer hcondition
  intro later hlater
  obtain ⟨grown, hgrown⟩ : ∃ grown, grown = later.addNode ⟨.Integer 0, some .int, inner⟩ := ⟨_, rfl⟩
  have hextends : grown.Extends later := hgrown ▸ later.addNode_extends _
  refine ⟨grown.addNode ⟨.Halt, some .void, span⟩, ⟨grown.arena.size⟩,
    hextends.trans (grown.addNode_extends _), ?_, fun reporter => ?_⟩
  · have hadded := grown.addNode_extends ⟨.Halt, some .void, span⟩
    refine .intro (hadded.nodes _ _ (hextends.nodes _ _ (hlater.nodes _ _ hnode)))
      Array.getElem?_push_size (by rw [hkind]) htype.symm ?_
    rw [hkind]
    exact List.forall_mem_nil _
  · have hzero : grown.arena.kind ⟨later.arena.size⟩ = .Integer 0 := by
      have hadded : grown.arena.node? ⟨later.arena.size⟩ = some ⟨.Integer 0, some .int, inner⟩ := by
        rw [hgrown]
        exact Array.getElem?_push_size
      exact Arena.kind_of_node? hadded
    have hfine : Right grown [⟨later.arena.size⟩] := by
      refine List.forall_mem_singleton.mpr ?_
      rw [hzero]
      simp
    have hcondition : expr source (.Integer inner 0) ⟨later, scopes, reporter⟩ =
        (⟨later.arena.size⟩, ⟨grown, scopes, reporter⟩) := by
      rw [expr_eq, hgrown]
      rfl
    have hrun : expr source (.Assert span (.Integer inner 0) none) ⟨later, scopes, reporter⟩ =
        assertNode true span ⟨later.arena.size⟩ none ⟨grown, scopes, reporter⟩ := by
      rw [expr_eq]
      dsimp only
      rw [bind_apply, hcondition]
      rfl
    rw [hrun, assertNode, unlessError_fine hfine]
    rfl

end

end Lower

namespace Program

variable {program : Program} {scopes : Scopes}

theorem isFalseLiteral_placed (level : Nat) (whole : Expr) :
    (whole.placed level).isFalseLiteral = whole.isFalseLiteral := by
  rw [Expr.placed]
  split
  · rw [Expr.isFalseLiteral]
  · rfl

theorem Made.isFalseLiteral {id : NodeId} (h : program.Made scopes id) (depth level : Nat)
    (hdepth : id.index < depth) : (program.treeWithin depth level id).isFalseLiteral =
      (program.arena.kind id).isFalse := by
  cases h with
  | @intro _ node hnode hmakes _ _ =>
      have hkind := Arena.kind_of_node? hnode
      cases depth with
      | zero => omega
      | succ depth =>
          rw [treeWithin, hkind, isFalseLiteral_placed]
          exact hmakes.isFalseLiteral_kindTree

-- The tree of a node is lowered to a node like it.
theorem Made.again (hsound : program.Sound scopes) (source : List Char) {id : NodeId}
    (h : program.Made scopes id) : ∀ (depth level : Nat) (whole : Expr), id.index < depth →
    whole.bare = (program.treeWithin depth level id).bare →
    LowersLike source program scopes whole id := by
  induction h with
  | @intro id node hnode hmakes holder hmade ih =>
      intro depth level whole hdepth hbare
      have hkind := Arena.kind_of_node? hnode
      cases depth with
      | zero => omega
      | succ depth =>
          have hplain : ∀ whole : Expr,
              whole.bare = (program.kindTree (program.treeWithin depth) node.kind).bare →
              LowersLike source program scopes whole id := by
            intro whole hbare
            by_cases htrap : node.kind = .Halt
            · rw [htrap] at hmakes hbare
              exact .trap hnode htrap hmakes hbare
            · refine .node hsound hnode hmakes htrap hmade (fun condition hmem level => ?_) hbare ?_
              · have hlt := holder condition hmem
                exact (hmade condition hmem).isFalseLiteral depth level (by omega)
              · have hparts := hmakes.parts_kindTree htrap hbare
                refine List.forall₂_iff_zip.mpr ⟨hparts.length_eq, fun {part operand} hpair => ?_⟩
                obtain ⟨place, hpart⟩ := List.forall₂_zip hparts hpair
                have hmem := (List.of_mem_zip hpair).2
                have hlt := holder operand hmem
                exact ih operand hmem depth place part (by omega) hpart
          rw [treeWithin, hkind, Expr.placed] at hbare
          split at hbare
          · obtain ⟨span, inner, rfl, hinner⟩ := Expr.exists_Paren hbare
            exact .paren (hplain inner hinner)
          · exact hplain whole hbare

end Program

end EffectLint
