import EffectLint.Dump
import EffectLint.Proofs.Analysis.Reports
import Mathlib.Data.List.Perm.Basic

/-!
What a dump shows. The nodes of a tree are listed in preorder, each of them once and one level deeper
than the node that it belongs to, and the line that closes the tree tells whether one of them was
marked. The lines do not depend on what is remembered about purity when they are written.
-/

namespace EffectLint

namespace Arena

-- The nodes of a tree with their depth, a node before its operands, where the root has the depth given.
def preorderAt (arena : Arena) (depth : Nat) (root : NodeId) : List (Nat × NodeId) :=
  arena.preorderWithin (root.index + 1) depth root

namespace WellFormed

variable {arena : Arena}

-- The number of the root bounds how deep its tree is, so a larger bound changes nothing.
theorem preorderWithin_eq (wf : arena.WellFormed) (bound depth : Nat) (id : NodeId)
    (hbound : id.index < bound) :
    arena.preorderWithin bound depth id = arena.preorderAt depth id := by
  induction bound using Nat.strongRecOn generalizing depth id with
  | ind bound ih =>
      cases bound with
      | zero => omega
      | succ bound =>
          simp only [preorderAt, preorderWithin]
          congr 1
          apply List.flatMap_congr
          intro operand hoperand
          have hlt := wf.operand_lt hoperand
          rw [ih bound (by omega) _ operand (by omega)]
          by_cases heq : bound = id.index
          · rw [← heq, ih bound (by omega) _ operand (by omega)]
          · rw [ih id.index (by omega) _ operand hlt]

theorem preorderAt_eq (wf : arena.WellFormed) (depth : Nat) (id : NodeId) :
    arena.preorderAt depth id =
      (depth, id) :: (arena.operands id).flatMap (arena.preorderAt (depth + 1)) := by
  conv_lhs => rw [preorderAt, preorderWithin]
  congr 1
  apply List.flatMap_congr
  intro operand hoperand
  exact wf.preorderWithin_eq id.index (depth + 1) operand (wf.operand_lt hoperand)

-- The two ways of going through a tree meet the same nodes.
theorem preorderAt_perm (wf : arena.WellFormed) (depth : Nat) (root : NodeId) :
    ((arena.preorderAt depth root).map Prod.snd).Perm (arena.postorder root) := by
  induction hindex : root.index using Nat.strongRecOn generalizing depth root with
  | ind index ih =>
      subst hindex
      have hoperands : ((arena.operands root).flatMap fun operand =>
          (arena.preorderAt (depth + 1) operand).map Prod.snd).Perm
          ((arena.operands root).flatMap arena.postorder) :=
        .flatMap_left _ fun operand hmem => ih _ (wf.operand_lt hmem) (depth + 1) operand rfl
      rw [wf.preorderAt_eq, wf.postorder_eq, List.map_cons, List.map_flatMap]
      exact (hoperands.cons root).trans (List.perm_append_singleton root _).symm

theorem preorderAt_nodup (wf : arena.WellFormed) (depth : Nat) (root : NodeId) :
    ((arena.preorderAt depth root).map Prod.snd).Nodup :=
  (wf.preorderAt_perm depth root).nodup_iff.mpr (wf.postorder_nodup root)

theorem mem_preorderAt_iff (wf : arena.WellFormed) {depth : Nat} {root id : NodeId} :
    id ∈ (arena.preorderAt depth root).map Prod.snd ↔ arena.Below root id :=
  (wf.preorderAt_perm depth root).mem_iff.trans wf.mem_postorder_iff

end WellFormed

end Arena

namespace Program

variable (program : Program) (palette : Palette)

-- What the line of a node says, from behind the blanks up to the mark.
def nodeText (id : NodeId) : String :=
  let node := program.arena.node id
  let detail := match program.nodeDetail? node.kind with
    | some detail => " " ++ detail
    | none => ""
  let type := match node.type with
    | some type => " " ++ palette.type ++ program.typeText type ++ palette.reset
    | none => ""
  palette.kind ++ node.kind.name ++ palette.reset ++ detail ++ type

-- What stands behind a node with an effect of its own, and behind no other.
def mark (hasEffect : Bool) : String :=
  if hasEffect then " " ++ palette.effect ++ "!" ++ palette.reset else ""

-- The line behind the nodes of a tree.
def closing (site : DiscardSite) (hasEffect : Bool) : String :=
  "  " ++ palette.dim ++ site.name ++ " effect: " ++ (if hasEffect then "yes" else "no") ++
    palette.reset

-- The line of a node, two blanks further in for each step down, where `hasEffect` tells which nodes
-- are marked.
def lineOf (hasEffect : NodeId → Bool) (shown : Nat × NodeId) : String :=
  String.ofList (List.replicate (2 * shown.1) ' ') ++ program.nodeText palette shown.2 ++
    mark palette (hasEffect shown.2)

variable {program palette}

theorem indentation_eq (depth : Nat) :
    indentation depth = String.ofList (List.replicate (2 * depth) ' ') := by
  apply String.toList_inj.mp
  rw [indentation, String.toList_join, String.toList_ofList, List.flatMap_replicate,
    show "  ".toList = List.replicate 2 ' ' from rfl, List.flatten_replicate_replicate, Nat.mul_comm]

theorem answers_nodeLine (depth : Nat) (id : NodeId) :
    Remembering.Answers program.types (program.nodeLine palette depth id)
      (program.lineOf palette program.isEffectful (depth, id)) := by
  have hline : Remembering.Answers program.types (program.nodeLine palette depth id) _ :=
    (answers_hasShallowEffect id).bind (.pure _)
  simp only [indentation_eq, String.append_assoc] at hline
  simp only [lineOf, nodeText, mark, String.append_assoc]
  exact hline

-- What is still to be shown stands for the trees below it, and enough steps are left for all of them.
theorem answers_nodeLinesWithin (wf : program.arena.WellFormed) (steps : Nat)
    (pending : List (Nat × NodeId)) (lines : Array String)
    (hsteps : (pending.map fun shown => program.treeSize shown.2).sum ≤ steps) :
    Remembering.Answers program.types (program.nodeLinesWithin palette steps pending lines)
      (lines ++ ((pending.flatMap fun shown => program.arena.preorderAt shown.1 shown.2).map
        (program.lineOf palette program.isEffectful)).toArray) := by
  induction steps generalizing pending lines with
  | zero =>
      cases pending with
      | nil => simpa [nodeLinesWithin] using Remembering.Answers.pure lines
      | cons first rest =>
          rw [List.map_cons, List.sum_cons, treeSize_eq wf] at hsteps
          omega
  | succ steps ih =>
      cases pending with
      | nil => simpa [nodeLinesWithin] using Remembering.Answers.pure lines
      | cons first rest =>
          obtain ⟨depth, id⟩ := first
          have hsum : (((program.arena.operands id).map ((depth + 1, ·)) ++ rest).map
              fun shown => program.treeSize shown.2).sum ≤ steps := by
            have hsize := treeSize_eq wf id
            rw [List.map_cons, List.sum_cons] at hsteps
            rw [List.map_append, List.sum_append, List.map_map]
            change ((program.arena.operands id).map program.treeSize).sum + _ ≤ steps
            dsimp only at hsteps
            omega
          have hrest := ih _ (lines.push (program.lineOf palette program.isEffectful (depth, id))) hsum
          have hshown : lines ++ (((((depth, id) :: rest).flatMap fun shown =>
              program.arena.preorderAt shown.1 shown.2)).map
                (program.lineOf palette program.isEffectful)).toArray =
              lines.push (program.lineOf palette program.isEffectful (depth, id)) ++
                ((((program.arena.operands id).map ((depth + 1, ·)) ++ rest).flatMap fun shown =>
                  program.arena.preorderAt shown.1 shown.2).map
                    (program.lineOf palette program.isEffectful)).toArray := by
            apply Array.toList_inj.mp
            simp [wf.preorderAt_eq depth id, List.flatMap_map]
          rw [nodeLinesWithin, hshown]
          exact (answers_nodeLine depth id).bind hrest

theorem any_postorder (wf : program.arena.WellFormed) (depth : Nat) (root : NodeId)
    (hasEffect : NodeId → Bool) : (program.arena.postorder root).any hasEffect =
      (program.arena.preorderAt depth root).any fun shown => hasEffect shown.2 := by
  rw [← (wf.preorderAt_perm depth root).any_eq, List.any_map]
  rfl

theorem answers_treeLines (wf : program.arena.WellFormed) (discarded : Discard) :
    Remembering.Answers program.types (program.treeLines palette discarded)
      ((program.arena.preorderAt 1 discarded.value).map (program.lineOf palette program.isEffectful) ++
        [closing palette discarded.site
          ((program.arena.preorderAt 1 discarded.value).any fun shown =>
            program.isEffectful shown.2)]) := by
  have hsteps : ([(1, discarded.value)].map fun shown : Nat × NodeId =>
      program.treeSize shown.2).sum ≤ discarded.value.index + 1 := by
    simpa [treeSize] using wf.length_postorder_le discarded.value
  have hlines : Remembering.Answers program.types
      (program.nodeLinesWithin palette (discarded.value.index + 1) [(1, discarded.value)] #[])
      ((program.arena.preorderAt 1 discarded.value).map
        (program.lineOf palette program.isEffectful)).toArray := by
    simpa using answers_nodeLinesWithin wf _ _ #[] hsteps
  have heffect := answers_hasEffect wf discarded.value
  rw [any_postorder wf 1] at heffect
  exact hlines.bind (heffect.bind (.pure _))

-- The dump of a program, given the lines of each tree.
def dumpOf (program : Program) (trees : Discard → List String) : String :=
  let functions := (program.bodies.toList.filter (·.body.isSome)).map fun function =>
    ("fn " ++ program.functionName function.function) :: function.discards.flatMap trees
  "\n".intercalate (functions.map fun lines => String.join (lines.map (· ++ "\n")))

section Trees

variable {trees : Discard → List String}
  (htrees : ∀ discarded, Remembering.Answers program.types (program.treeLines palette discarded)
    (trees discarded))

include htrees

theorem answers_treesLines (discards : List Discard) :
    Remembering.Answers program.types (program.treesLines palette discards)
      (discards.flatMap trees) := by
  induction discards with
  | nil => exact .pure []
  | cons first rest ih =>
      rw [treesLines, List.flatMap_cons]
      exact (htrees first).bind (ih.bind (.pure _))

theorem answers_functionLines (function : FunctionBody) :
    Remembering.Answers program.types (program.functionLines palette function)
      (("fn " ++ program.functionName function.function) :: function.discards.flatMap trees) :=
  (answers_treesLines htrees function.discards).bind (.pure _)

theorem answers_functionsLines (functions : List FunctionBody) :
    Remembering.Answers program.types (program.functionsLines palette functions)
      (functions.map fun function => ("fn " ++ program.functionName function.function) ::
        function.discards.flatMap trees) := by
  induction functions with
  | nil => exact .pure []
  | cons first rest ih =>
      rw [functionsLines, List.map_cons]
      exact (answers_functionLines htrees first).bind (ih.bind (.pure _))

theorem answers_dump :
    Remembering.Answers program.types (program.dump palette) (program.dumpOf trees) :=
  (answers_functionsLines htrees _).bind (.pure _)

end Trees

theorem forM_discard_memo (wf : program.arena.WellFormed) (values : List Discard)
    (checking : Checking) (hmemo : checking.memo.Sound program.types) :
    (values.forM (fun discarded => program.discard discarded.value) checking).2.memo.Sound
      program.types := by
  induction values generalizing checking with
  | nil => exact hmemo
  | cons first rest ih => exact ih _ (discard_memo wf first.value checking hmemo)

end Program

theorem ParsedModule.analyze_memo (parsed : ParsedModule) :
    parsed.analyze.memo.Sound parsed.analyze.program.types :=
  Program.forM_discard_memo parsed.lowered_wellFormed _ _ (PurityMemo.sound_empty _)

-- A dump shows the tree of each value that is thrown away: its nodes in preorder, none of them twice,
-- the root with depth one and every other node one deeper than its parent. A line starts with two
-- blanks for each level of its node. The last line says whether one of the nodes is marked, which the
-- walk through the tree finds out by itself.
theorem AnalyzedModule.dump_shows_trees (parsed : ParsedModule) (isColored : Bool) :
    let analyzed := parsed.analyze
    let program := analyzed.program
    let palette := Palette.choose isColored
    let hasEffect (id : NodeId) := (program.hasShallowEffect id analyzed.memo).1
    let trees (discarded : Discard) := (program.treeLines palette discarded analyzed.memo).1
    analyzed.dump isColored = program.dumpOf trees ∧
    (∀ depth id, program.arena.preorderAt depth id =
      (depth, id) :: (program.arena.operands id).flatMap (program.arena.preorderAt (depth + 1))) ∧
    ∀ discarded : Discard,
      let nodes := program.arena.preorderAt 1 discarded.value
      (nodes.map Prod.snd).Nodup ∧
      (∀ id, id ∈ nodes.map Prod.snd ↔ program.arena.Below discarded.value id) ∧
      (program.hasEffect discarded.value analyzed.memo).1 =
        nodes.any (fun shown => hasEffect shown.2) ∧
      trees discarded = (nodes.map fun shown =>
          String.ofList (List.replicate (2 * shown.1) ' ') ++ program.nodeText palette shown.2 ++
            Program.mark palette (hasEffect shown.2)) ++
        [Program.closing palette discarded.site (nodes.any fun shown => hasEffect shown.2)] := by
  intro analyzed program palette hasEffect trees
  have wf : program.arena.WellFormed := parsed.lowered_wellFormed
  have hmemo : analyzed.memo.Sound program.types := parsed.analyze_memo
  have heffect : hasEffect = program.isEffectful :=
    funext fun id => (Program.answers_hasShallowEffect id _ hmemo).1
  have htrees : ∀ discarded, trees discarded = _ := fun discarded =>
    (Program.answers_treeLines wf discarded _ hmemo).1
  refine ⟨?_, wf.preorderAt_eq, fun discarded => ⟨wf.preorderAt_nodup 1 _, fun _ =>
    wf.mem_preorderAt_iff, ?_, ?_⟩⟩
  · refine (Program.answers_dump (fun discarded => ?_) _ hmemo).1
    rw [htrees]
    exact Program.answers_treeLines wf discarded
  · rw [(Program.answers_hasEffect wf discarded.value _ hmemo).1, Program.any_postorder wf 1, heffect]
  · rw [htrees, heffect]
    rfl

-- The dump of a loop whose body is an assignment, with the step behind it, and of a value of its own.
def loopDump : String :=
  "fn f\n" ++
  "  Assign int !\n" ++
  "    Var g int\n" ++
  "    Binary + int\n" ++
  "      Var i int\n" ++
  "      IntLiteral 1 int\n" ++
  "  statement effect: yes\n" ++
  "  Increment int !\n" ++
  "    Var i int\n" ++
  "  for step effect: yes\n" ++
  "  Var i int\n" ++
  "  statement effect: no\n"

theorem AnalyzedModule.dump_shows_trees_of_loop :
    ∃ parsed, ParsedModule.read "int g; void f(int i) { for (; ; i++) g = i + 1; i; }".toList .usual =
        .ok parsed ∧
      let program := parsed.analyze.program
      program.arena.preorderAt 1 ⟨6⟩ = [(1, ⟨6⟩), (2, ⟨2⟩), (2, ⟨5⟩), (3, ⟨3⟩), (3, ⟨4⟩)] ∧
      program.dumpOf (fun discarded =>
        (program.treeLines .plain discarded parsed.analyze.memo).1) = loopDump := by
  obtain ⟨parsed, hread, hseen⟩ : ∃ parsed, ParsedModule.read
      "int g; void f(int i) { for (; ; i++) g = i + 1; i; }".toList .usual = .ok parsed ∧
      (parsed.analyze.program.arena.preorderAt 1 ⟨6⟩, parsed.analyze.dump false) =
        ([(1, ⟨6⟩), (2, ⟨2⟩), (2, ⟨5⟩), (3, ⟨3⟩), (3, ⟨4⟩)], loopDump) :=
    ParsedModule.exists_read (by decide +kernel)
  obtain ⟨hnodes, htext⟩ := Prod.mk.inj hseen
  obtain ⟨hdump, -, -⟩ := dump_shows_trees parsed false
  exact ⟨parsed, hread, hnodes, hdump.symm.trans htext⟩

end EffectLint
