import EffectLint.Proofs.Grammar.Written
import EffectLint.Proofs.Lowering.Makers
import EffectLint.Proofs.Lowering.Types

/-!
An expression is lowered in three steps: the type it is written with, its parts from left to
right, and what is made of them. A question is the exception, for its part is lowered under a gag.
-/

namespace EffectLint

namespace Expr

def isQuestion : Expr → Bool
  | .Compiles _ _ => true
  | _ => false

end Expr

namespace Lower

def prepare : Expr → Lower TypeId
  | .Cast _ written _ => type written
  | _ => return .error

variable (source : List Char)

-- What is made of the lowered parts of an expression.
def make : Expr → TypeId → List NodeId → Lower NodeId
  | .Identifier span name, _, _ => nameNode name span
  | .Integer span value, _, _ => integerNode value span
  | .Text span text, _, _ => leaf (.Text text) .string span
  | .Boolean span value, _, _ => leaf (.Boolean value) .bool span
  | .Null span, _, _ => leaf .Null .null span
  | .Paren _ _, _, [inner] => return inner
  | .Binary span op _ _, _, [left, right] => connectiveNode source op span left right
  | .Assign span op _ _, _, [target, value] => assignNode op span target value
  | .Conditional span _ _ _, _, [condition, yes, no] => conditionalNode span condition yes no
  | .Comma span _ _, _, [first, second] => commaNode span first second
  | .Leading span op _, _, [operand] => leadingNode source op span operand
  | .Step span op _, _, [operand] => stepNode op span operand
  | .Cast span _ _, target, [operand] => castNode target span operand
  | .New span name, _, _ => newNode name span
  | .NewAnonymous span, _, _ => newAnonymousNode span
  | .Call span _ _, _, callee :: arguments => callNode source span callee arguments
  | .Index span _ _, _, [base, index] => indexNode source span base index
  | .Remove span _ _, _, [container, key] => removeNode source span container key
  | .Tuple span _, _, elements => tupleNode span elements
  | .Assert span condition _, _, lowered :: message =>
      assertNode condition.isFalseLiteral span lowered message.head?
  | .Declare span name _, _, [value] => do
      let type := (← typeOf value).getD .error
      let id ← declareVariable name type false
      declareNode id name span (some value)
  | whole, _, _ => errorNode whole.span

theorem expr_eq_parts {whole : Expr} (h : whole.isQuestion = false) :
    expr source whole = (do
      let target ← prepare whole
      let ids ← whole.parts.mapM (expr source)
      make source whole target ids) := by
  rw [expr_eq]
  cases whole with
  | Compiles span operand => cases h
  | Assert span condition message =>
      cases message <;>
        simp only [prepare, Expr.parts, make, List.mapM_cons, List.mapM_nil, pure_bind, bind_assoc,
          Option.mapM_none, Option.mapM_some, map_eq_pure_bind, Option.toList, List.head?_nil,
          List.head?_cons]
  | Error span => simp only [prepare, Expr.parts, make, List.mapM_nil, pure_bind, Expr.span]
  | _ =>
      simp only [prepare, Expr.parts, make, List.mapM_cons, List.mapM_nil, pure_bind, bind_assoc,
        bind_pure]

def RightTarget (scopes : Scopes) (whole : Expr) (program : Program) (target : TypeId) : Prop :=
  match whole with
  | .Cast _ _ _ => RightType scopes program target
  | _ => True

-- The node of an expression that is right, and is a false literal just where the expression is.
def RightNode (scopes : Scopes) (whole : Expr) (program : Program) (id : NodeId) : Prop :=
  program.Made scopes id ∧ (program.arena.kind id).isFalse = whole.isFalseLiteral

def RightNodes (scopes : Scopes) (parts : List Expr) (program : Program) (ids : List NodeId) :
    Prop :=
  List.Forall₂ (RightNode scopes · program ·) parts ids

end Lower

namespace Program

theorem Made.kind_ne_error {program : Program} {scopes : Scopes} {id : NodeId}
    (h : program.Made scopes id) : program.arena.kind id ≠ .Error := by
  cases h with
  | @intro id node hnode hmakes =>
      rw [Arena.kind_of_node? hnode]
      intro herror
      rw [herror] at hmakes
      exact hmakes

end Program

namespace Lower

variable {program : Program} {scopes : Scopes}

theorem RightNodes.right {parts : List Expr} {ids : List NodeId}
    (h : RightNodes scopes parts program ids) : Right program ids := by
  induction h with
  | nil => exact fun _ hmem => nomatch hmem
  | cons hfirst _ ih => exact List.forall_mem_cons.mpr ⟨hfirst.1.kind_ne_error, ih⟩

theorem RightNodes.made {parts : List Expr} {ids : List NodeId}
    (h : RightNodes scopes parts program ids) : ∀ id ∈ ids, program.Made scopes id := by
  induction h with
  | nil => exact fun _ hmem => nomatch hmem
  | cons hfirst _ ih => exact List.forall_mem_cons.mpr ⟨hfirst.1, ih⟩

-- The condition of an assertion is a false literal just where it is written as one.
def RightCondition (whole : Expr) (program : Program) (ids : List NodeId) : Prop :=
  match whole, ids with
  | .Assert _ condition _, id :: _ => (program.arena.kind id).isFalse = condition.isFalseLiteral
  | _, _ => True

theorem RightNodes.condition {whole : Expr} {ids : List NodeId}
    (h : RightNodes scopes whole.parts program ids) : RightCondition whole program ids := by
  cases whole with
  | Assert span condition message =>
      cases h with
      | cons hcondition _ => exact hcondition.2
  | _ => exact trivial

-- What was made of the message of an assertion, if there is one.
theorem toList_head? {ids : List NodeId} {message : Option Expr}
    (h : ids.length = message.toList.length) : ids.head?.toList = ids := by
  cases message with
  | none =>
      obtain rfl := List.eq_nil_of_length_eq_zero h
      rfl
  | some message =>
      obtain ⟨only, rfl⟩ := List.length_eq_one_iff.mp h
      rfl

-- Each expression makes one node, but for parentheses, declarations and questions.
theorem make_makes (hsound : program.Sound scopes) (source : List Char) {whole : Expr}
    (hwhole : (∀ span inner, whole ≠ .Paren span inner) ∧
      (∀ span name value, whole ≠ .Declare span name value) ∧ whole.isQuestion = false)
    {target : TypeId} (htarget : program.types.Known target) {ids : List NodeId}
    (hids : ids.length = whole.parts.length) :
    MakesAt (whole.WellWritten ∧ RightTarget scopes whole program target ∧ Right program ids ∧
        RightCondition whole program ids) whole.isFalseLiteral ids
      (make source whole target ids) program scopes := by
  have hright : whole.WellWritten ∧ RightTarget scopes whole program target ∧ Right program ids ∧
      RightCondition whole program ids → Right program ids := fun h => h.2.2.1
  cases whole with
  | Paren span inner => exact absurd rfl (hwhole.1 span inner)
  | Declare span name value => exact absurd rfl (hwhole.2.1 span name value)
  | Compiles span operand => cases hwhole.2.2
  | Identifier span name =>
      obtain rfl := List.eq_nil_of_length_eq_zero hids
      exact (nameNode_makes hsound name span).imp And.left
  | Integer span value =>
      obtain rfl := List.eq_nil_of_length_eq_zero hids
      exact (integerNode_makes hsound value span).imp And.left
  | Text span text =>
      obtain rfl := List.eq_nil_of_length_eq_zero hids
      exact .leaf hsound (hsound.closed.known_ofBasic .Text) (by simp [NodeKind.operands])
        fun h => ⟨⟨h.1, rfl⟩, rfl⟩
  | Boolean span value =>
      obtain rfl := List.eq_nil_of_length_eq_zero hids
      exact .leaf hsound (hsound.closed.known_ofBasic .Boolean) (by simp [NodeKind.operands])
        fun _ => ⟨rfl, rfl⟩
  | Null span =>
      obtain rfl := List.eq_nil_of_length_eq_zero hids
      exact .leaf hsound hsound.closed.known_null (by simp [NodeKind.operands])
        fun _ => ⟨rfl, rfl⟩
  | New span name =>
      obtain rfl := List.eq_nil_of_length_eq_zero hids
      exact (newNode_makes hsound name span).imp And.left
  | NewAnonymous span =>
      obtain rfl := List.eq_nil_of_length_eq_zero hids
      exact (newAnonymousNode_makes hsound span).imp fun _ => trivial
  | Error span =>
      exact .silentError hsound span fun h => h.1
  | Binary span op left right =>
      obtain ⟨left, right, rfl⟩ := List.length_eq_two.mp hids
      exact (connectiveNode_makes hsound source span op left right).imp hright
  | Assign span op written value =>
      obtain ⟨written, value, rfl⟩ := List.length_eq_two.mp hids
      exact (assignNode_makes hsound span op written value).imp hright
  | Conditional span condition yes no =>
      obtain ⟨condition, yes, no, rfl⟩ := List.length_eq_three.mp hids
      exact (conditionalNode_makes hsound span condition yes no).imp hright
  | Comma span first second =>
      obtain ⟨first, second, rfl⟩ := List.length_eq_two.mp hids
      exact (commaNode_makes hsound span first second).imp hright
  | Leading span op operand =>
      obtain ⟨operand, rfl⟩ := List.length_eq_one_iff.mp hids
      exact (leadingNode_makes hsound source span op operand).imp hright
  | Step span op operand =>
      obtain ⟨operand, rfl⟩ := List.length_eq_one_iff.mp hids
      exact (stepNode_makes hsound span op operand).imp hright
  | Cast span written operand =>
      obtain ⟨operand, rfl⟩ := List.length_eq_one_iff.mp hids
      exact (castNode_makes hsound span htarget operand).imp fun h =>
        ⟨h.2.1.1, h.2.1.2, hright h⟩
  | Call span callee arguments =>
      obtain ⟨callee, arguments, rfl⟩ := List.exists_cons_of_length_eq_add_one hids
      exact (callNode_makes hsound source span callee arguments).imp hright
  | Index span base index =>
      obtain ⟨base, index, rfl⟩ := List.length_eq_two.mp hids
      exact (indexNode_makes hsound source span base index).imp hright
  | Remove span container key =>
      obtain ⟨container, key, rfl⟩ := List.length_eq_two.mp hids
      exact (removeNode_makes hsound source span container key).imp hright
  | Tuple span elements => exact (tupleNode_makes hsound span ids).imp hright
  | Assert span condition message =>
      obtain ⟨lowered, rest, rfl⟩ := List.exists_cons_of_length_eq_add_one hids
      have hrest : rest.head?.toList = rest := toList_head? (by simpa [Expr.parts] using hids)
      have hmakes := assertNode_makes hsound span condition.isFalseLiteral lowered rest.head?
      rw [hrest] at hmakes
      exact hmakes.imp fun h => ⟨hright h, h.2.2.2⟩

theorem MakesOne.node? {fine : Prop} {isFalse : Bool} {ids : List NodeId} {made : Program}
    {node : Node} {told : List Diagnostic}
    (h : MakesOne fine isFalse ids program scopes made node told) :
    (made.addNode node).arena.node? ⟨program.arena.size⟩ = some node := by
  have hsize : made.arena.size = program.arena.size := by rw [h.arena]
  rw [← hsize]
  exact Array.getElem?_push_size

def HasNode (program : Program) (id : NodeId) : Prop :=
  id.index < program.arena.size

def HasNodes (parts : List Expr) (program : Program) (ids : List NodeId) : Prop :=
  ids.length = parts.length ∧ ∀ id ∈ ids, HasNode program id

theorem HasNode.extends {large small : Program} (hextends : large.Extends small) {id : NodeId}
    (h : HasNode small id) : HasNode large id := by
  have hlarge := hextends.nodes id.index _ (Array.getElem?_eq_getElem h)
  exact (Array.getElem?_eq_some_iff.mp hlarge).1

-- A node is right where the nodes below it are.
theorem MakesAt.stays {fine : Prop} {isFalse : Bool} {ids : List NodeId} {body : Lower NodeId}
    (hsound : program.Sound scopes) (h : MakesAt fine isFalse ids body program scopes)
    (hids : ∀ id ∈ ids, HasNode program id) (hmade : fine → ∀ id ∈ ids, program.Made scopes id) :
    StaysAt fine body HasNode
      (fun made id => made.Made scopes id ∧ (made.arena.kind id).isFalse = isFalse) program
      scopes := by
  obtain ⟨made, node, told, hone, hrun⟩ := h
  have hnode := hone.node?
  have hadded : (made.addNode node).Sound scopes := hone.sound.addNode hone.type
  have hgrows : (made.addNode node).Extends program :=
    hone.grows.trans (made.addNode_extends node)
  refine ⟨made.addNode node, ⟨program.arena.size⟩, told, hgrows, hadded, ?_, ?_, hrun⟩
  · exact (Array.getElem?_eq_some_iff.mp hnode).1
  · intro htold hfine
    obtain ⟨hmakes, hisFalse⟩ := hone.right htold hfine
    refine ⟨.intro hnode (hmakes.extends (made.addNode_extends node) hone.sound ?_) ?_ ?_, ?_⟩
    · intro operand hmem
      exact ⟨_, hone.grows.nodes _ _ (Array.getElem?_eq_getElem (hids _ (hone.operands _ hmem)))⟩
    · exact fun operand hmem => hids operand (hone.operands operand hmem)
    · intro operand hmem
      exact (hmade hfine operand (hone.operands operand hmem)).extends hgrows hsound
    · rw [Arena.kind_of_node? hnode, hisFalse]

theorem prepare_stays (hsound : program.Sound scopes) (whole : Expr) :
    StaysAt whole.WellWritten (prepare whole) KnownType (RightTarget scopes whole) program
      scopes := by
  cases whole with
  | Cast span written operand => exact type_enters id hsound
  | _ => exact .pure hsound hsound.closed.known_error fun _ => trivial

theorem RightTarget.extends {large small : Program} (hextends : large.Extends small) {whole : Expr}
    {target : TypeId} (h : RightTarget scopes whole small target) :
    RightTarget scopes whole large target := by
  cases whole with
  | Cast span written operand => exact RightType.extends hextends h
  | _ => exact trivial

theorem RightNode.extends {large small : Program} (hextends : large.Extends small)
    (hsound : small.Sound scopes) {whole : Expr} {id : NodeId}
    (h : RightNode scopes whole small id) : RightNode scopes whole large id := by
  refine ⟨h.1.extends hextends hsound, ?_⟩
  cases h.1 with
  | intro hnode =>
      obtain ⟨hlarge, hsmall⟩ := hextends.node_eq hnode
      rw [← h.2, Arena.kind, Arena.kind, hlarge, hsmall]

-- What holds of each part holds of all of them in turn.
theorem parts_stay {source : List Char} {fine : Prop} {parts : List Expr}
    (hparts : ∀ part ∈ parts, ∀ (program : Program) (fine' : Prop), (fine' → fine) →
      program.Sound scopes →
      StaysAt fine' (expr source part) HasNode (RightNode scopes part) program scopes)
    (hsound : program.Sound scopes) {fine' : Prop} (hfine : fine' → fine) :
    StaysAt fine' (parts.mapM (expr source)) (HasNodes parts) (RightNodes scopes parts) program
      scopes := by
  induction parts generalizing program fine' with
  | nil =>
      rw [List.mapM_nil]
      exact .pure hsound ⟨rfl, fun _ hmem => nomatch hmem⟩ fun _ => .nil
  | cons first rest ih =>
      rw [List.mapM_cons]
      refine (hparts first List.mem_cons_self program fine' hfine hsound).bind
        fun one id _ hone hid => ?_
      refine (ih (fun part hmem => hparts part (List.mem_cons_of_mem _ hmem)) hone
        fun h => hfine h.1).bind fun all ids hgrows hall hids => ?_
      refine .pure hall ⟨by simp [hids.1], ?_⟩ fun h => ?_
      · exact List.forall_mem_cons.mpr ⟨hid.extends hgrows, hids.2⟩
      · exact .cons (h.1.2.extends hgrows hone) h.2

-- Lowering an expression without declarations and questions. Where nothing is said, the whole
-- tree that it makes is right.
theorem expr_stays (source : List Char) {whole : Expr} (hasks : ¬whole.Asks)
    (hdeclares : ¬whole.Declares) {fine : Prop} (hfine : fine → whole.AllWritten)
    (hsound : program.Sound scopes) :
    StaysAt fine (expr source whole) HasNode (RightNode scopes whole) program scopes := by
  induction whole using Expr.induction generalizing program fine with
  | step whole ih =>
      have hquestion : whole.isQuestion = false := by
        cases whole with
        | Compiles span operand => exact absurd (Expr.asks_Compiles span operand) hasks
        | _ => rfl
      have hparts : ∀ part ∈ whole.parts, ∀ (program : Program) (fine' : Prop), (fine' → fine) →
          program.Sound scopes →
          StaysAt fine' (expr source part) HasNode (RightNode scopes part) program scopes :=
        fun part hpart program fine' himp hsound =>
          ih part hpart (fun h => hasks (h.of_part hpart)) (fun h => hdeclares (h.of_part hpart))
            (fun h => (hfine (himp h)).part hpart) hsound
      rw [expr_eq_parts source hquestion]
      have hprepare : StaysAt fine (prepare whole) KnownType (RightTarget scopes whole) program
          scopes := (prepare_stays hsound whole).imp (fun h => (hfine h).here) (fun _ _ => id)
            fun _ _ => id
      refine hprepare.bind fun one target _ hone htarget => ?_
      refine (parts_stay hparts hone fun h => h.1).bind fun made ids hgrows hmade hids => ?_
      have htarget' : made.types.Known target := htarget.keeps hgrows.types
      by_cases hparen : ∃ span inner, whole = .Paren span inner
      · obtain ⟨span, inner, rfl⟩ := hparen
        obtain ⟨id, rfl⟩ := List.length_eq_one_iff.mp hids.1
        refine .pure hmade (hids.2 id (List.mem_singleton_self id)) fun h => ?_
        cases h.2 with
        | cons hinner _ => exact ⟨hinner.1, by rw [hinner.2, Expr.isFalseLiteral]⟩
      · have hwhole : (∀ span inner, whole ≠ .Paren span inner) ∧
            (∀ span name value, whole ≠ .Declare span name value) ∧ whole.isQuestion = false := by
          refine ⟨fun span inner h => hparen ⟨span, inner, h⟩, ?_, hquestion⟩
          rintro span name value rfl
          exact hdeclares (Expr.declares_Declare span name value)
        have hmakes := (make_makes hmade source hwhole htarget' hids.1).imp
          fun h : whole.WellWritten ∧ RightTarget scopes whole made target ∧
            RightNodes scopes whole.parts made ids => ⟨h.1, h.2.1, h.2.2.right, h.2.2.condition⟩
        refine (hmakes.stays hmade hids.2 fun h => h.2.2.made).imp ?_ (fun _ _ => id) fun _ _ => id
        exact fun h => ⟨(hfine h.1.1).here, h.1.2.extends hgrows, h.2⟩

end Lower

end EffectLint
