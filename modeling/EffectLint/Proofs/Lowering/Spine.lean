import EffectLint.Proofs.Lowering.Steps
import EffectLint.Proofs.Tree.Induction
import Mathlib.Logic.ExistsUnique

/-!
Lowering along the spine of first operands. One may go down to the leaf of the spine first and make
the nodes on the way back up, or lower every operand where its expression needs it. Both are the
same, because a first operand is lowered before anything else happens.
-/

namespace EffectLint

theorem Expr.mem_parts_of_firstOperand? {written operand : Expr}
    (hfirst : written.firstOperand? = some operand) : operand ∈ written.parts := by
  rw [parts_eq_operands, hfirst]
  exact List.mem_cons_self

namespace Lower

section Spine

variable (source : List Char) (lower : Expr → Lower NodeId)

-- The first operand of an expression, which may have been lowered already.
def operand (first : Option NodeId) (written : Expr) : Lower NodeId :=
  match first with
  | some id => return id
  | none => lower written

-- An expression whose operands `lower` takes care of, but for a first one that is given.
def around (first : Option NodeId) : Expr → Lower NodeId
  | .Identifier span name => nameNode name span
  | .Integer span value => integerNode value span
  | .Text span text => leaf (.Text text) .string span
  | .Boolean span value => leaf (.Boolean value) .bool span
  | .Null span => leaf .Null .null span
  | .Paren _ inner => operand lower first inner
  | .Binary span op left right => do
      let left ← operand lower first left
      let right ← lower right
      connectiveNode source op span left right
  | .Assign span op target value => do
      let target ← operand lower first target
      let value ← lower value
      assignNode op span target value
  | .Conditional span condition yes no => do
      let condition ← operand lower first condition
      let yes ← lower yes
      let no ← lower no
      conditionalNode span condition yes no
  | .Comma span left right => do
      let left ← operand lower first left
      let right ← lower right
      commaNode span left right
  | .Leading span op inner => do
      leadingNode source op span (← operand lower first inner)
  | .Step span op inner => do
      stepNode op span (← operand lower first inner)
  | .Cast span written inner => do
      let target ← type written
      castNode target span (← lower inner)
  | .New span name => newNode name span
  | .NewAnonymous span => newAnonymousNode span
  | .Call span callee arguments => do
      let callee ← operand lower first callee
      let arguments ← arguments.mapM lower
      callNode source span callee arguments
  | .Index span base index => do
      let base ← operand lower first base
      let index ← lower index
      indexNode source span base index
  | .Remove span container key => do
      let container ← operand lower first container
      let key ← lower key
      removeNode source span container key
  | .Tuple span elements => do
      tupleNode span (← elements.mapM lower)
  | .Assert span condition message => do
      let lowered ← lower condition
      let message ← message.mapM lower
      assertNode condition.isFalseLiteral span lowered message
  | .Declare span name value => do
      let value ← lower value
      let type := (← typeOf value).getD .error
      let id ← declareVariable name type false
      declareNode id name span (some value)
  | .Compiles span inner => do
      let compiles ← accepts (lower inner)
      leaf (.Boolean compiles) .bool span
  | .Error span => errorNode span

-- Down the spine to its leaf, with the expressions passed on the way, the innermost in front.
def descend (written : Expr) (passed : List Expr) : Expr × List Expr :=
  match hfirst : written.firstOperand? with
  | some operand =>
      have _ := Expr.sizeOf_part (Expr.mem_parts_of_firstOperand? hfirst)
      descend operand (written :: passed)
  | none => (written, passed)
termination_by sizeOf written

-- The leaf of the spine, and then one expression after the other on the way up.
def alongSpine (written : Expr) : Lower NodeId := do
  let (innermost, passed) := descend written []
  let id ← around source lower none innermost
  passed.foldlM (fun id outer => around source lower (some id) outer) id

end Spine

section Plain

variable (source : List Char)

mutual

-- Every operand where its expression needs it.
def plain : Expr → Lower NodeId
  | .Identifier span name => nameNode name span
  | .Integer span value => integerNode value span
  | .Text span text => leaf (.Text text) .string span
  | .Boolean span value => leaf (.Boolean value) .bool span
  | .Null span => leaf .Null .null span
  | .Paren _ inner => plain inner
  | .Binary span op left right => do
      let left ← plain left
      let right ← plain right
      connectiveNode source op span left right
  | .Assign span op target value => do
      let target ← plain target
      let value ← plain value
      assignNode op span target value
  | .Conditional span condition yes no => do
      let condition ← plain condition
      let yes ← plain yes
      let no ← plain no
      conditionalNode span condition yes no
  | .Comma span left right => do
      let left ← plain left
      let right ← plain right
      commaNode span left right
  | .Leading span op inner => do
      leadingNode source op span (← plain inner)
  | .Step span op inner => do
      stepNode op span (← plain inner)
  | .Cast span written inner => do
      let target ← type written
      castNode target span (← plain inner)
  | .New span name => newNode name span
  | .NewAnonymous span => newAnonymousNode span
  | .Call span callee arguments => do
      let callee ← plain callee
      let arguments ← plainEach arguments
      callNode source span callee arguments
  | .Index span base index => do
      let base ← plain base
      let index ← plain index
      indexNode source span base index
  | .Remove span container key => do
      let container ← plain container
      let key ← plain key
      removeNode source span container key
  | .Tuple span elements => do
      tupleNode span (← plainEach elements)
  | .Assert span condition none => do
      let lowered ← plain condition
      assertNode condition.isFalseLiteral span lowered none
  | .Assert span condition (some message) => do
      let lowered ← plain condition
      let message ← plain message
      assertNode condition.isFalseLiteral span lowered (some message)
  | .Declare span name value => do
      let value ← plain value
      let type := (← typeOf value).getD .error
      let id ← declareVariable name type false
      declareNode id name span (some value)
  | .Compiles span inner => do
      let compiles ← accepts (plain inner)
      leaf (.Boolean compiles) .bool span
  | .Error span => errorNode span

def plainEach : List Expr → Lower (List NodeId)
  | [] => return []
  | first :: rest => do
      let first ← plain first
      return first :: (← plainEach rest)

end

end Plain

section Same

variable {source : List Char} {lower other : Expr → Lower NodeId}

-- Nothing happens before the first operand is lowered, so that can be done beforehand.
theorem around_none_of_first {written operand : Expr}
    (hfirst : written.firstOperand? = some operand) :
    around source lower none written =
      lower operand >>= fun id => around source lower (some id) written := by
  cases written <;> simp only [Expr.firstOperand?, reduceCtorEq, Option.some.injEq] at hfirst <;>
    subst hfirst <;>
    simp only [around, Lower.operand, pure_bind, bind_pure]

theorem descend_append (written : Expr) (passed : List Expr) :
    descend written passed = ((descend written []).1, (descend written []).2 ++ passed) := by
  induction written using Expr.induction generalizing passed with
  | step whole ih =>
      rw [descend, descend]
      split
      · next operand hfirst =>
        have hpart := Expr.mem_parts_of_firstOperand? hfirst
        rw [ih operand hpart (whole :: passed), ih operand hpart [whole], List.append_assoc,
          List.singleton_append]
      · rfl

theorem alongSpine_of_first {written operand : Expr}
    (hfirst : written.firstOperand? = some operand) :
    alongSpine source lower written =
      alongSpine source lower operand >>= fun id => around source lower (some id) written := by
  have hdescend : descend written [] = descend operand [written] := by
    rw [descend]
    split
    · next first hsome =>
      cases hfirst.symm.trans hsome
      rfl
    · next hnone => cases hfirst.symm.trans hnone
  unfold alongSpine
  rw [hdescend, descend_append operand [written]]
  simp only [List.foldlM_append, List.foldlM_cons, List.foldlM_nil, bind_assoc, bind_pure]

theorem alongSpine_of_no_first {written : Expr} (hfirst : written.firstOperand? = none) :
    alongSpine source lower written = around source lower none written := by
  have hdescend : descend written [] = (written, []) := by
    rw [descend]
    split
    · next first hsome => cases hfirst.symm.trans hsome
    · rfl
  unfold alongSpine
  rw [hdescend]
  simp only [List.foldlM_nil, bind_pure]

-- Lowering that goes along the spine makes the nodes as plain recursion does, and the other way
-- round.
theorem alongSpine_iff :
    (∀ written, lower written = alongSpine source lower written) ↔
      ∀ written, lower written = around source lower none written := by
  constructor
  · intro h written
    rw [h written]
    cases hfirst : written.firstOperand? with
    | none => exact alongSpine_of_no_first hfirst
    | some operand => rw [alongSpine_of_first hfirst, ← h operand, around_none_of_first hfirst]
  · intro h written
    induction written using Expr.induction with
    | step whole ih =>
        rw [h whole]
        cases hfirst : whole.firstOperand? with
        | none => exact (alongSpine_of_no_first hfirst).symm
        | some operand =>
            have hoperand := ih operand (Expr.mem_parts_of_firstOperand? hfirst)
            rw [alongSpine_of_first hfirst, ← hoperand, around_none_of_first hfirst]

theorem around_congr {written : Expr} (h : ∀ part ∈ written.parts, lower part = other part) :
    around source lower none written = around source other none written := by
  have hmapM : ∀ parts : List Expr, (∀ part ∈ parts, lower part = other part) →
      parts.mapM lower = parts.mapM other := by
    intro parts hparts
    induction parts with
    | nil => rfl
    | cons first rest ih =>
        rw [List.forall_mem_cons] at hparts
        rw [List.mapM_cons, List.mapM_cons, hparts.1, ih hparts.2]
  cases written with
  | Call span callee arguments =>
      rw [Expr.parts, List.forall_mem_cons] at h
      simp only [around, operand, h.1, hmapM arguments h.2]
  | Tuple span elements => simp only [around, hmapM elements h]
  | Assert span condition message =>
      rw [Expr.parts, List.forall_mem_cons] at h
      cases message with
      | none => simp only [around, h.1, Option.mapM_none]
      | some message => simp only [around, h.1, Option.mapM_some, h.2 message (by simp)]
  | _ =>
      simp only [Expr.parts, List.forall_mem_cons, List.not_mem_nil, false_implies, implies_true,
        and_true] at h
      simp only [around, operand, h]

theorem eq_of_around (hlower : ∀ written, lower written = around source lower none written)
    (hother : ∀ written, other written = around source other none written) : lower = other := by
  funext written
  induction written using Expr.induction with
  | step whole ih => rw [hlower whole, hother whole, around_congr ih]

end Same

section Main

variable (source : List Char)

theorem plainEach_eq (written : List Expr) :
    plainEach source written = written.mapM (plain source) := by
  induction written with
  | nil => rw [plainEach, List.mapM_nil]
  | cons first rest ih => rw [plainEach, List.mapM_cons, ih]

theorem plain_eq_around (written : Expr) :
    plain source written = around source (plain source) none written := by
  cases written with
  | Assert span condition message =>
      cases message <;>
        simp only [plain, around, Option.mapM_none, Option.mapM_some, pure_bind, map_eq_pure_bind,
          bind_assoc]
  | _ => simp only [plain, around, operand, plainEach_eq]

theorem expr_eq_around (written : Expr) :
    expr source written = around source (expr source) none written := by
  rw [expr_eq]
  cases written <;> rfl

-- Going along the spine determines how expressions are lowered, and it is how they are. For every
-- expression and in every state, plain recursion gives the same node and leaves the same state.
theorem expr_is_alongSpine_and_plain :
    (∃! lower : Expr → Lower NodeId, ∀ written, lower written = alongSpine source lower written) ∧
    (∀ written, expr source written = alongSpine source (expr source) written) ∧
    ∀ written state, expr source written state = plain source written state := by
  have hexpr : expr source = plain source :=
    eq_of_around (expr_eq_around source) (plain_eq_around source)
  have hspine := alongSpine_iff.mpr (expr_eq_around source)
  refine ⟨⟨expr source, hspine, fun lower hlower => ?_⟩, hspine, fun written state => ?_⟩
  · exact eq_of_around (alongSpine_iff.mp hlower) (expr_eq_around source)
  · rw [hexpr]

end Main

end Lower

end EffectLint
