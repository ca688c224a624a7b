import EffectLint.Proofs.Program.Made
import EffectLint.Proofs.Type.Uses

/-!
The typing rules of lowered expressions. A rule relates the type of a node to the types of its
operands, as the table of a program resolves them. Programs only grow, and a node that follows its
rule keeps following it.
-/

namespace EffectLint

namespace Program

-- The type that a node of some kind must have. An expression that is wrong has the error type.
inductive TypeRule (program : Program) : NodeKind → Option TypeId → Prop where
  | Assign {store target value} : store ≠ .Construct →
      TypeRule program (.Assign store target value) (program.arena.type? target)
  | Construct {target value id} : program.arena.kind target = .Variable id →
      TypeRule program (.Assign .Construct target value) (program.arena.type? target)
  | Step {op fixity operand} :
      TypeRule program (.Step op fixity operand) (program.arena.type? operand)
  -- the first value, if there is one, is stored in the variable that is declared
  | Declare {id value entry} : program.declared[id.index]? = some entry →
      (∀ construct ∈ value, program.arena.type? construct = some entry.type ∧
        ∃ target initial, program.arena.kind construct = .Assign .Construct target initial ∧
          program.arena.kind target = .Variable id) →
      TypeRule program (.Declare id value) (some entry.type)
  | In {key container known index value pointer} :
      program.arena.type? container = some known →
      program.types.resolvedShape known = .AssocArray index value →
      program.types.shape? pointer = some (.Pointer value) →
      TypeRule program (.In key container) (some pointer)
  | Remove {container key known index value} : program.arena.type? container = some known →
      program.types.resolvedShape known = .AssocArray index value →
      TypeRule program (.Remove container key) (some .bool)
  | Assert {condition message} : TypeRule program (.Assert condition message) (some .void)
  | Halt : TypeRule program .Halt (some .void)
  | Delete {operand} : TypeRule program (.Delete operand) (some .void)
  | New {type} : program.types.Known type → program.types.isClass type = true →
      TypeRule program (.New type) (some type)
  | NewAnonymous {type symbol} : program.types.shape? type = some (.Class symbol) →
      TypeRule program .NewAnonymous (some type)
  | Call {callee arguments named known signature} : program.arena.type? callee = some known →
      program.types.Calls known signature →
      signature.parameters.length = arguments.length →
      (∀ id, named = some id ↔ program.arena.kind callee = .Function id) →
      TypeRule program (.Call callee arguments named) (some signature.result)
  | Cast {type operand} : type ≠ .error → TypeRule program (.Cast type operand) (some type)
  | Logical {op left right} : TypeRule program (.Logical op left right) (some .bool)
  | Conditional {condition yes no} :
      TypeRule program (.Conditional condition yes no)
        (if program.arena.type? yes = some .null ∨ program.arena.type? yes = none then
          program.arena.type? no
        else program.arena.type? yes)
  | Comma {first second} :
      TypeRule program (.Comma first second) (program.arena.type? second)
  | Variable {id entry} : program.declared[id.index]? = some entry →
      TypeRule program (.Variable id) (some entry.type)
  | Function {id entry} : program.functions[id.index]? = some entry →
      TypeRule program (.Function id) (some entry.type)
  | Tuple {elements type} :
      program.types.shape? type =
        some (.Tuple (elements.map fun id => (program.arena.type? id).getD .error)) →
      TypeRule program (.Tuple elements) (some type)
  | Error : TypeRule program .Error (some .error)
  | Module {id entry} : program.modules[id.index]? = some entry →
      TypeRule program (.Module id) none
  | Binary {op left right} :
      TypeRule program (.Binary op left right)
        (some (Lower.binaryType program.types op (program.arena.type? left)
          (program.arena.type? right)))
  | Not {operand} : TypeRule program (.Unary .Not operand) (some .bool)
  | Unary {op operand} : op ≠ .Not →
      TypeRule program (.Unary op operand) (program.arena.type? operand)
  | Deref {operand known target} : program.arena.type? operand = some known →
      program.types.resolvedShape known = .Pointer target →
      TypeRule program (.Deref operand) (some target)
  | AddressOf {operand target pointer} : program.arena.type? operand = some target →
      program.types.shape? pointer = some (.Pointer target) →
      TypeRule program (.AddressOf operand) (some pointer)
  | Index {base index known element} : program.arena.type? base = some known →
      program.types.Holds known element →
      TypeRule program (.Index base index) (some element)
  | Integer {value : Nat} :
      TypeRule program (.Integer value) (some (if value < Lower.intBound then .int else .long))
  | Boolean {value} : TypeRule program (.Boolean value) (some .bool)
  | Text {text} : TypeRule program (.Text text) (some .string)
  | Null : TypeRule program .Null (some .null)

-- A node that follows its rule and stands above no wrong expression.
structure Fits (program : Program) (node : Node) : Prop where
  operands : ∀ operand ∈ node.kind.operands, program.arena.kind operand ≠ .Error
  rule : program.TypeRule node.kind node.type

theorem fits_error (program : Program) (span : Span) :
    program.Fits ⟨.Error, some .error, span⟩ :=
  ⟨by simp [NodeKind.operands], .Error⟩

section

variable {large small : Program} {scopes : Scopes}

-- What is no error is there, and the same in a larger program.
theorem Extends.node_eq_of_kind (hextends : large.Extends small) {id : NodeId}
    (h : small.arena.kind id ≠ .Error) : large.arena.node id = small.arena.node id := by
  cases hnode : small.arena.node? id with
  | none =>
      rw [Arena.kind, Arena.node, hnode] at h
      exact absurd rfl h
  | some node =>
      obtain ⟨hlarge, hsmall⟩ := hextends.node_eq hnode
      rw [hlarge, hsmall]

theorem TypeRule.extends (hextends : large.Extends small) (hsound : small.Sound scopes)
    {kind : NodeKind} {type : Option TypeId} (h : small.TypeRule kind type)
    (hoperands : ∀ operand ∈ kind.operands, small.arena.kind operand ≠ .Error) :
    large.TypeRule kind type := by
  have hnode : ∀ operand ∈ kind.operands, large.arena.node operand = small.arena.node operand :=
    fun operand hmem => hextends.node_eq_of_kind (hoperands operand hmem)
  have htype : ∀ operand ∈ kind.operands, large.arena.type? operand = small.arena.type? operand :=
    fun operand hmem => congrArg Node.type (hnode operand hmem)
  have hkind : ∀ operand ∈ kind.operands, large.arena.kind operand = small.arena.kind operand :=
    fun operand hmem => congrArg Node.kind (hnode operand hmem)
  have hresolved : ∀ {id known shape}, small.arena.type? id = some known →
      small.types.resolvedShape known = shape → large.types.resolvedShape known = shape :=
    fun hfound hshape => (TypeTable.resolvedShape_keeps hsound.closed hextends.types
      (hsound.type?_known hfound) hshape).1
  cases h with
  | @Assign store target value hstore =>
      rw [← htype target (by simp [NodeKind.operands])]
      exact .Assign hstore
  | @Construct target value id htarget =>
      rw [← htype target (by simp [NodeKind.operands])]
      exact .Construct ((hkind target (by simp [NodeKind.operands])).trans htarget)
  | @Step op fixity operand =>
      rw [← htype operand (by simp [NodeKind.operands])]
      exact .Step
  | @Declare id value entry hentry hvalue =>
      refine .Declare (hextends.declared _ _ hentry) fun construct hconstruct => ?_
      have hmem : construct ∈ (NodeKind.Declare id value).operands := by
        rw [hconstruct]
        exact List.mem_cons_self
      obtain ⟨hsame, target, initial, hassign, htarget⟩ := hvalue construct hconstruct
      refine ⟨(htype construct hmem).trans hsame, target, initial, (hkind construct hmem).trans hassign,
        ?_⟩
      have hright : small.arena.kind target ≠ .Error := by simp [htarget]
      rw [Arena.kind, hextends.node_eq_of_kind hright]
      exact htarget
  | @In key container known index value pointer hfound hshape hpointer =>
      have hlarge := (htype container (by simp [NodeKind.operands])).trans hfound
      exact .In hlarge (hresolved hfound hshape) (hextends.types _ _ hpointer)
  | @Remove container key known index value hfound hshape =>
      have hlarge := (htype container (by simp [NodeKind.operands])).trans hfound
      exact .Remove hlarge (hresolved hfound hshape)
  | Assert => exact .Assert
  | Halt => exact .Halt
  | Delete => exact .Delete
  | New hknown hclass =>
      refine .New (hknown.keeps hextends.types) ?_
      rw [hsound.closed.isClass_eq hextends.types hknown]
      exact hclass
  | NewAnonymous hshape => exact .NewAnonymous (hextends.types _ _ hshape)
  | @Call callee arguments named known signature hfound hcalls hlength hnamed =>
      have hlarge := (htype callee (by simp [NodeKind.operands])).trans hfound
      refine .Call hlarge (hcalls.keeps hsound.closed hextends.types (hsound.type?_known hfound))
        hlength ?_
      rw [hkind callee (by simp [NodeKind.operands])]
      exact hnamed
  | Cast herror => exact .Cast herror
  | Logical => exact .Logical
  | @Conditional condition yes no =>
      rw [← htype yes (by simp [NodeKind.operands]), ← htype no (by simp [NodeKind.operands])]
      exact .Conditional
  | @Comma first second =>
      rw [← htype second (by simp [NodeKind.operands])]
      exact .Comma
  | Variable hentry => exact .Variable (hextends.declared _ _ hentry)
  | Function hentry => exact .Function (hextends.functions _ _ hentry)
  | @Tuple elements type hshape =>
      have hsame : elements.map (fun id => (large.arena.type? id).getD .error) =
          elements.map fun id => (small.arena.type? id).getD .error :=
        List.map_congr_left fun id hmem => by rw [htype id hmem]
      refine .Tuple ?_
      rw [hsame]
      exact hextends.types _ _ hshape
  | Error => exact .Error
  | Module hentry => exact .Module (hextends.modules _ _ hentry)
  | @Binary op left right =>
      rw [← binaryType_eq hextends hsound.closed (fun _ hleft => hsound.type?_known hleft)
        (fun _ hright => hsound.type?_known hright), ← htype left (by simp [NodeKind.operands]),
        ← htype right (by simp [NodeKind.operands])]
      exact .Binary
  | Not => exact .Not
  | @Unary op operand hop =>
      rw [← htype operand (by simp [NodeKind.operands])]
      exact .Unary hop
  | @Deref operand known target hfound hshape =>
      have hlarge := (htype operand (by simp [NodeKind.operands])).trans hfound
      exact .Deref hlarge (hresolved hfound hshape)
  | @AddressOf operand target pointer hfound hpointer =>
      have hlarge := (htype operand (by simp [NodeKind.operands])).trans hfound
      exact .AddressOf hlarge (hextends.types _ _ hpointer)
  | @Index base index known element hfound hholds =>
      have hlarge := (htype base (by simp [NodeKind.operands])).trans hfound
      exact .Index hlarge (hholds.keeps hsound.closed hextends.types (hsound.type?_known hfound))
  | Integer => exact .Integer
  | Boolean => exact .Boolean
  | Text => exact .Text
  | Null => exact .Null

theorem Fits.extends (hextends : large.Extends small) (hsound : small.Sound scopes) {node : Node}
    (h : small.Fits node) : large.Fits node where
  operands := by
    intro operand hmem
    rw [Arena.kind, hextends.node_eq_of_kind (h.operands operand hmem)]
    exact h.operands operand hmem
  rule := h.rule.extends hextends hsound h.operands

end

end Program

end EffectLint
