import EffectLint.Lowering.Node
import EffectLint.Proofs.Grammar.Written
import EffectLint.Proofs.Program.Growth

/-!
Nodes that an expression without declarations and questions makes, where nothing in it is wrong:
each has the type that its operands give it, and each name in it is known in the open scopes.
-/

namespace EffectLint

open Lower

namespace NodeKind

def isFalse : NodeKind → Bool
  | .Integer value => value == 0
  | .Boolean value => !value
  | _ => false

def functionNamed : NodeKind → Option FunctionId
  | .Function id => some id
  | _ => none

end NodeKind

namespace Program

-- A type that can be written with these scopes open.
inductive Writable (program : Program) (scopes : Scopes) : TypeId → Prop where
  | Basic {type} : Writable program scopes (.ofBasic type)
  | Named {symbol name type} : program.names.get? symbol = some name →
      (Lexeme.name name).Valid → program.Named symbol (.Type type) →
      program.binding? scopes name = some (.Type type) → Writable program scopes type
  | Pointer {target type} : program.types.shape? type = some (.Pointer target) →
      Writable program scopes target → Writable program scopes type
  | Array {element type} : program.types.shape? type = some (.Array element) →
      Writable program scopes element → Writable program scopes type
  | AssocArray {key value type} : program.types.shape? type = some (.AssocArray key value) →
      Writable program scopes value → Writable program scopes key → Writable program scopes type
  | Callable {isDelegate : Bool} {signature function type} :
      program.types.shape? function = some (.Function signature) →
      program.types.shape? type =
        some (if isDelegate then .Delegate function else .Pointer function) →
      Writable program scopes signature.result →
      (∀ parameter ∈ signature.parameters, Writable program scopes parameter.type) →
      Writable program scopes type

-- What makes a node right. Only the types and kinds of its operands matter.
def Makes (program : Program) (scopes : Scopes) (type : Option TypeId) : NodeKind → Prop
  | .Assign store target _ =>
      (store = .Plain ∨ ∃ op, store = .Compound op) ∧ type = program.arena.type? target
  | .Step _ _ operand => type = program.arena.type? operand
  | .In _ container => ∃ value pointer,
      (program.arena.type? container).bind (mapValue? program.types) = some value ∧
        program.types.shape? pointer = some (.Pointer value) ∧ type = some pointer
  | .Remove container _ =>
      (∃ value, (program.arena.type? container).bind (mapValue? program.types) = some value) ∧
        type = some .bool
  | .Assert condition _ =>
      (program.arena.kind condition).isFalse = false ∧ type = some .void
  | .Halt | .Delete _ => type = some .void
  | .New target => ∃ symbol name, program.names.get? symbol = some name ∧
      (Lexeme.name name).Valid ∧ program.Named symbol (.Type target) ∧
        program.binding? scopes name = some (.Type target) ∧ program.types.isClass target = true ∧
        type = some target
  | .NewAnonymous => ∃ symbol anonymous, program.names.get? symbol = some "__anonclass" ∧
      program.types.shape? anonymous = some (.Class symbol) ∧ type = some anonymous
  | .Call callee arguments named => ∃ function,
      (program.arena.type? callee).bind program.types.called? = some function ∧
        function.signature.parameters.length = arguments.length ∧
        named = (program.arena.kind callee).functionNamed ∧ type = some function.signature.result
  | .Cast target _ => program.Writable scopes target ∧ type = some target
  | .Logical _ _ _ => type = some .bool
  | .Conditional _ yes no =>
      type =
        if program.arena.type? yes = some .null ∨ program.arena.type? yes = none then
          program.arena.type? no
        else program.arena.type? yes
  | .Comma _ second => type = program.arena.type? second
  | .Variable id => ∃ entry name, program.declared[id.index]? = some entry ∧
      program.names.get? entry.name = some name ∧ (Lexeme.name name).Valid ∧
        program.binding? scopes name = some (.Variable id) ∧ type = some entry.type
  | .Function id => ∃ entry name, program.functions[id.index]? = some entry ∧
      program.names.get? entry.name = some name ∧ (Lexeme.name name).Valid ∧
        program.binding? scopes name = some (.Function id) ∧ type = some entry.type
  | .Module id => ∃ entry name, program.modules[id.index]? = some entry ∧
      program.names.get? entry.name = some name ∧ (Lexeme.name name).Valid ∧
        program.binding? scopes name = some (.Module id) ∧ type = none
  | .Tuple elements => ∃ tuple,
      program.types.shape? tuple =
          some (.Tuple (elements.map fun id => (program.arena.type? id).getD .error)) ∧
        type = some tuple
  | .Binary op left right =>
      type = some (binaryType program.types op (program.arena.type? left)
        (program.arena.type? right))
  | .Unary op operand => type = if op = .Not then some .bool else program.arena.type? operand
  | .Deref operand => ∃ target,
      (program.arena.type? operand).bind (pointerTarget? program.types) = some target ∧
        type = some target
  | .AddressOf operand => ∃ target pointer, program.arena.type? operand = some target ∧
      program.types.shape? pointer = some (.Pointer target) ∧ type = some pointer
  | .Index base _ => ∃ element,
      (program.arena.type? base).bind (element? program.types) = some element ∧ type = some element
  | .Integer value => ∃ digits : Nat, value = digits ∧ digits < Grammar.integerBound ∧
      type = some (if digits < intBound then .int else .long)
  | .Boolean _ => type = some .bool
  | .Text text => (Lexeme.quoted text).Valid ∧ type = some .string
  | .Null => type = some .null
  | .Declare _ _ | .Error => False

-- A node all of whose tree is right.
inductive Made (program : Program) (scopes : Scopes) : NodeId → Prop where
  | intro {id node} : program.arena.node? id = some node →
      program.Makes scopes node.type node.kind →
      (∀ operand ∈ node.kind.operands, operand.index < id.index) →
      (∀ operand ∈ node.kind.operands, Made program scopes operand) → Made program scopes id

section

variable {large small : Program} {scopes : Scopes}

theorem Writable.extends (hextends : large.Extends small) {type : TypeId}
    (h : small.Writable scopes type) : large.Writable scopes type := by
  induction h with
  | Basic => exact .Basic
  | Named hname hvalid hnamed hbinding =>
      exact .Named (hextends.names _ _ hname) hvalid (hextends.named hnamed)
        (hextends.binding?_eq hbinding)
  | Pointer hshape _ ih => exact .Pointer (hextends.types _ _ hshape) ih
  | Array hshape _ ih => exact .Array (hextends.types _ _ hshape) ih
  | AssocArray hshape _ _ ihvalue ihkey =>
      exact .AssocArray (hextends.types _ _ hshape) ihvalue ihkey
  | Callable hfunction hshape _ _ ihresult ihparameters =>
      exact .Callable (hextends.types _ _ hfunction) (hextends.types _ _ hshape) ihresult
        ihparameters

theorem Named.known {program : Program} {symbol : Symbol} {type : TypeId}
    (h : program.Named symbol (.Type type)) : program.types.Known type := by
  rcases h with hclass | ⟨target, halias⟩
  · exact ⟨_, hclass⟩
  · exact ⟨_, halias⟩

theorem Writable.known {program : Program} (hclosed : program.types.Closed) {type : TypeId}
    (h : program.Writable scopes type) : program.types.Known type := by
  cases h with
  | Basic => exact hclosed.known_ofBasic _
  | Named _ _ hnamed _ => exact hnamed.known
  | Pointer hshape _ => exact ⟨_, hshape⟩
  | Array hshape _ => exact ⟨_, hshape⟩
  | AssocArray hshape _ _ => exact ⟨_, hshape⟩
  | Callable _ hshape _ _ => exact ⟨_, hshape⟩

theorem binaryType_eq (hextends : large.Extends small) (hclosed : small.types.Closed)
    {op : BinaryOp} {left right : Option TypeId}
    (hleft : ∀ type ∈ left, small.types.Known type) (hright : ∀ type ∈ right, small.types.Known type) :
    binaryType large.types op left right = binaryType small.types op left right := by
  have hshape : ∀ type : Option TypeId, (∀ found ∈ type, small.types.Known found) →
      large.types.resolvedShape (type.getD .error) = small.types.resolvedShape (type.getD .error) := by
    intro type hknown
    cases type with
    | none => exact hclosed.resolvedShape_eq hextends.types hclosed.known_error
    | some found => exact hclosed.resolvedShape_eq hextends.types (hknown found rfl)
  simp only [binaryType, hshape left hleft, hshape right hright]

-- What is made of right operands is right in a larger program too, where they are the same.
theorem Makes.extends (hextends : large.Extends small) (hsound : small.Sound scopes)
    {type : Option TypeId} {kind : NodeKind} (h : small.Makes scopes type kind)
    (hoperands : ∀ operand ∈ kind.operands, ∃ node, small.arena.node? operand = some node) :
    large.Makes scopes type kind := by
  have hnode : ∀ operand ∈ kind.operands, large.arena.node operand = small.arena.node operand := by
    intro operand hmem
    obtain ⟨node, hnode⟩ := hoperands operand hmem
    obtain ⟨hlarge, hsmall⟩ := hextends.node_eq hnode
    rw [hlarge, hsmall]
  have htype : ∀ operand ∈ kind.operands, large.arena.type? operand = small.arena.type? operand :=
    fun operand hmem => congrArg Node.type (hnode operand hmem)
  -- a look into the table that only follows the type itself
  have hlook : ∀ {α : Type} (look : TypeTable → TypeId → Option α),
      (∀ found, small.types.Known found → look large.types found = look small.types found) →
      ∀ operand ∈ kind.operands, (large.arena.type? operand).bind (look large.types) =
        (small.arena.type? operand).bind (look small.types) := by
    intro α look heq operand hmem
    rw [htype operand hmem]
    cases hfound : small.arena.type? operand with
    | none => rfl
    | some found => exact heq found (hsound.type?_known hfound)
  have hshape : ∀ found, small.types.Known found →
      large.types.resolvedShape found = small.types.resolvedShape found :=
    fun _ hknown => hsound.closed.resolvedShape_eq hextends.types hknown
  cases kind with
  | Assign store target value =>
      obtain ⟨hstore, htarget⟩ := h
      exact ⟨hstore, by rw [htype target (by simp [NodeKind.operands]), htarget]⟩
  | Step op fixity operand =>
      rw [Makes, htype operand (by simp [NodeKind.operands])]
      exact h
  | Declare declared value => exact h
  | In key container =>
      obtain ⟨value, pointer, hvalue, hpointer, htype⟩ := h
      refine ⟨value, pointer, ?_, hextends.types _ _ hpointer, htype⟩
      rw [hlook mapValue? (fun found hknown => by rw [mapValue?, mapValue?, hshape found hknown])
        container (by simp [NodeKind.operands])]
      exact hvalue
  | Remove container key =>
      obtain ⟨⟨value, hvalue⟩, htype⟩ := h
      refine ⟨⟨value, ?_⟩, htype⟩
      rw [hlook mapValue? (fun found hknown => by rw [mapValue?, mapValue?, hshape found hknown])
        container (by simp [NodeKind.operands])]
      exact hvalue
  | Assert condition message =>
      obtain ⟨hcondition, htype⟩ := h
      refine ⟨?_, htype⟩
      rw [Arena.kind, hnode condition (by simp [NodeKind.operands])]
      exact hcondition
  | Halt => exact h
  | Delete operand => exact h
  | New target =>
      obtain ⟨symbol, name, hname, hvalid, hnamed, hbinding, hclass, htype⟩ := h
      refine ⟨symbol, name, hextends.names _ _ hname, hvalid, hextends.named hnamed,
        hextends.binding?_eq hbinding, ?_, htype⟩
      rw [hsound.closed.isClass_eq hextends.types hnamed.known]
      exact hclass
  | NewAnonymous =>
      obtain ⟨symbol, anonymous, hname, hshape, htype⟩ := h
      exact ⟨symbol, anonymous, hextends.names _ _ hname, hextends.types _ _ hshape, htype⟩
  | Call callee arguments named =>
      obtain ⟨function, hfunction, hlength, hnamed, htype⟩ := h
      refine ⟨function, ?_, hlength, ?_, htype⟩
      · rw [hlook TypeTable.called? (fun found hknown => hsound.closed.called?_eq hextends.types hknown)
          callee (by simp [NodeKind.operands])]
        exact hfunction
      · rw [Arena.kind, hnode callee (by simp [NodeKind.operands])]
        exact hnamed
  | Cast target operand =>
      obtain ⟨hwritable, htype⟩ := h
      exact ⟨hwritable.extends hextends, htype⟩
  | Logical op left right => exact h
  | Conditional condition yes no =>
      rw [Makes, htype yes (by simp [NodeKind.operands]), htype no (by simp [NodeKind.operands])]
      exact h
  | Comma first second =>
      rw [Makes, htype second (by simp [NodeKind.operands])]
      exact h
  | Variable id =>
      obtain ⟨entry, name, hentry, hname, hvalid, hbinding, htype⟩ := h
      exact ⟨entry, name, hextends.declared _ _ hentry, hextends.names _ _ hname, hvalid,
        hextends.binding?_eq hbinding, htype⟩
  | Function id =>
      obtain ⟨entry, name, hentry, hname, hvalid, hbinding, htype⟩ := h
      exact ⟨entry, name, hextends.functions _ _ hentry, hextends.names _ _ hname, hvalid,
        hextends.binding?_eq hbinding, htype⟩
  | Module id =>
      obtain ⟨entry, name, hentry, hname, hvalid, hbinding, htype⟩ := h
      exact ⟨entry, name, hextends.modules _ _ hentry, hextends.names _ _ hname, hvalid,
        hextends.binding?_eq hbinding, htype⟩
  | Tuple elements =>
      obtain ⟨tuple, hshape, htype'⟩ := h
      refine ⟨tuple, ?_, htype'⟩
      have hsame : elements.map (fun id => (large.arena.type? id).getD .error) =
          elements.map fun id => (small.arena.type? id).getD .error := by
        refine List.map_congr_left fun id hmem => ?_
        rw [htype id hmem]
      rw [hsame]
      exact hextends.types _ _ hshape
  | Error => exact h
  | Binary op left right =>
      rw [Makes, htype left (by simp [NodeKind.operands]), htype right (by simp [NodeKind.operands]),
        binaryType_eq hextends hsound.closed (fun _ hleft => hsound.type?_known hleft)
          (fun _ hright => hsound.type?_known hright)]
      exact h
  | Unary op operand =>
      rw [Makes, htype operand (by simp [NodeKind.operands])]
      exact h
  | Deref operand =>
      obtain ⟨target, htarget, htype⟩ := h
      refine ⟨target, ?_, htype⟩
      rw [hlook pointerTarget?
        (fun found hknown => by rw [pointerTarget?, pointerTarget?, hshape found hknown])
        operand (by simp [NodeKind.operands])]
      exact htarget
  | AddressOf operand =>
      obtain ⟨target, pointer, htarget, hpointer, htype'⟩ := h
      refine ⟨target, pointer, ?_, hextends.types _ _ hpointer, htype'⟩
      rw [htype operand (by simp [NodeKind.operands])]
      exact htarget
  | Index base index =>
      obtain ⟨element, helement, htype⟩ := h
      refine ⟨element, ?_, htype⟩
      rw [hlook element? (fun found hknown => by rw [element?, element?, hshape found hknown])
        base (by simp [NodeKind.operands])]
      exact helement
  | Integer value => exact h
  | Boolean value => exact h
  | Text text => exact h
  | Null => exact h

theorem Made.extends (hextends : large.Extends small) (hsound : small.Sound scopes) {id : NodeId}
    (h : small.Made scopes id) : large.Made scopes id := by
  induction h with
  | @intro id node hnode hmakes holder hmade ih =>
      refine .intro (hextends.nodes _ _ hnode) (hmakes.extends hextends hsound ?_) holder ih
      intro operand hmem
      cases hmade operand hmem with
      | intro hnode => exact ⟨_, hnode⟩

end

end Program

end EffectLint
