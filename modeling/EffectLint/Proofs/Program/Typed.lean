import EffectLint.Proofs.Arena.Forest
import EffectLint.Proofs.Program.Made
import EffectLint.Proofs.Type.Uses

/-!
Nodes that have a type. A module has none, and what takes its type from a module has none either, or
the error type. Where nothing does, a node is typed if its operands are.
-/

namespace EffectLint

namespace Program

def isModule (program : Program) (id : NodeId) : Bool :=
  match program.arena.kind id with
  | .Module _ => true
  | _ => false

-- Whether a node has its type from an operand that is a module. What a variable is constructed of
-- matters only if it is declared without a type.
def typedByModule (program : Program) (node : Node) : Bool :=
  match node.kind with
  | .Assign .Construct _ value => program.isModule value && node.type == some .error
  | .Assign _ target _ => program.isModule target
  | .Step _ _ operand => program.isModule operand
  | .Unary op operand => op != .Not && program.isModule operand
  | .Conditional _ yes no => program.isModule no &&
      (program.arena.type? yes == some .null || program.arena.type? yes == none)
  | .Comma _ second => program.isModule second
  | .Binary op left _ => !op.isComparison && program.isModule left
  | _ => false

-- A module, or what has a whole type.
def Typed (program : Program) (id : NodeId) : Prop :=
  program.arena.kind id ≠ .Error ∧
    if program.isModule id = true then program.arena.type? id = none
    else ∃ type, program.arena.type? id = some type ∧ program.types.Whole type

-- What a name stands for, as far as it has a type.
def BindsTyped (program : Program) : Binding → Prop
  | .Variable id => program.types.Whole (program.variableType id)
  | .Function id => program.types.Whole (program.functionType id)
  | .Module _ => True
  | .Type id => program.types.Whole id

def ScopesTyped (program : Program) (scopes : Scopes) : Prop :=
  ∀ symbol binding, scopes.Holds symbol binding → program.BindsTyped binding

def ApartFromModules (program : Program) : Prop :=
  ∀ node ∈ program.arena.nodes, program.typedByModule node = false

def TypedBelow (program : Program) (root : NodeId) : Prop :=
  ∀ id, program.arena.Below root id → program.Typed id

variable {program : Program} {scopes : Scopes}

theorem ScopesTyped.push (h : program.ScopesTyped scopes) : program.ScopesTyped scopes.push :=
  fun symbol binding hholds => h symbol binding hholds.of_push

theorem ScopesTyped.define (h : program.ScopesTyped scopes) {name : Symbol} {added : Binding}
    (hadded : program.BindsTyped added) : program.ScopesTyped (scopes.define name added) := by
  intro symbol binding hholds
  rcases hholds.of_define with hbefore | ⟨-, rfl⟩
  · exact h symbol binding hbefore
  · exact hadded

theorem ScopesTyped.binding? (h : program.ScopesTyped scopes) {name : String} {binding : Binding}
    (hbinding : program.binding? scopes name = some binding) : program.BindsTyped binding := by
  obtain ⟨symbol, -, hlookup⟩ := Option.bind_eq_some_iff.mp hbinding
  exact h symbol binding (Scopes.holds_of_lookup hlookup)

-- A type that can be written is whole where the types with names are.
theorem Writable.whole (hclosed : program.types.Closed) (hscopes : program.ScopesTyped scopes)
    {type : TypeId} (h : program.Writable scopes type) : program.types.Whole type := by
  induction h with
  | Basic => exact .ofBasic hclosed _
  | Named _ _ _ hbinding => exact hscopes.binding? hbinding
  | Pointer hshape _ ih => exact .intro hshape (by simp) (by simpa [Shape.seen] using ih)
  | Array hshape _ ih => exact .intro hshape (by simp) (by simpa [Shape.seen] using ih)
  | AssocArray hshape _ _ ihvalue _ => exact .intro hshape (by simp) (by simpa [Shape.seen] using ihvalue)
  | @Callable isDelegate signature function type hfunction hshape _ _ ihresult _ =>
      have hwhole : program.types.Whole function :=
        .intro hfunction (by simp) (by simpa [Shape.seen] using ihresult)
      cases isDelegate
      · exact .intro hshape (by simp) (by simpa [Shape.seen] using hwhole)
      · exact .intro hshape (by simp) (by simpa [Shape.seen] using hwhole)

theorem TypedBelow.root {root : NodeId} (h : program.TypedBelow root) : program.Typed root :=
  h root .refl

theorem TypedBelow.of_operands {root : NodeId} {node : Node}
    (hnode : program.arena.node? root = some node) (hroot : program.Typed root)
    (hoperands : ∀ operand ∈ node.kind.operands, program.TypedBelow operand) :
    program.TypedBelow root := by
  intro id hbelow
  rcases hbelow.cases_head with rfl | ⟨operand, hoperand, hbelow⟩
  · exact hroot
  · rw [Arena.operands, Arena.kind_of_node? hnode] at hoperand
    exact hoperands operand hoperand id hbelow

theorem Typed.ne_error {id : NodeId} (h : program.Typed id) : program.arena.kind id ≠ .Error :=
  h.1

theorem Typed.of_type? {id : NodeId} {type : TypeId} (h : program.Typed id)
    (htype : program.arena.type? id = some type) : program.types.Whole type := by
  obtain ⟨-, h⟩ := h
  split at h
  · rw [htype] at h
    cases h
  · obtain ⟨found, hfound, hwhole⟩ := h
    rw [htype] at hfound
    cases hfound
    exact hwhole

theorem Typed.exists_type {id : NodeId} (h : program.Typed id) (hmodule : program.isModule id = false) :
    ∃ type, program.arena.type? id = some type ∧ program.types.Whole type := by
  obtain ⟨-, h⟩ := h
  rwa [if_neg (Bool.eq_false_iff.mp hmodule)] at h

theorem Typed.of_isModule {id : NodeId} (h : program.Typed id) (hmodule : program.isModule id = true) :
    program.arena.type? id = none := by
  obtain ⟨-, h⟩ := h
  rwa [if_pos hmodule] at h

-- A variable that has its type from its value has one if that is no module.
theorem Typed.whole_of_construct (hapart : program.ApartFromModules) {construct target value : NodeId}
    {type : TypeId} {span : Span} (hvalue : program.Typed value)
    (hnode : program.arena.node? construct = some ⟨.Assign .Construct target value, some type, span⟩)
    (htype : type = (program.arena.type? value).getD .error) : program.types.Whole type := by
  cases hmodule : program.isModule value with
  | false =>
      obtain ⟨found, hfound, hwhole⟩ := hvalue.exists_type hmodule
      rw [htype, hfound]
      exact hwhole
  | true =>
      have hby := hapart _ (Array.mem_of_getElem? hnode)
      simp [typedByModule, hmodule, htype, hvalue.of_isModule hmodule] at hby

theorem Typed.of_bind {α : Type} {id : NodeId} (h : program.Typed id) {look : TypeId → Option α} {found : α}
    (hfound : (program.arena.type? id).bind look = some found) :
    ∃ type, look type = some found ∧ program.types.Whole type := by
  obtain ⟨type, htype, hlook⟩ := Option.bind_eq_some_iff.mp hfound
  exact ⟨type, hlook, h.of_type? htype⟩

-- A node is typed where it is no module and has a whole type.
theorem Typed.of_whole {id : NodeId} {node : Node} (hnode : program.arena.node? id = some node)
    (herror : node.kind ≠ .Error) (hmodule : ∀ module, node.kind ≠ .Module module)
    (h : ∃ type, node.type = some type ∧ program.types.Whole type) : program.Typed id := by
  have hkind : program.arena.kind id = node.kind := Arena.kind_of_node? hnode
  have htype : program.arena.type? id = node.type := by rw [Arena.type?, Arena.node_of_node? hnode]
  refine ⟨by rwa [hkind], ?_⟩
  have hnone : program.isModule id = false := by
    rw [isModule, hkind]
    split
    · next module heq => exact absurd heq (hmodule module)
    · rfl
  rw [if_neg (by simp [hnone]), htype]
  exact h

section

variable (hclosed : program.types.Closed) (hscopes : program.ScopesTyped scopes)

include hclosed hscopes

-- What is made of typed operands, and is no module, has a whole type.
theorem Makes.whole {kind : NodeKind} {type : Option TypeId} {span : Span}
    (hmakes : program.Makes scopes type kind)
    (hoperands : ∀ operand ∈ kind.operands, program.Typed operand)
    (hmodule : program.typedByModule ⟨kind, type, span⟩ = false)
    (hkind : ∀ module, kind ≠ .Module module) :
    ∃ found, type = some found ∧ program.types.Whole found := by
  have hbasic : ∀ basic, ∃ found, some (TypeId.ofBasic basic) = some found ∧
      program.types.Whole found :=
    fun basic => ⟨_, rfl, .ofBasic hclosed basic⟩
  cases kind with
  | Error => exact hmakes.elim
  | Declare => exact hmakes.elim
  | Module module => exact absurd rfl (hkind module)
  | Assign store target value =>
      obtain ⟨hstore, htype⟩ := hmakes
      have htarget := hoperands target (by simp [NodeKind.operands])
      rw [htype]
      refine htarget.exists_type ?_
      rcases hstore with rfl | ⟨op, rfl⟩
      · exact hmodule
      · exact hmodule
  | Step op fixity operand =>
      rw [Makes] at hmakes
      rw [hmakes]
      exact (hoperands operand (by simp [NodeKind.operands])).exists_type hmodule
  | In key container =>
      obtain ⟨value, pointer, hvalue, hshape, rfl⟩ := hmakes
      obtain ⟨type, hlook, hwhole⟩ :=
        (hoperands container (by simp [NodeKind.operands])).of_bind hvalue
      have hvalue : program.types.Whole value := hwhole.mapValue hlook
      exact ⟨pointer, rfl, .intro hshape (by simp) (by simpa [Shape.seen] using hvalue)⟩
  | Remove container key =>
      obtain ⟨-, rfl⟩ := hmakes
      exact hbasic .Boolean
  | Assert condition message =>
      obtain ⟨-, rfl⟩ := hmakes
      exact hbasic .Void
  | Halt | Delete =>
      obtain rfl := hmakes
      exact hbasic .Void
  | New target =>
      obtain ⟨symbol, name, -, -, -, hbinding, -, rfl⟩ := hmakes
      exact ⟨target, rfl, hscopes.binding? hbinding⟩
  | NewAnonymous =>
      obtain ⟨symbol, anonymous, -, hshape, rfl⟩ := hmakes
      exact ⟨anonymous, rfl, .intro hshape (by simp) (by simp [Shape.seen])⟩
  | Call callee arguments named =>
      obtain ⟨function, hfunction, -, -, rfl⟩ := hmakes
      obtain ⟨type, hlook, hwhole⟩ :=
        (hoperands callee (by simp [NodeKind.operands])).of_bind hfunction
      exact ⟨_, rfl, hwhole.called hlook⟩
  | Cast target operand =>
      obtain ⟨hwritable, rfl⟩ := hmakes
      exact ⟨target, rfl, hwritable.whole hclosed hscopes⟩
  | Logical =>
      obtain rfl := hmakes
      exact hbasic .Boolean
  | Conditional condition yes no =>
      have hyes := hoperands yes (by simp [NodeKind.operands])
      have hno := hoperands no (by simp [NodeKind.operands])
      rw [Makes] at hmakes
      rw [hmakes]
      split
      · next hnull =>
          have hyes : (program.arena.type? yes == some .null ||
              program.arena.type? yes == none) = true := by
            rcases hnull with hnull | hnull <;> simp [hnull]
          refine hno.exists_type ?_
          simpa only [typedByModule, hyes, Bool.and_true] using hmodule
      · next hother =>
          cases htype : program.arena.type? yes with
          | none => exact absurd (.inr htype) hother
          | some found => exact ⟨found, rfl, hyes.of_type? htype⟩
  | Comma first second =>
      rw [Makes] at hmakes
      rw [hmakes]
      exact (hoperands second (by simp [NodeKind.operands])).exists_type hmodule
  | Variable id =>
      obtain ⟨entry, name, hentry, -, -, hbinding, rfl⟩ := hmakes
      have hwhole : program.types.Whole (program.variableType id) := hscopes.binding? hbinding
      rw [variableType, hentry] at hwhole
      exact ⟨_, rfl, hwhole⟩
  | Function id =>
      obtain ⟨entry, name, hentry, -, -, hbinding, rfl⟩ := hmakes
      have hwhole : program.types.Whole (program.functionType id) := hscopes.binding? hbinding
      rw [functionType, hentry] at hwhole
      exact ⟨_, rfl, hwhole⟩
  | Tuple elements =>
      obtain ⟨tuple, hshape, rfl⟩ := hmakes
      exact ⟨tuple, rfl, .intro hshape (by simp) (by simp [Shape.seen])⟩
  | Binary op left right =>
      obtain rfl := hmakes
      have hleft := hoperands left (by simp [NodeKind.operands])
      cases hcomparison : op.isComparison with
      | true =>
          refine ⟨.bool, ?_, .ofBasic hclosed .Boolean⟩
          rw [Lower.binaryType, if_pos hcomparison]
      | false =>
          obtain ⟨type, htype, hwhole⟩ :=
            hleft.exists_type (by simpa [typedByModule, hcomparison] using hmodule)
          rw [htype]
          exact ⟨_, rfl, hwhole.binaryType hclosed op _⟩
  | Unary op operand =>
      rw [Makes] at hmakes
      rw [hmakes]
      split
      · exact hbasic .Boolean
      · next hnot =>
          refine (hoperands operand (by simp [NodeKind.operands])).exists_type ?_
          simpa [typedByModule, hnot] using hmodule
  | Deref operand =>
      obtain ⟨target, htarget, rfl⟩ := hmakes
      obtain ⟨type, hlook, hwhole⟩ :=
        (hoperands operand (by simp [NodeKind.operands])).of_bind htarget
      exact ⟨target, rfl, hwhole.pointerTarget hlook⟩
  | AddressOf operand =>
      obtain ⟨target, pointer, htype, hshape, rfl⟩ := hmakes
      have hwhole : program.types.Whole target :=
        (hoperands operand (by simp [NodeKind.operands])).of_type? htype
      exact ⟨pointer, rfl, .intro hshape (by simp) (by simpa [Shape.seen] using hwhole)⟩
  | Index base index =>
      obtain ⟨element, helement, rfl⟩ := hmakes
      obtain ⟨type, hlook, hwhole⟩ :=
        (hoperands base (by simp [NodeKind.operands])).of_bind helement
      exact ⟨element, rfl, hwhole.element hclosed hlook⟩
  | Integer value =>
      obtain ⟨digits, -, -, rfl⟩ := hmakes
      split
      · exact hbasic .Integer
      · exact hbasic .Long
  | Boolean value =>
      obtain rfl := hmakes
      exact hbasic .Boolean
  | Text text =>
      obtain ⟨-, rfl⟩ := hmakes
      exact hbasic .Text
  | Null =>
      obtain rfl := hmakes
      exact ⟨.null, rfl, .null hclosed⟩

-- What is made of typed operands is typed.
theorem Makes.typed {id : NodeId} {node : Node} (hnode : program.arena.node? id = some node)
    (hmakes : program.Makes scopes node.type node.kind)
    (hoperands : ∀ operand ∈ node.kind.operands, program.Typed operand)
    (hmodule : program.typedByModule node = false) : program.Typed id := by
  obtain ⟨kind, type, span⟩ := node
  by_cases hkind : ∃ module, kind = .Module module
  · obtain ⟨module, rfl⟩ := hkind
    obtain ⟨entry, name, -, -, -, -, htype⟩ := hmakes
    have hkind : program.arena.kind id = .Module module := Arena.kind_of_node? hnode
    refine ⟨by simp [hkind], ?_⟩
    rw [if_pos (by rw [isModule, hkind]), Arena.type?, Arena.node_of_node? hnode]
    exact htype
  · have hother : ∀ module, kind ≠ .Module module := fun module heq => hkind ⟨module, heq⟩
    have herror : kind ≠ .Error := by
      rintro rfl
      exact hmakes
    exact .of_whole hnode herror hother (hmakes.whole hclosed hscopes hoperands hmodule hother)

end

end Program

end EffectLint
