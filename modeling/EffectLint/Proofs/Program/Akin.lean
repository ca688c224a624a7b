import EffectLint.Lowering.State
import EffectLint.Proofs.Program.Made
import EffectLint.Proofs.Type.Asked

/-!
Programs that are the same but for their types, which are akin. The nodes, the declarations and the
open scopes are compared one by one, and each is made of the same numbers.
-/

namespace EffectLint

theorem rel_getElem? {α β : Type} {related : α → β → Prop} {left : List α} {right : List β}
    (h : List.Forall₂ related left right) (index : Nat) :
    Option.Rel related left[index]? right[index]? := by
  induction h generalizing index with
  | nil => exact .none
  | cons hfirst _ ih =>
      cases index with
      | zero => exact .some hfirst
      | succ index => exact ih index

theorem rel_imp {α β : Type} {related related' : α → β → Prop} {left : Option α}
    {right : Option β} (himp : ∀ one other, related one other → related' one other)
    (h : Option.Rel related left right) : Option.Rel related' left right := by
  cases h with
  | none => exact .none
  | some h => exact .some (himp _ _ h)

theorem rel_symm {α β : Type} {related : α → β → Prop} {related' : β → α → Prop} {left : Option α}
    {right : Option β} (himp : ∀ one other, related one other → related' other one)
    (h : Option.Rel related left right) : Option.Rel related' right left := by
  cases h with
  | none => exact .none
  | some h => exact .some (himp _ _ h)

theorem rel_bind {α β γ δ : Type} {related : α → β → Prop} {related' : γ → δ → Prop} {left : Option α}
    {right : Option β} {next : α → Option γ} {next' : β → Option δ} (h : Option.Rel related left right)
    (hnext : ∀ one other, related one other → Option.Rel related' (next one) (next' other)) :
    Option.Rel related' (left.bind next) (right.bind next') := by
  cases h with
  | none => exact .none
  | some h => exact hnext _ _ h

namespace NodeKind

-- The kind without the type that it names.
def untyped : NodeKind → NodeKind
  | .New _ => .New .error
  | .Cast _ operand => .Cast .error operand
  | kind => kind

def type? : NodeKind → Option TypeId
  | .New type | .Cast type _ => some type
  | _ => none

end NodeKind

section

variable {akin akin' : TypeId → TypeId → Prop}

inductive NodeKind.Akin (akin : TypeId → TypeId → Prop) : NodeKind → NodeKind → Prop where
  | New {type type'} : akin type type' → Akin akin (.New type) (.New type')
  | Cast {type type' operand} : akin type type' → Akin akin (.Cast type operand) (.Cast type' operand)
  | Same {kind} : kind.type? = none → Akin akin kind kind

structure Node.Akin (akin : TypeId → TypeId → Prop) (node node' : Node) : Prop where
  kind : node.kind.Akin akin node'.kind
  type : Option.Rel akin node.type node'.type
  span : node.span = node'.span

inductive VariableEntry.Akin (akin : TypeId → TypeId → Prop) : VariableEntry → VariableEntry → Prop where
  | intro {name type type' span isGlobal} : akin type type' →
      Akin akin ⟨name, type, span, isGlobal⟩ ⟨name, type', span, isGlobal⟩

inductive FunctionEntry.Akin (akin : TypeId → TypeId → Prop) : FunctionEntry → FunctionEntry → Prop where
  | intro {name type type' span} : akin type type' → Akin akin ⟨name, type, span⟩ ⟨name, type', span⟩

inductive Binding.Akin (akin : TypeId → TypeId → Prop) : Binding → Binding → Prop where
  | Variable {id} : Akin akin (.Variable id) (.Variable id)
  | Function {id} : Akin akin (.Function id) (.Function id)
  | Module {id} : Akin akin (.Module id) (.Module id)
  | Type {id id'} : akin id id' → Akin akin (.Type id) (.Type id')

namespace NodeKind.Akin

variable {kind kind' : NodeKind}

theorem untyped_eq (h : kind.Akin akin kind') : kind.untyped = kind'.untyped := by
  cases h <;> rfl

theorem operands_eq (h : kind.Akin akin kind') : kind.operands = kind'.operands := by
  cases h <;> rfl

theorem eq_error_iff (h : kind.Akin akin kind') : kind = .Error ↔ kind' = .Error := by
  cases h <;> simp

theorem mono (hakin : ∀ type type', akin type type' → akin' type type') (h : kind.Akin akin kind') :
    kind.Akin akin' kind' := by
  cases h with
  | New h => exact .New (hakin _ _ h)
  | Cast h => exact .Cast (hakin _ _ h)
  | Same h => exact .Same h

theorem symm (hakin : ∀ type type', akin type type' → akin' type' type) (h : kind.Akin akin kind') :
    kind'.Akin akin' kind := by
  cases h with
  | New h => exact .New (hakin _ _ h)
  | Cast h => exact .Cast (hakin _ _ h)
  | Same h => exact .Same h

end NodeKind.Akin

theorem Node.Akin.mono (hakin : ∀ type type', akin type type' → akin' type type') {node node' : Node}
    (h : node.Akin akin node') : node.Akin akin' node' :=
  ⟨h.kind.mono hakin, rel_imp hakin h.type, h.span⟩

theorem Node.Akin.symm (hakin : ∀ type type', akin type type' → akin' type' type) {node node' : Node}
    (h : node.Akin akin node') : node'.Akin akin' node :=
  ⟨h.kind.symm hakin, rel_symm hakin h.type, h.span.symm⟩

theorem Binding.Akin.mono (hakin : ∀ type type', akin type type' → akin' type type')
    {binding binding' : Binding} (h : binding.Akin akin binding') : binding.Akin akin' binding' := by
  cases h with
  | Variable => exact .Variable
  | Function => exact .Function
  | Module => exact .Module
  | «Type» h => exact .Type (hakin _ _ h)

-- One name, bound to the same thing.
inductive Scope.AkinEntry (akin : TypeId → TypeId → Prop) : Symbol × Binding → Symbol × Binding → Prop where
  | intro {name binding binding'} : binding.Akin akin binding' →
      AkinEntry akin (name, binding) (name, binding')

abbrev Scope.Akin (akin : TypeId → TypeId → Prop) : Scope → Scope → Prop :=
  List.Forall₂ (Scope.AkinEntry akin)

theorem Scope.Akin.lookup {scope scope' : Scope} (h : Scope.Akin akin scope scope') (name : Symbol) :
    Option.Rel (Binding.Akin akin) (scope.lookup name) (scope'.lookup name) := by
  induction h with
  | nil => exact .none
  | cons hfirst _ ih =>
      cases hfirst with
      | @intro known binding binding' hbinding =>
          rw [List.lookup_cons, List.lookup_cons]
          cases name == known with
          | true => exact .some hbinding
          | false => exact ih

structure Scopes.Akin (akin : TypeId → TypeId → Prop) (scopes scopes' : Scopes) : Prop where
  inner : List.Forall₂ (Scope.Akin akin) scopes.inner scopes'.inner
  module : Scope.Akin akin scopes.module scopes'.module

namespace Scopes.Akin

variable {scopes scopes' : Scopes}

theorem mono (hakin : ∀ type type', akin type type' → akin' type type')
    (h : scopes.Akin akin scopes') : scopes.Akin akin' scopes' := by
  have hscope : ∀ scope scope', Scope.Akin akin scope scope' → Scope.Akin akin' scope scope' :=
    fun _ _ hscope => hscope.imp fun _ _ ⟨hbinding⟩ => ⟨hbinding.mono hakin⟩
  exact ⟨h.inner.imp hscope, hscope _ _ h.module⟩

theorem push (h : scopes.Akin akin scopes') : scopes.push.Akin akin scopes'.push :=
  ⟨.cons .nil h.inner, h.module⟩

theorem pop (h : scopes.Akin akin scopes') : scopes.pop.Akin akin scopes'.pop := by
  obtain ⟨inner, module⟩ := scopes
  obtain ⟨inner', module'⟩ := scopes'
  refine ⟨?_, h.module⟩
  cases h.inner with
  | nil => exact .nil
  | cons _ hrest => exact hrest

theorem define (h : scopes.Akin akin scopes') (name : Symbol) {binding binding' : Binding}
    (hbinding : binding.Akin akin binding') :
    (scopes.define name binding).Akin akin (scopes'.define name binding') := by
  obtain ⟨inner, module⟩ := scopes
  obtain ⟨inner', module'⟩ := scopes'
  obtain ⟨hinner, hmodule⟩ := h
  cases hinner with
  | nil => exact ⟨.nil, .cons ⟨hbinding⟩ hmodule⟩
  | cons hfirst hrest => exact ⟨.cons (.cons ⟨hbinding⟩ hfirst) hrest, hmodule⟩

theorem isDefinedHere (h : scopes.Akin akin scopes') (name : Symbol) :
    scopes.isDefinedHere name = scopes'.isDefinedHere name := by
  have hsome : ∀ {found found' : Option Binding}, Option.Rel (Binding.Akin akin) found found' →
      found.isSome = found'.isSome := fun hfound => by cases hfound <;> rfl
  refine hsome ?_
  obtain ⟨inner, module⟩ := scopes
  obtain ⟨inner', module'⟩ := scopes'
  obtain ⟨hinner, hmodule⟩ := h
  cases hinner with
  | nil => exact Scope.Akin.lookup hmodule name
  | cons hfirst _ => exact Scope.Akin.lookup hfirst name

theorem lookup (h : scopes.Akin akin scopes') (name : Symbol) :
    Option.Rel (Binding.Akin akin) (scopes.lookup name) (scopes'.lookup name) := by
  obtain ⟨inner, module⟩ := scopes
  obtain ⟨inner', module'⟩ := scopes'
  obtain ⟨hinner, hmodule⟩ := h
  dsimp only [Scopes.lookup] at hinner hmodule ⊢
  induction hinner with
  | nil => exact Scope.Akin.lookup hmodule name
  | @cons scope scope' _ _ hfirst _ ih =>
      rw [List.findSome?_cons, List.findSome?_cons]
      have hfound := Scope.Akin.lookup hfirst name
      generalize scope.lookup name = found at hfound ⊢
      generalize scope'.lookup name = found' at hfound ⊢
      cases hfound with
      | none => exact ih
      | some h => exact .some h

end Scopes.Akin

end

namespace Program

variable {promises : Promises → Promises → Prop} {program program' : Program}

structure Akin (promises : Promises → Promises → Prop) (program program' : Program) : Prop where
  names : program.names = program'.names
  closed : program.types.Closed
  closed' : program'.types.Closed
  declared : List.Forall₂ (VariableEntry.Akin (TypeTable.Akin promises program.types program'.types))
    program.declared.toList program'.declared.toList
  functions : List.Forall₂ (FunctionEntry.Akin (TypeTable.Akin promises program.types program'.types))
    program.functions.toList program'.functions.toList
  modules : program.modules = program'.modules
  nodes : List.Forall₂ (Node.Akin (TypeTable.Akin promises program.types program'.types))
    program.arena.nodes.toList program'.arena.nodes.toList
  parents : program.arena.parents = program'.arena.parents
  bodies : program.bodies = program'.bodies
  globals : program.globals = program'.globals

namespace Akin

-- Types may be added on both sides.
theorem retyped (h : program.Akin promises program') {types types' : TypeTable}
    (hclosed : types.Closed) (hclosed' : types'.Closed)
    (hakin : ∀ type type', TypeTable.Akin promises program.types program'.types type type' →
      TypeTable.Akin promises types types' type type') :
    { program with types }.Akin promises { program' with types := types' } :=
  { h with
    closed := hclosed
    closed' := hclosed'
    declared := h.declared.imp fun _ _ ⟨htype⟩ => ⟨hakin _ _ htype⟩
    functions := h.functions.imp fun _ _ ⟨htype⟩ => ⟨hakin _ _ htype⟩
    nodes := h.nodes.imp fun _ _ hnode => hnode.mono hakin }

theorem keeps (h : program.Akin promises program') {types types' : TypeTable}
    (hgrows : program.types.shapes.Keeps types.shapes)
    (hgrows' : program'.types.shapes.Keeps types'.shapes) (type type' : TypeId)
    (hakin : TypeTable.Akin promises program.types program'.types type type') :
    TypeTable.Akin promises types types' type type' :=
  hakin.keeps h.closed h.closed' hgrows hgrows'

theorem error (h : program.Akin promises program') :
    TypeTable.Akin promises program.types program'.types .error .error :=
  .error h.closed h.closed'

theorem size_arena (h : program.Akin promises program') : program.arena.size = program'.arena.size := by
  have hlength := h.nodes.length_eq
  simpa [Arena.size] using hlength

theorem size_declared (h : program.Akin promises program') :
    program.declared.size = program'.declared.size := by
  simpa using h.declared.length_eq

theorem size_functions (h : program.Akin promises program') :
    program.functions.size = program'.functions.size := by
  simpa using h.functions.length_eq

theorem node (h : program.Akin promises program') (id : NodeId) :
    (program.arena.node id).Akin (TypeTable.Akin promises program.types program'.types)
      (program'.arena.node id) := by
  have hnode := rel_getElem? h.nodes id.index
  rw [Array.getElem?_toList, Array.getElem?_toList] at hnode
  unfold Arena.node Arena.node?
  generalize program.arena.nodes[id.index]? = found at hnode ⊢
  generalize program'.arena.nodes[id.index]? = found' at hnode ⊢
  cases hnode with
  | none => exact ⟨.Same rfl, .none, rfl⟩
  | some hnode => exact hnode

theorem variableType (h : program.Akin promises program') (id : VariableId) :
    TypeTable.Akin promises program.types program'.types (program.variableType id)
      (program'.variableType id) := by
  have hentry := rel_getElem? h.declared id.index
  rw [Array.getElem?_toList, Array.getElem?_toList] at hentry
  unfold Program.variableType
  generalize program.declared[id.index]? = found at hentry ⊢
  generalize program'.declared[id.index]? = found' at hentry ⊢
  cases hentry with
  | none => exact h.error
  | some hentry =>
      obtain ⟨htype⟩ := hentry
      exact htype

theorem functionType (h : program.Akin promises program') (id : FunctionId) :
    TypeTable.Akin promises program.types program'.types (program.functionType id)
      (program'.functionType id) := by
  have hentry := rel_getElem? h.functions id.index
  rw [Array.getElem?_toList, Array.getElem?_toList] at hentry
  unfold Program.functionType
  generalize program.functions[id.index]? = found at hentry ⊢
  generalize program'.functions[id.index]? = found' at hentry ⊢
  cases hentry with
  | none => exact h.error
  | some hentry =>
      obtain ⟨htype⟩ := hentry
      exact htype

theorem addNode (h : program.Akin promises program') {node node' : Node}
    (hnode : node.Akin (TypeTable.Akin promises program.types program'.types) node') :
    { program with arena := (program.arena.add node).2 }.Akin promises
      { program' with arena := (program'.arena.add node').2 } := by
  refine { h with nodes := ?_, parents := ?_ }
  · simp only [Arena.add, Array.toList_push]
    exact List.rel_append h.nodes (.cons hnode .nil)
  · simp only [Arena.add, hnode.kind.operands_eq, h.parents, h.size_arena]

end Akin

section

variable {scopes : Scopes}

-- A program without nodes is akin to itself.
theorem Sound.akin (h : program.Sound scopes) (hpromises : ∀ promised, promises promised promised)
    (hnodes : program.arena.nodes = #[]) : program.Akin promises program where
  names := rfl
  closed := h.closed
  closed' := h.closed
  declared := List.forall₂_same.mpr fun entry hmem =>
    ⟨.refl hpromises h.closed (h.declared entry (Array.mem_toList_iff.mp hmem))⟩
  functions := List.forall₂_same.mpr fun entry hmem =>
    ⟨.refl hpromises h.closed (h.functions entry (Array.mem_toList_iff.mp hmem))⟩
  modules := rfl
  nodes := by
    rw [hnodes]
    exact .nil
  parents := rfl
  bodies := rfl
  globals := rfl

theorem Sound.akin_scopes (h : program.Sound scopes) (hpromises : ∀ promised, promises promised promised) :
    scopes.Akin (TypeTable.Akin promises program.types program.types) scopes := by
  have hscope : ∀ scope ∈ scopes.module :: scopes.inner,
      Scope.Akin (TypeTable.Akin promises program.types program.types) scope scope := by
    refine fun scope hscope => List.forall₂_same.mpr fun entry hmem => ⟨?_⟩
    have hnamed := h.named entry.1 entry.2 ⟨scope, hscope, hmem⟩
    cases hbinding : entry.2 with
    | Variable => exact .Variable
    | Function => exact .Function
    | Module => exact .Module
    | «Type» id =>
        rw [hbinding] at hnamed
        exact .Type (.refl hpromises h.closed (Program.Named.known hnamed))
  rw [List.forall_mem_cons] at hscope
  exact ⟨List.forall₂_same.mpr hscope.2, hscope.1⟩

end

end Program

end EffectLint
