import EffectLint.Program.Text
import EffectLint.Proofs.Arena.Growth
import EffectLint.Proofs.Type.Growth

/-!
Programs only grow while they are lowered. What a smaller program knows, a larger one knows as
well, under the same numbers.
-/

namespace EffectLint

-- What stands in an array stands in the larger one at the same place.
def KeepsEntries {α : Type} (small large : Array α) : Prop :=
  ∀ (index : Nat) (entry : α), small[index]? = some entry → large[index]? = some entry

theorem KeepsEntries.refl {α : Type} (entries : Array α) : KeepsEntries entries entries :=
  fun _ _ h => h

theorem KeepsEntries.trans {α : Type} {first second third : Array α} (h : KeepsEntries first second)
    (h' : KeepsEntries second third) : KeepsEntries first third :=
  fun index entry hentry => h' index entry (h index entry hentry)

theorem keepsEntries_push {α : Type} (entries : Array α) (entry : α) :
    KeepsEntries entries (entries.push entry) := by
  intro index old hold
  have hlt : index < entries.size := (Array.getElem?_eq_some_iff.mp hold).1
  rw [Array.getElem?_push_lt hlt, ← Array.getElem?_eq_getElem hlt]
  exact hold

namespace Program

structure Extends (large small : Program) : Prop where
  names : small.names.names.Keeps large.names.names
  types : small.types.shapes.Keeps large.types.shapes
  declared : KeepsEntries small.declared large.declared
  functions : KeepsEntries small.functions large.functions
  modules : KeepsEntries small.modules large.modules
  nodes : KeepsEntries small.arena.nodes large.arena.nodes

namespace Extends

variable {program first second third : Program}

theorem refl (program : Program) : program.Extends program :=
  ⟨.refl _, .refl _, .refl _, .refl _, .refl _, .refl _⟩

theorem trans (h : second.Extends first) (h' : third.Extends second) : third.Extends first where
  names := h.names.trans h'.names
  types := h.types.trans h'.types
  declared := h.declared.trans h'.declared
  functions := h.functions.trans h'.functions
  modules := h.modules.trans h'.modules
  nodes := h.nodes.trans h'.nodes

theorem insertName (name : String) :
    { program with names := (program.names.insert name).2 }.Extends program :=
  { refl program with names := Numbering.keeps_insert }

theorem insertType (shape : Shape) :
    { program with types := (program.types.insert shape).2 }.Extends program :=
  { refl program with types := TypeTable.keeps_insert }

theorem addNode (node : Node) :
    { program with arena := (program.arena.add node).2 }.Extends program :=
  { refl program with nodes := keepsEntries_push _ _ }

theorem addVariable (entry : VariableEntry) :
    { program with declared := program.declared.push entry }.Extends program :=
  { refl program with declared := keepsEntries_push _ _ }

theorem addFunction (entry : FunctionEntry) :
    { program with functions := program.functions.push entry }.Extends program :=
  { refl program with functions := keepsEntries_push _ _ }

theorem addModule (entry : ModuleEntry) :
    { program with modules := program.modules.push entry }.Extends program :=
  { refl program with modules := keepsEntries_push _ _ }

theorem addBody (body : FunctionBody) :
    { program with bodies := program.bodies.push body }.Extends program :=
  { refl program with }

theorem addGlobal (value : GlobalValue) :
    { program with globals := program.globals.push value }.Extends program :=
  { refl program with }

end Extends

-- What a name stands for with some scopes open.
def binding? (program : Program) (scopes : Scopes) (name : String) : Option Binding :=
  (program.names.find? name).bind scopes.lookup

theorem Extends.binding?_eq {large small : Program} (h : large.Extends small) {scopes : Scopes}
    {name : String} {binding : Binding} (hbinding : small.binding? scopes name = some binding) :
    large.binding? scopes name = some binding := by
  obtain ⟨symbol, hsymbol, hlookup⟩ := Option.bind_eq_some_iff.mp hbinding
  have hname := h.names _ _ (NameTable.get?_of_find? hsymbol)
  have hlarge : large.names.find? name = some symbol := NameTable.find?_of_get? hname
  rw [binding?, hlarge, Option.bind_some, hlookup]

-- A binding leads to an entry of the name that is bound.
def Named (program : Program) (symbol : Symbol) : Binding → Prop
  | .Variable id => ∃ entry, program.declared[id.index]? = some entry ∧ entry.name = symbol
  | .Function id => ∃ entry, program.functions[id.index]? = some entry ∧ entry.name = symbol
  | .Module id => ∃ entry, program.modules[id.index]? = some entry ∧ entry.name = symbol
  | .Type id =>
      program.types.shape? id = some (.Class symbol) ∨
        ∃ target, program.types.shape? id = some (.Alias symbol target)

theorem Extends.named {large small : Program} (h : large.Extends small) {symbol : Symbol}
    {binding : Binding} (hnamed : small.Named symbol binding) : large.Named symbol binding := by
  cases binding with
  | Variable id => exact hnamed.imp fun entry hentry => ⟨h.declared _ _ hentry.1, hentry.2⟩
  | Function id => exact hnamed.imp fun entry hentry => ⟨h.functions _ _ hentry.1, hentry.2⟩
  | Module id => exact hnamed.imp fun entry hentry => ⟨h.modules _ _ hentry.1, hentry.2⟩
  | «Type» id =>
      rcases hnamed with hclass | ⟨target, halias⟩
      · exact .inl (h.types _ _ hclass)
      · exact .inr ⟨target, h.types _ _ halias⟩

end Program

-- What one of the open scopes knows, hidden by an inner one or not.
def Scopes.Holds (scopes : Scopes) (symbol : Symbol) (binding : Binding) : Prop :=
  ∃ scope ∈ scopes.module :: scopes.inner, (symbol, binding) ∈ scope

theorem Scopes.holds_of_lookup {scopes : Scopes} {symbol : Symbol} {binding : Binding}
    (h : scopes.lookup symbol = some binding) : scopes.Holds symbol binding := by
  have hscope : ∀ scope : Scope, scope.lookup symbol = some binding → (symbol, binding) ∈ scope := by
    intro scope hfound
    obtain ⟨front, back, rfl, _⟩ := List.lookup_eq_some_iff.mp hfound
    simp
  rcases Option.or_eq_some_iff.mp h with hinner | ⟨_, hmodule⟩
  · obtain ⟨scope, hmem, hfound⟩ := List.exists_of_findSome?_eq_some hinner
    exact ⟨scope, List.mem_cons_of_mem _ hmem, hscope scope hfound⟩
  · exact ⟨scopes.module, List.mem_cons_self, hscope _ hmodule⟩

namespace Scopes.Holds

variable {scopes : Scopes} {symbol : Symbol} {binding : Binding}

theorem of_push (h : scopes.push.Holds symbol binding) : scopes.Holds symbol binding := by
  obtain ⟨scope, hscope, hmem⟩ := h
  simp only [push, List.mem_cons] at hscope
  rcases hscope with rfl | rfl | hscope
  · exact ⟨_, List.mem_cons_self, hmem⟩
  · cases hmem
  · exact ⟨scope, List.mem_cons_of_mem _ hscope, hmem⟩

theorem of_pop (h : scopes.pop.Holds symbol binding) : scopes.Holds symbol binding := by
  obtain ⟨scope, hscope, hmem⟩ := h
  rcases List.mem_cons.mp hscope with rfl | hscope
  · exact ⟨_, List.mem_cons_self, hmem⟩
  · exact ⟨scope, List.mem_cons_of_mem _ (List.mem_of_mem_tail hscope), hmem⟩

theorem of_define {name : Symbol} {added : Binding} (h : (scopes.define name added).Holds symbol binding) :
    scopes.Holds symbol binding ∨ symbol = name ∧ binding = added := by
  obtain ⟨scope, hscope, hmem⟩ := h
  unfold define at hscope
  split at hscope
  · next inner outer hinner =>
      simp only [List.mem_cons] at hscope
      rcases hscope with rfl | rfl | hscope
      · exact .inl ⟨_, List.mem_cons_self, hmem⟩
      · rcases List.mem_cons.mp hmem with heq | hmem
        · exact .inr (Prod.mk.inj heq)
        · exact .inl ⟨inner, by simp [hinner], hmem⟩
      · exact .inl ⟨scope, by simp [hinner, hscope], hmem⟩
  · next hinner =>
      simp only [List.mem_cons, hinner, List.not_mem_nil, or_false] at hscope
      subst hscope
      rcases List.mem_cons.mp hmem with heq | hmem
      · exact .inr (Prod.mk.inj heq)
      · exact .inl ⟨_, List.mem_cons_self, hmem⟩

end Scopes.Holds

namespace Program

-- What holds of a program and the open scopes whenever an expression is lowered: all types that
-- anything has are known, and every name leads to an entry of that name.
structure Sound (program : Program) (scopes : Scopes) : Prop where
  closed : program.types.Closed
  nodes : ∀ node ∈ program.arena.nodes, ∀ type ∈ node.type, program.types.Known type
  declared : ∀ entry ∈ program.declared, program.types.Known entry.type
  functions : ∀ entry ∈ program.functions, program.types.Known entry.type
  named : ∀ symbol binding, scopes.Holds symbol binding → program.Named symbol binding

theorem Sound.type?_known {program : Program} {scopes : Scopes} (h : program.Sound scopes)
    {id : NodeId} {type : TypeId} (htype : program.arena.type? id = some type) :
    program.types.Known type := by
  rw [Arena.type?, Arena.node] at htype
  cases hnode : program.arena.node? id with
  | none =>
      rw [hnode] at htype
      cases htype
  | some node =>
      rw [hnode] at htype
      exact h.nodes node (Array.mem_of_getElem? hnode) type htype

-- Where an operand is there, its node is the same in a larger program.
theorem Extends.node_eq {large small : Program} (h : large.Extends small) {id : NodeId} {node : Node}
    (hnode : small.arena.node? id = some node) :
    large.arena.node id = node ∧ small.arena.node id = node := by
  exact ⟨Arena.node_of_node? (h.nodes _ _ hnode), Arena.node_of_node? hnode⟩

theorem Sound.named_of_binding? {program : Program} {scopes : Scopes} (h : program.Sound scopes)
    {name : String} {binding : Binding} (hbinding : program.binding? scopes name = some binding) :
    ∃ symbol, program.names.get? symbol = some name ∧ program.Named symbol binding := by
  obtain ⟨symbol, hsymbol, hlookup⟩ := Option.bind_eq_some_iff.mp hbinding
  exact ⟨symbol, NameTable.get?_of_find? hsymbol,
    h.named symbol binding (Scopes.holds_of_lookup hlookup)⟩

section

variable {program : Program} {scopes : Scopes}

-- What only adds to the types keeps all types known and all names bound to entries.
theorem Sound.extends {large small : Program} (h : small.Sound scopes) (hextends : large.Extends small)
    (hclosed : large.types.Closed)
    (hnodes : ∀ node ∈ large.arena.nodes, node ∈ small.arena.nodes ∨
      ∀ type ∈ node.type, large.types.Known type)
    (hdeclared : ∀ entry ∈ large.declared, entry ∈ small.declared ∨ large.types.Known entry.type)
    (hfunctions : ∀ entry ∈ large.functions, entry ∈ small.functions ∨
      large.types.Known entry.type) : large.Sound scopes where
  closed := hclosed
  nodes := by
    intro node hmem type htype
    rcases hnodes node hmem with hold | hnew
    · exact (h.nodes node hold type htype).keeps hextends.types
    · exact hnew type htype
  declared := by
    intro entry hmem
    rcases hdeclared entry hmem with hold | hnew
    · exact (h.declared entry hold).keeps hextends.types
    · exact hnew
  functions := by
    intro entry hmem
    rcases hfunctions entry hmem with hold | hnew
    · exact (h.functions entry hold).keeps hextends.types
    · exact hnew
  named := fun symbol binding hholds => hextends.named (h.named symbol binding hholds)

theorem Sound.insertName (h : program.Sound scopes) (name : String) :
    { program with names := (program.names.insert name).2 }.Sound scopes :=
  h.extends (.insertName name) h.closed (fun _ => .inl) (fun _ => .inl) fun _ => .inl

theorem Sound.insertType (h : program.Sound scopes) {shape : Shape}
    (hparts : ∀ part ∈ shape.parts, program.types.Known part) :
    { program with types := (program.types.insert shape).2 }.Sound scopes :=
  h.extends (.insertType shape) (h.closed.insert hparts) (fun _ => .inl) (fun _ => .inl)
    fun _ => .inl

theorem Sound.addNode (h : program.Sound scopes) {node : Node}
    (htype : ∀ type ∈ node.type, program.types.Known type) :
    { program with arena := (program.arena.add node).2 }.Sound scopes := by
  refine h.extends (.addNode node) h.closed (fun other hmem => ?_) (fun _ => .inl) fun _ => .inl
  rcases Array.mem_push.mp hmem with hold | rfl
  · exact .inl hold
  · exact .inr htype

theorem Sound.addVariable (h : program.Sound scopes) {entry : VariableEntry}
    (htype : program.types.Known entry.type) :
    { program with declared := program.declared.push entry }.Sound scopes := by
  refine h.extends (.addVariable entry) h.closed (fun _ => .inl) (fun other hmem => ?_) fun _ => .inl
  rcases Array.mem_push.mp hmem with hold | rfl
  · exact .inl hold
  · exact .inr htype

theorem Sound.addFunction (h : program.Sound scopes) {entry : FunctionEntry}
    (htype : program.types.Known entry.type) :
    { program with functions := program.functions.push entry }.Sound scopes := by
  refine h.extends (.addFunction entry) h.closed (fun _ => .inl) (fun _ => .inl) fun other hmem => ?_
  rcases Array.mem_push.mp hmem with hold | rfl
  · exact .inl hold
  · exact .inr htype

theorem Sound.addModule (h : program.Sound scopes) (entry : ModuleEntry) :
    { program with modules := program.modules.push entry }.Sound scopes :=
  h.extends (.addModule entry) h.closed (fun _ => .inl) (fun _ => .inl) fun _ => .inl

-- Only what the scopes hold matters of them.
theorem Sound.of_holds {other : Scopes} (h : program.Sound scopes)
    (hholds : ∀ symbol binding, other.Holds symbol binding →
      scopes.Holds symbol binding ∨ program.Named symbol binding) : program.Sound other :=
  { h with
    named := fun symbol binding hother =>
      (hholds symbol binding hother).elim (h.named symbol binding) id }

theorem Sound.push (h : program.Sound scopes) : program.Sound scopes.push :=
  h.of_holds fun _ _ hholds => .inl hholds.of_push

theorem Sound.pop (h : program.Sound scopes) : program.Sound scopes.pop :=
  h.of_holds fun _ _ hholds => .inl hholds.of_pop

theorem Sound.define (h : program.Sound scopes) {symbol : Symbol} {binding : Binding}
    (hnamed : program.Named symbol binding) : program.Sound (scopes.define symbol binding) := by
  refine h.of_holds fun other bound hholds => hholds.of_define.imp_right ?_
  rintro ⟨rfl, rfl⟩
  exact hnamed

end

theorem sound_empty : empty.Sound .empty where
  closed := TypeTable.closed_start
  nodes := by
    intro node hmem
    cases Array.not_mem_empty node hmem
  declared := by
    intro entry hmem
    cases Array.not_mem_empty entry hmem
  functions := by
    intro entry hmem
    cases Array.not_mem_empty entry hmem
  named := by
    rintro symbol binding ⟨scope, hscope, hmem⟩
    simp only [Scopes.empty, List.mem_cons, List.not_mem_nil, or_false] at hscope
    subst hscope
    cases hmem

end Program

end EffectLint
