import EffectLint.Proofs.Lowering.Makers
import EffectLint.Proofs.Lowering.Runs
import EffectLint.Proofs.Program.Akin
import EffectLint.Proofs.Tree.Edited

/-!
Lowering two modules alongside each other. After each step the two programs are the same but for
akin types, the same things have been said at the same places, and the names that are reserved stand
for the types that they have stood for from the start.
-/

namespace EffectLint

-- What a diagnostic says is wrong and where, without its words.
def Diagnostic.place (diagnostic : Diagnostic) : DiagnosticKind × Severity × Span :=
  (diagnostic.kind, diagnostic.severity, diagnostic.span)

theorem Diagnostic.place_about (kind : DiagnosticKind) (span : Span) (detail detail' : String) :
    (about kind span detail).place = (about kind span detail').place :=
  rfl

def Diagnostics.places (diagnostics : List Diagnostic) : List (DiagnosticKind × Severity × Span) :=
  diagnostics.map Diagnostic.place

structure Reporter.Akin (reporter reporter' : Reporter) : Prop where
  mode : reporter.mode = reporter'.mode
  depth : reporter.depth = reporter'.depth
  swallowed : reporter.swallowed = reporter'.swallowed
  places : Diagnostics.places reporter.diagnostics.toList =
    Diagnostics.places reporter'.diagnostics.toList

namespace Reporter.Akin

variable {reporter reporter' : Reporter}

theorem report (h : reporter.Akin reporter') {diagnostic diagnostic' : Diagnostic}
    (hplace : diagnostic.place = diagnostic'.place) :
    (reporter.report diagnostic).Akin (reporter'.report diagnostic') := by
  have hgagged : reporter.isGagged = reporter'.isGagged := by rw [isGagged, isGagged, h.depth]
  have herror : diagnostic.isError = diagnostic'.isError := by
    rw [Diagnostic.isError, Diagnostic.isError, (Prod.mk.inj (Prod.mk.inj hplace).2).1]
  unfold Reporter.report
  rw [hgagged, herror]
  split
  · split
    · exact { h with swallowed := by rw [h.swallowed] }
    · exact h
  · refine { h with places := ?_ }
    simp only [Diagnostics.places, Array.toList_push, List.map_append, List.map_cons, List.map_nil,
      hplace]
    exact congrArg (· ++ [diagnostic'.place]) h.places

end Reporter.Akin

-- Defining another name leaves a name as it is, in the scope of the module and in those above it.
theorem Scopes.bound_define {scopes : Scopes} {module : Scope} {symbol name : Symbol} {binding : Binding}
    (hne : symbol ≠ name) (hinner : ∀ scope ∈ scopes.inner, scope.lookup symbol = none)
    (hmodule : scopes.module.lookup symbol = module.lookup symbol) :
    (∀ scope ∈ (scopes.define name binding).inner, scope.lookup symbol = none) ∧
      (scopes.define name binding).module.lookup symbol = module.lookup symbol := by
  obtain ⟨inner, around⟩ := scopes
  have hskip : ∀ scope : Scope, List.lookup symbol ((name, binding) :: scope) = scope.lookup symbol :=
    fun scope => by rw [List.lookup_cons, beq_false_of_ne hne]
  cases inner with
  | nil => exact ⟨fun _ hmem => absurd hmem List.not_mem_nil, (hskip around).trans hmodule⟩
  | cons scope outer =>
      refine ⟨List.forall_mem_cons.mpr ⟨(hskip scope).trans ?_, ?_⟩, hmodule⟩
      · exact hinner scope List.mem_cons_self
      · exact fun other hmem => hinner other (List.mem_cons_of_mem _ hmem)

namespace LoweringState

-- What has been entered since `base` was reached leaves its names and types where they are, and what a
-- reserved name is bound to in the module is found under it in every scope.
structure Holds (reserved : String → Prop) (state base : LoweringState) : Prop where
  names : base.program.names.names.Keeps state.program.names.names
  types : base.program.types.shapes.Keeps state.program.types.shapes
  bound : ∀ name symbol, reserved name → base.program.names.get? symbol = some name →
    (∀ scope ∈ state.scopes.inner, scope.lookup symbol = none) ∧
      state.scopes.module.lookup symbol = base.scopes.module.lookup symbol

-- A reserved name is known, so it does not matter where it stands.
theorem Holds.binding?_eq {reserved : String → Prop} {state base : LoweringState}
    (h : state.Holds reserved base) {name : String} {symbol : Symbol} {binding : Binding}
    (hname : reserved name) (hsymbol : base.program.names.get? symbol = some name)
    (hmodule : base.scopes.module.lookup symbol = some binding) :
    state.program.binding? state.scopes name = some binding := by
  obtain ⟨hinner, hbound⟩ := h.bound name symbol hname hsymbol
  have hnone : state.scopes.inner.findSome? (·.lookup symbol) = none :=
    List.findSome?_eq_none_iff.mpr hinner
  rw [Program.binding?, NameTable.find?_of_get? (h.names _ _ hsymbol), Option.bind_some, Scopes.lookup,
    hnone, Option.none_or, hbound, hmodule]

abbrev AkinTypes (edit : Edit) (state state' : LoweringState) : TypeId → TypeId → Prop :=
  TypeTable.Akin edit.promises state.program.types state'.program.types

structure Beside (edit : Edit) (state state' base : LoweringState) : Prop where
  program : state.program.Akin edit.promises state'.program
  scopes : state.scopes.Akin (state.AkinTypes edit state') state'.scopes
  reporter : state.reporter.Akin state'.reporter
  holds : state.Holds edit.reserved base

-- A state at module level is beside itself.
theorem Sound.beside {edit : Edit} {state : LoweringState} (h : state.Sound)
    (hpromises : ∀ promised, edit.promises promised promised) (hnodes : state.program.arena.nodes = #[])
    (houter : state.scopes.inner = []) : state.Beside edit state state where
  program := Program.Sound.akin h hpromises hnodes
  scopes := Program.Sound.akin_scopes h hpromises
  reporter := ⟨rfl, rfl, rfl, rfl⟩
  holds := ⟨.refl _, .refl _, fun _ _ _ _ => ⟨by rw [houter]; exact List.forall_mem_nil _, rfl⟩⟩

end LoweringState

namespace Lower

variable {edit : Edit} {base : LoweringState}

-- From states that are alike two computations lead to such states, and their answers match.
structure Alongside (edit : Edit) (base : LoweringState) {α β : Type} (body : Lower α) (body' : Lower β)
    (good : TypeTable → TypeTable → α → β → Prop) (state state' : LoweringState) : Prop where
  beside : (body state).2.Beside edit (body' state').2 base
  keeps : state.program.types.shapes.Keeps (body state).2.program.types.shapes
  keeps' : state'.program.types.shapes.Keeps (body' state').2.program.types.shapes
  answer : good (body state).2.program.types (body' state').2.program.types (body state).1 (body' state').1

-- Both give the same answer.
def Same {α : Type} (_ _ : TypeTable) (answer answer' : α) : Prop :=
  answer = answer'

namespace Alongside

variable {α β γ δ : Type} {good : TypeTable → TypeTable → α → β → Prop}
  {good' : TypeTable → TypeTable → γ → δ → Prop} {state state' : LoweringState}

theorem pure (h : state.Beside edit state' base) {answer : α} {answer' : β}
    (hgood : good state.program.types state'.program.types answer answer') :
    Alongside edit base (Pure.pure answer) (Pure.pure answer') good state state' :=
  ⟨h, .refl _, .refl _, hgood⟩

theorem bind {first : Lower α} {first' : Lower β} {next : α → Lower γ} {next' : β → Lower δ}
    (hfirst : Alongside edit base first first' good state state')
    (hnext : ∀ answer answer' later later', later.Beside edit later' base →
      state.program.types.shapes.Keeps later.program.types.shapes →
      state'.program.types.shapes.Keeps later'.program.types.shapes →
      good later.program.types later'.program.types answer answer' →
      Alongside edit base (next answer) (next' answer') good' later later') :
    Alongside edit base (first >>= next) (first' >>= next') good' state state' := by
  have h := hnext _ _ _ _ hfirst.beside hfirst.keeps hfirst.keeps' hfirst.answer
  exact ⟨h.beside, hfirst.keeps.trans h.keeps, hfirst.keeps'.trans h.keeps', h.answer⟩

theorem congr {body other : Lower α} {body' other' : Lower β}
    (h : Alongside edit base body body' good state state') (heq : other state = body state)
    (heq' : other' state' = body' state') : Alongside edit base other other' good state state' := by
  refine ⟨?_, ?_, ?_, ?_⟩
  · rw [heq, heq']
    exact h.beside
  · rw [heq]
    exact h.keeps
  · rw [heq']
    exact h.keeps'
  · rw [heq, heq']
    exact h.answer

-- A step that leaves the types as they are.
theorem of_types {body : Lower α} {body' : Lower β}
    (h : (body state).2.Beside edit (body' state').2 base)
    (htypes : (body state).2.program.types = state.program.types)
    (htypes' : (body' state').2.program.types = state'.program.types)
    (hgood : good (body state).2.program.types (body' state').2.program.types (body state).1
      (body' state').1) : Alongside edit base body body' good state state' := by
  refine ⟨h, ?_, ?_, hgood⟩
  · rw [htypes]
    exact .refl _
  · rw [htypes']
    exact .refl _

-- A look at what is known changes nothing.
theorem read {look : LoweringState → γ} {look' : LoweringState → δ} {next : γ → Lower α}
    {next' : δ → Lower β}
    (hnext : Alongside edit base (next (look state)) (next' (look' state')) good state state') :
    Alongside edit base ((fun state => (look state, state) : Lower γ) >>= next)
      ((fun state => (look' state, state) : Lower δ) >>= next') good state state' :=
  ⟨hnext.beside, hnext.keeps, hnext.keeps', hnext.answer⟩

theorem lookup (h : state.Beside edit state' base) (name : String) {next : Option Binding → Lower α}
    {next' : Option Binding → Lower β}
    (hnext : ∀ found found', found = state.program.binding? state.scopes name →
      Option.Rel (Binding.Akin (state.AkinTypes edit state')) found found' →
      Alongside edit base (next found) (next' found') good state state') :
    Alongside edit base (Lower.lookup name >>= next) (Lower.lookup name >>= next') good state state' := by
  have hfound : Option.Rel (Binding.Akin (state.AkinTypes edit state'))
      ((state.program.names.find? name).bind state.scopes.lookup)
      ((state'.program.names.find? name).bind state'.scopes.lookup) := by
    rw [← h.program.names]
    cases state.program.names.find? name with
    | none => exact .none
    | some symbol => exact h.scopes.lookup symbol
  exact read (hnext _ _ rfl hfound)

theorem typeOf (h : state.Beside edit state' base) (id : NodeId) {next : Option TypeId → Lower α}
    {next' : Option TypeId → Lower β}
    (hnext : ∀ type type', Option.Rel (state.AkinTypes edit state') type type' →
      Alongside edit base (next type) (next' type') good state state') :
    Alongside edit base (Lower.typeOf id >>= next) (Lower.typeOf id >>= next') good state state' := by
  exact read (hnext _ _ (h.program.node id).type)

theorem node (h : state.Beside edit state' base) (id : NodeId) {next : Node → Lower α}
    {next' : Node → Lower β}
    (hnext : ∀ node node', node.Akin (state.AkinTypes edit state') node' →
      Alongside edit base (next node) (next' node') good state state') :
    Alongside edit base (Lower.node id >>= next) (Lower.node id >>= next') good state state' := by
  exact read (hnext _ _ (h.program.node id))

theorem report (h : state.Beside edit state' base) {diagnostic diagnostic' : Diagnostic}
    (hplace : diagnostic.place = diagnostic'.place) :
    Alongside edit base (Lower.report diagnostic) (Lower.report diagnostic') Same state state' :=
  of_types ⟨h.program, h.scopes, h.reporter.report hplace, { h.holds with }⟩ rfl rfl rfl

theorem symbol (h : state.Beside edit state' base) (name : String) :
    Alongside edit base (Lower.symbol name) (Lower.symbol name) Same state state' := by
  have hnames := h.program.names
  refine of_types ⟨{ h.program with names := ?_ }, h.scopes, h.reporter,
    { h.holds with names := h.holds.names.trans Numbering.keeps_insert }⟩ rfl rfl ?_
  · simp only [Lower.symbol, hnames]
  · simp only [Lower.symbol, Same, hnames]

theorem entered (h : state.Beside edit state' base) {shape shape' : Shape}
    (hparts : ∀ part ∈ shape.parts, state.program.types.Known part)
    (hparts' : ∀ part ∈ shape'.parts, state'.program.types.Known part)
    (hakin : TypeTable.Akin edit.promises (state.program.types.insert shape).2
      (state'.program.types.insert shape').2 (state.program.types.insert shape).1
      (state'.program.types.insert shape').1) :
    Alongside edit base (Lower.internType shape) (Lower.internType shape')
      (TypeTable.Akin edit.promises) state state' := by
  have hkeeps := h.program.keeps (@TypeTable.keeps_insert state.program.types shape)
    (@TypeTable.keeps_insert state'.program.types shape')
  have hclosed := h.program.closed.insert hparts
  have hclosed' := h.program.closed'.insert hparts'
  exact ⟨⟨h.program.retyped hclosed hclosed' hkeeps, h.scopes.mono hkeeps, h.reporter,
    { h.holds with types := h.holds.types.trans Numbering.keeps_insert }⟩, Numbering.keeps_insert,
    Numbering.keeps_insert, hakin⟩

theorem internType (h : state.Beside edit state' base) {shape shape' : Shape}
    (hshape : shape.Akin edit.promises (state.AkinTypes edit state') shape') :
    Alongside edit base (Lower.internType shape) (Lower.internType shape')
      (TypeTable.Akin edit.promises) state state' := by
  obtain ⟨hparts, hparts'⟩ := hshape.forall_parts fun _ _ h => h.known
  exact entered h hparts hparts' (.insert h.program.closed h.program.closed' hshape)

theorem internAlias (h : state.Beside edit state' base) (name : Symbol) {target target' : TypeId}
    (htarget : state.AkinTypes edit state' target target') :
    Alongside edit base (Lower.internType (.Alias name target)) (Lower.internType (.Alias name target'))
      (TypeTable.Akin edit.promises) state state' := by
  have hparts : ∀ part ∈ (Shape.Alias name target).parts, state.program.types.Known part :=
    List.forall_mem_singleton.mpr htarget.known.1
  have hparts' : ∀ part ∈ (Shape.Alias name target').parts, state'.program.types.Known part :=
    List.forall_mem_singleton.mpr htarget.known.2
  refine entered h hparts hparts' ?_
  exact .aliases (h.program.closed.insert hparts) (h.program.closed'.insert hparts')
    TypeTable.shape?_insert TypeTable.shape?_insert
    (h.program.keeps TypeTable.keeps_insert TypeTable.keeps_insert _ _ htarget)

theorem addNode (h : state.Beside edit state' base) {node node' : Node}
    (hnode : node.Akin (state.AkinTypes edit state') node') :
    Alongside edit base (Lower.addNode node) (Lower.addNode node') Same state state' :=
  of_types ⟨h.program.addNode hnode, h.scopes, h.reporter, { h.holds with }⟩ rfl rfl
    (congrArg NodeId.mk h.program.size_arena)

theorem addVariable (h : state.Beside edit state' base) {entry entry' : VariableEntry}
    (hentry : entry.Akin (state.AkinTypes edit state') entry') :
    Alongside edit base (Lower.addVariable entry) (Lower.addVariable entry') Same state state' := by
  refine of_types ⟨{ h.program with declared := ?_ }, h.scopes, h.reporter, { h.holds with }⟩ rfl rfl
    (congrArg VariableId.mk h.program.size_declared)
  simp only [Lower.addVariable, Array.toList_push]
  exact List.rel_append h.program.declared (.cons hentry .nil)

theorem addFunction (h : state.Beside edit state' base) {entry entry' : FunctionEntry}
    (hentry : entry.Akin (state.AkinTypes edit state') entry') :
    Alongside edit base (Lower.addFunction entry) (Lower.addFunction entry') Same state state' := by
  refine of_types ⟨{ h.program with functions := ?_ }, h.scopes, h.reporter, { h.holds with }⟩ rfl rfl
    (congrArg FunctionId.mk h.program.size_functions)
  simp only [Lower.addFunction, Array.toList_push]
  exact List.rel_append h.program.functions (.cons hentry .nil)

theorem addModule (h : state.Beside edit state' base) (entry : ModuleEntry) :
    Alongside edit base (Lower.addModule entry) (Lower.addModule entry) Same state state' := by
  refine of_types ⟨{ h.program with modules := ?_ }, h.scopes, h.reporter, { h.holds with }⟩ rfl rfl ?_
  · simp only [Lower.addModule, h.program.modules]
  · simp only [Same, Lower.addModule, h.program.modules]

theorem addBody (h : state.Beside edit state' base) (body : FunctionBody) :
    Alongside edit base (Lower.addBody body) (Lower.addBody body) Same state state' := by
  refine of_types ⟨{ h.program with bodies := ?_ }, h.scopes, h.reporter, { h.holds with }⟩ rfl rfl rfl
  simp only [Lower.addBody, h.program.bodies]

theorem addGlobal (h : state.Beside edit state' base) (value : GlobalValue) :
    Alongside edit base (Lower.addGlobal value) (Lower.addGlobal value) Same state state' := by
  refine of_types ⟨{ h.program with globals := ?_ }, h.scopes, h.reporter, { h.holds with }⟩ rfl rfl rfl
  simp only [Lower.addGlobal, h.program.globals]

theorem startGag (h : state.Beside edit state' base) :
    Alongside edit base Lower.startGag Lower.startGag Same state state' :=
  of_types ⟨h.program, h.scopes, { h.reporter with depth := congrArg (· + 1) h.reporter.depth },
    { h.holds with }⟩ rfl rfl (congrArg Gag.mk h.reporter.swallowed)

theorem endGag (h : state.Beside edit state' base) (gag : Gag) :
    Alongside edit base (Lower.endGag gag) (Lower.endGag gag) Same state state' :=
  of_types ⟨h.program, h.scopes, { h.reporter with depth := congrArg (· - 1) h.reporter.depth },
    { h.holds with }⟩ rfl rfl (congrArg (· != gag.swallowedBefore) h.reporter.swallowed)

theorem pushScope (h : state.Beside edit state' base) :
    Alongside edit base Lower.pushScope Lower.pushScope Same state state' := by
  refine of_types ⟨h.program, h.scopes.push, h.reporter, { h.holds with bound := ?_ }⟩ rfl rfl rfl
  intro name symbol hname hsymbol
  obtain ⟨hinner, hmodule⟩ := h.holds.bound name symbol hname hsymbol
  exact ⟨List.forall_mem_cons.mpr ⟨rfl, hinner⟩, hmodule⟩

theorem popScope (h : state.Beside edit state' base) :
    Alongside edit base Lower.popScope Lower.popScope Same state state' := by
  refine of_types ⟨h.program, h.scopes.pop, h.reporter, { h.holds with bound := ?_ }⟩ rfl rfl rfl
  intro name symbol hname hsymbol
  obtain ⟨hinner, hmodule⟩ := h.holds.bound name symbol hname hsymbol
  exact ⟨fun scope hmem => hinner scope (List.mem_of_mem_tail hmem), hmodule⟩

theorem inScope {body : Lower α} {body' : Lower β} (h : state.Beside edit state' base)
    (hbody : ∀ inner inner', inner.Beside edit inner' base →
      state.program.types.shapes.Keeps inner.program.types.shapes →
      state'.program.types.shapes.Keeps inner'.program.types.shapes →
      Alongside edit base body body' good inner inner') :
    Alongside edit base (Lower.inScope body) (Lower.inScope body') good state state' := by
  have hinner := hbody _ _ (pushScope h).beside (.refl _) (.refl _)
  have hpop := popScope hinner.beside
  exact ⟨hpop.beside, hinner.keeps, hinner.keeps', hinner.answer⟩

-- The same name is defined, or reported, on both sides. A reserved one is not among them.
theorem define (h : state.Beside edit state' base) {name : Name} (hfree : ¬edit.reserved name.text)
    {binding binding' : Binding} (hbinding : binding.Akin (state.AkinTypes edit state') binding') :
    Alongside edit base (Lower.define name binding) (Lower.define name binding') Same state state' := by
  have hsymbol := symbol h name.text
  have hfound : (Lower.symbol name.text state).1 = (Lower.symbol name.text state').1 := hsymbol.answer
  have hdefined := hsymbol.beside.scopes.isDefinedHere (Lower.symbol name.text state).1
  cases hhere : (Lower.symbol name.text state).2.scopes.isDefinedHere (Lower.symbol name.text state).1 with
  | true =>
      have happly : Lower.define name binding state =
          Lower.report (.about .DuplicateDefinition name.span name.text)
            (Lower.symbol name.text state).2 := by
        rw [define_apply, if_pos hhere]
      have happly' : Lower.define name binding' state' =
          Lower.report (.about .DuplicateDefinition name.span name.text)
            (Lower.symbol name.text state').2 := by
        rw [define_apply, ← hfound, if_pos (hdefined.symm.trans hhere)]
      refine of_types ?_ (by rw [happly]; rfl) (by rw [happly']; rfl) rfl
      rw [happly, happly']
      exact (report hsymbol.beside rfl).beside
  | false =>
      have happly : Lower.define name binding state = ((), ⟨(Lower.symbol name.text state).2.program,
          state.scopes.define (Lower.symbol name.text state).1 binding, state.reporter⟩) := by
        rw [define_apply, if_neg (by simp [hhere])]
      have happly' : Lower.define name binding' state' =
          ((), ⟨(Lower.symbol name.text state').2.program,
            state'.scopes.define (Lower.symbol name.text state).1 binding', state'.reporter⟩) := by
        rw [define_apply, ← hfound, if_neg (by rw [← hdefined, hhere]; simp)]
      refine of_types ?_ (by rw [happly]; rfl) (by rw [happly']; rfl) rfl
      rw [happly, happly']
      refine ⟨hsymbol.beside.program, h.scopes.define _ hbinding, h.reporter, ?_⟩
      refine { hsymbol.beside.holds with bound := fun other symbol hother hget => ?_ }
      -- the symbol of a reserved name is not the one that is defined
      have hne : symbol ≠ (Lower.symbol name.text state).1 := by
        rintro rfl
        have hlater := hsymbol.beside.holds.names _ _ hget
        have hname : (Lower.symbol name.text state).2.program.names.get?
            (Lower.symbol name.text state).1 = some name.text := Numbering.get?_insert
        exact hfree (Option.some.inj (hname.symm.trans hlater) ▸ hother)
      obtain ⟨hinner, hmodule⟩ := h.holds.bound other symbol hother hget
      exact Scopes.bound_define hne hinner hmodule

theorem declareVariable (h : state.Beside edit state' base) {name : Name}
    (hfree : ¬edit.reserved name.text) (isGlobal : Bool) {type type' : TypeId}
    (htype : state.AkinTypes edit state' type type') :
    Alongside edit base (Lower.declareVariable name type isGlobal)
      (Lower.declareVariable name type' isGlobal) Same state state' := by
  refine (symbol h name.text).bind fun symbol _ one one' hone hgrows hgrows' hsymbol => ?_
  cases hsymbol
  have htype := h.program.keeps hgrows hgrows' _ _ htype
  refine (addVariable hone ⟨htype⟩).bind fun id _ two two' htwo _ _ hid => ?_
  cases hid
  exact (define htwo hfree .Variable).bind fun _ _ _ _ hthree _ _ _ => pure hthree rfl

end Alongside

end Lower

end EffectLint
