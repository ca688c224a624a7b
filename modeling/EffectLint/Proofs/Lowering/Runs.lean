import EffectLint.Proofs.Lowering.Question
import EffectLint.Proofs.Program.Growth

/-!
Computations on sound programs. They only add to the program and to what has been said, so a
computation that ends in silence was silent all the way.
-/

namespace EffectLint

namespace LoweringState

def Sound (state : LoweringState) : Prop :=
  state.program.Sound state.scopes

-- A state that comes after another one: the program has grown and more has been said.
structure From (later earlier : LoweringState) : Prop where
  grows : later.program.Extends earlier.program
  said : ∃ told hidden, later.reporter = earlier.reporter.after told hidden

theorem From.refl (state : LoweringState) : state.From state :=
  ⟨.refl _, [], 0, (Reporter.after_nil _).symm⟩

theorem From.trans {first second third : LoweringState} (h : second.From first)
    (h' : third.From second) : third.From first := by
  obtain ⟨told, hidden, hsaid⟩ := h.said
  obtain ⟨told', hidden', hsaid'⟩ := h'.said
  refine ⟨h.grows.trans h'.grows, told ++ told', hidden + hidden', ?_⟩
  rw [hsaid', hsaid, Reporter.after_after]

-- Nothing has been said, and nothing is kept back.
structure Silent (state : LoweringState) : Prop where
  isOpen : state.reporter.isGagged = false
  diagnostics : state.reporter.diagnostics = #[]

theorem From.silent {later earlier : LoweringState} (h : later.From earlier)
    (hsilent : later.Silent) : earlier.Silent := by
  obtain ⟨told, hidden, hsaid⟩ := h.said
  have hopen := hsilent.isOpen
  have hnone := hsilent.diagnostics
  rw [hsaid] at hopen hnone
  unfold Reporter.after at hopen hnone
  cases hgag : earlier.reporter.isGagged with
  | true =>
      rw [if_pos hgag] at hopen
      exact absurd (hgag.symm.trans hopen) (by simp)
  | false =>
      rw [if_neg (by simp [hgag])] at hnone
      refine ⟨hgag, ?_⟩
      simp only [Array.append_eq_empty_iff] at hnone
      exact hnone.1

theorem told_eq_nil_of_silent {reporter : Reporter} {told : List Diagnostic} {hidden : Nat}
    {program : Program} {scopes : Scopes}
    (h : Silent ⟨program, scopes, reporter.after told hidden⟩) : told = [] := by
  have hopen := h.isOpen
  have hnone := h.diagnostics
  simp only [Reporter.after] at hopen hnone
  cases hgag : reporter.isGagged with
  | true =>
      rw [if_pos hgag] at hopen
      exact absurd (hgag.symm.trans hopen) (by simp)
  | false =>
      rw [if_neg (by simp [hgag])] at hnone
      simp only [Array.append_eq_empty_iff] at hnone
      simpa using hnone.2

end LoweringState

namespace Lower

theorem get?_symbol (name : String) (state : LoweringState) :
    (symbol name state).2.program.names.get? (symbol name state).1 = some name :=
  Numbering.get?_insert

theorem symbol_of_get? {name : String} {known : Symbol} {state : LoweringState}
    (h : state.program.names.get? known = some name) : symbol name state = (known, state) := by
  rw [symbol, NameTable.insert_of_get? h]

-- A computation that leaves the scopes as they are and hides nothing. Its answer is `good`, and it
-- is `right` where nothing is said, as long as `fine` holds.
def StaysAt {α : Type} (fine : Prop) (body : Lower α) (good right : Program → α → Prop)
    (program : Program) (scopes : Scopes) : Prop :=
  ∃ made answer told, made.Extends program ∧ made.Sound scopes ∧
    good made answer ∧ (told = [] → fine → right made answer) ∧
    ∀ reporter, body ⟨program, scopes, reporter⟩ =
      (answer, ⟨made, scopes, reporter.after told 0⟩)

namespace StaysAt

variable {α β : Type} {fine : Prop} {good right : Program → α → Prop}
  {good' right' : Program → β → Prop} {program : Program} {scopes : Scopes}

theorem pure (hsound : program.Sound scopes) {answer : α} (hgood : good program answer)
    (hright : fine → right program answer) :
    StaysAt fine (Pure.pure answer) good right program scopes := by
  refine ⟨program, answer, [], .refl _, hsound, hgood, fun _ => hright, fun reporter => ?_⟩
  rw [Reporter.after_nil]
  rfl

theorem bind {first : Lower α} {next : α → Lower β}
    (hfirst : StaysAt fine first good right program scopes)
    (hnext : ∀ made answer, made.Extends program → made.Sound scopes → good made answer →
      StaysAt (fine ∧ right made answer) (next answer) good' right' made scopes) :
    StaysAt fine (first >>= next) good' right' program scopes := by
  obtain ⟨made, answer, told, hgrows, hsound, hgood, hright, hrun⟩ := hfirst
  obtain ⟨made', answer', told', hgrows', hsound', hgood', hright', hrun'⟩ :=
    hnext made answer hgrows hsound hgood
  refine ⟨made', answer', told ++ told', hgrows.trans hgrows', hsound', hgood', ?_, fun reporter => ?_⟩
  · intro htold hfine
    obtain ⟨hnil, hnil'⟩ := List.append_eq_nil_iff.mp htold
    exact hright' hnil' ⟨hfine, hright hnil hfine⟩
  · rw [bind_apply, hrun, hrun', Reporter.after_after]

theorem reported (hsound : program.Sound scopes) (diagnostic : Diagnostic) {answer : α}
    (hgood : good program answer) :
    StaysAt fine (do report diagnostic; return answer) good right program scopes := by
  refine ⟨program, answer, [diagnostic], .refl _, hsound, hgood,
    fun h => absurd h (List.cons_ne_nil _ _), fun reporter => ?_⟩
  rw [← Reporter.report_eq_after]
  rfl

theorem lookup (name : String) {next : Option Binding → Lower α}
    (h : StaysAt fine (next (program.binding? scopes name)) good right program scopes) :
    StaysAt fine (lookup name >>= next) good right program scopes :=
  h

theorem internType (hsound : program.Sound scopes) {shape : Shape} {good right : Program → TypeId → Prop}
    (hparts : ∀ part ∈ shape.parts, program.types.Known part)
    (h : ∀ made : Program, ∀ type, made.Extends program → made.Sound scopes →
      made.types.shape? type = some shape → good made type ∧ (fine → right made type)) :
    StaysAt fine (internType shape) good right program scopes := by
  obtain ⟨hgood, hright⟩ := h { program with types := (program.types.insert shape).2 }
    (program.types.insert shape).1 (.insertType shape) (hsound.insertType hparts)
    TypeTable.shape?_insert
  refine ⟨_, _, [], .insertType shape, hsound.insertType hparts, hgood, fun _ => hright,
    fun reporter => ?_⟩
  rw [Reporter.after_nil]
  rfl

theorem imp {fine' : Prop} {body : Lower α} {good' right' : Program → α → Prop}
    (hfine : fine' → fine)
    (hgood : ∀ made answer, good made answer → good' made answer)
    (hright : ∀ made answer, right made answer → right' made answer)
    (h : StaysAt fine body good right program scopes) :
    StaysAt fine' body good' right' program scopes := by
  obtain ⟨made, answer, told, hgrows, hsound, hanswer, hanswer', hrun⟩ := h
  exact ⟨made, answer, told, hgrows, hsound, hgood _ _ hanswer,
    fun htold h => hright _ _ (hanswer' htold (hfine h)), hrun⟩

end StaysAt

-- What a computation leaves behind comes after what was there and is sound as well.
structure RunsAt {α : Type} (body : Lower α) (good : Program → α → Prop) (state : LoweringState) :
    Prop where
  after : (body state).2.From state
  sound : (body state).2.Sound
  answer : good (body state).2.program (body state).1

namespace RunsAt

variable {α β : Type} {good : Program → α → Prop} {good' : Program → β → Prop}
  {state : LoweringState}

theorem pure (hsound : state.Sound) {answer : α} (hgood : good state.program answer) :
    RunsAt (Pure.pure answer) good state :=
  ⟨.refl state, hsound, hgood⟩

theorem bind {first : Lower α} {next : α → Lower β} (hfirst : RunsAt first good state)
    (hnext : ∀ answer state', state'.From state → state'.Sound → good state'.program answer →
      RunsAt (next answer) good' state') : RunsAt (first >>= next) good' state := by
  have h := hnext (first state).1 (first state).2 hfirst.after hfirst.sound hfirst.answer
  exact ⟨hfirst.after.trans h.after, h.sound, h.answer⟩

theorem imp {body : Lower α} {good' : Program → α → Prop} (h : RunsAt body good state)
    (himp : ∀ program answer, good program answer → good' program answer) :
    RunsAt body good' state :=
  ⟨h.after, h.sound, himp _ _ h.answer⟩

theorem congr {body body' : Lower α} (h : RunsAt body good state) (heq : body' state = body state) :
    RunsAt body' good state := by
  refine ⟨?_, ?_, ?_⟩ <;> rw [heq]
  · exact h.after
  · exact h.sound
  · exact h.answer

theorem of_stays {fine : Prop} {body : Lower α} {right : Program → α → Prop}
    (h : StaysAt fine body good right state.program state.scopes) : RunsAt body good state := by
  obtain ⟨made, answer, told, hgrows, hsound, hgood, _, hrun⟩ := h
  have hstate : body state = (answer, ⟨made, state.scopes, state.reporter.after told 0⟩) :=
    hrun state.reporter
  refine ⟨?_, ?_, ?_⟩ <;> rw [hstate]
  · exact ⟨hgrows, told, 0, rfl⟩
  · exact hsound
  · exact hgood

-- A look at the state changes nothing.
theorem read {look : LoweringState → α} {next : α → Lower β}
    (hnext : RunsAt (next (look state)) good' state) :
    RunsAt ((fun state => (look state, state) : Lower α) >>= next) good' state :=
  ⟨hnext.after, hnext.sound, hnext.answer⟩

theorem report (hsound : state.Sound) (diagnostic : Diagnostic) :
    RunsAt (report diagnostic) (fun _ _ => True) state :=
  ⟨⟨.refl _, [diagnostic], 0, Reporter.report_eq_after _ _⟩, hsound, trivial⟩

theorem symbol (hsound : state.Sound) (name : String) :
    RunsAt (symbol name) (fun made symbol => made.names.get? symbol = some name) state :=
  ⟨⟨.insertName name, [], 0, (Reporter.after_nil _).symm⟩, Program.Sound.insertName hsound name,
    Numbering.get?_insert⟩

theorem internType (hsound : state.Sound) {shape : Shape}
    (hparts : ∀ part ∈ shape.parts, state.program.types.Known part) :
    RunsAt (internType shape) (fun made type => made.types.shape? type = some shape) state :=
  ⟨⟨.insertType shape, [], 0, (Reporter.after_nil _).symm⟩, Program.Sound.insertType hsound hparts,
    TypeTable.shape?_insert⟩

theorem inScope {body : Lower α} (hsound : state.Sound)
    (hbody : ∀ state', state'.From state → state'.Sound → RunsAt body good state') :
    RunsAt (inScope body) good state := by
  obtain ⟨hafter, hinner, hanswer⟩ :=
    hbody ⟨state.program, state.scopes.push, state.reporter⟩ ⟨.refl _, (LoweringState.From.refl state).said⟩
      (Program.Sound.push hsound)
  exact ⟨⟨hafter.grows, hafter.said⟩, Program.Sound.pop hinner, hanswer⟩

-- A name is bound to an entry of that name, whether or not the name was free.
theorem define (hsound : state.Sound) {name : Name} {binding : Binding}
    (hnamed : ∀ (made : Program) symbol, made.Extends state.program →
      made.names.get? symbol = some name.text → made.Named symbol binding) :
    RunsAt (define name binding) (fun _ _ => True) state := by
  refine (symbol hsound name.text).bind fun symbol named hafter hsound hname => ?_
  refine read ?_
  split
  · exact report hsound _
  · refine ⟨⟨.refl _, (LoweringState.From.refl named).said⟩, ?_, trivial⟩
    exact Program.Sound.define hsound (hnamed _ _ hafter.grows hname)

theorem addVariable (hsound : state.Sound) {entry : VariableEntry}
    (htype : state.program.types.Known entry.type) :
    RunsAt (addVariable entry) (fun made id => made.declared[id.index]? = some entry) state := by
  refine ⟨⟨.addVariable entry, [], 0, (Reporter.after_nil _).symm⟩,
    Program.Sound.addVariable hsound htype, ?_⟩
  exact Array.getElem?_push_size

theorem addFunction (hsound : state.Sound) {entry : FunctionEntry}
    (htype : state.program.types.Known entry.type) :
    RunsAt (addFunction entry) (fun made id => made.functions[id.index]? = some entry) state := by
  refine ⟨⟨.addFunction entry, [], 0, (Reporter.after_nil _).symm⟩,
    Program.Sound.addFunction hsound htype, ?_⟩
  exact Array.getElem?_push_size

theorem addModule (hsound : state.Sound) (entry : ModuleEntry) :
    RunsAt (addModule entry) (fun made id => made.modules[id.index]? = some entry) state := by
  refine ⟨⟨.addModule entry, [], 0, (Reporter.after_nil _).symm⟩,
    Program.Sound.addModule hsound entry, ?_⟩
  exact Array.getElem?_push_size

-- Bodies and the values of global variables only refer to what is there.
theorem addGlobal (hsound : state.Sound) (value : GlobalValue) :
    RunsAt (addGlobal value) (fun _ _ => True) state :=
  ⟨⟨.addGlobal value, [], 0, (Reporter.after_nil _).symm⟩,
    ⟨hsound.closed, hsound.nodes, hsound.declared, hsound.functions, hsound.named⟩, trivial⟩

theorem addBody (hsound : state.Sound) (body : FunctionBody) :
    RunsAt (addBody body) (fun _ _ => True) state :=
  ⟨⟨.addBody body, [], 0, (Reporter.after_nil _).symm⟩,
    ⟨hsound.closed, hsound.nodes, hsound.declared, hsound.functions, hsound.named⟩, trivial⟩

def HasVariable (name : String) (type : TypeId) (program : Program) (id : VariableId) : Prop :=
  ∃ entry, program.declared[id.index]? = some entry ∧
    program.names.get? entry.name = some name ∧ entry.type = type

theorem declareVariable (hsound : state.Sound) (name : Name) {type : TypeId} (isGlobal : Bool)
    (htype : state.program.types.Known type) :
    RunsAt (declareVariable name type isGlobal) (HasVariable name.text type) state := by
  refine (symbol hsound name.text).bind fun symbol named hafter hnamed hname => ?_
  refine (addVariable hnamed (htype.keeps hafter.grows.types)).bind
    fun id added hafter' hadded hentry => ?_
  refine (define hadded fun made other hgrows hother => ?_).bind fun _ defined hafter'' hdefined _ => ?_
  · refine ⟨_, hgrows.declared _ _ hentry, ?_⟩
    exact NameTable.eq_of_get? (hgrows.names _ _ (hafter'.grows.names _ _ hname)) hother
  · refine pure hdefined ⟨_, hafter''.grows.declared _ _ hentry, ?_, rfl⟩
    exact hafter''.grows.names _ _ (hafter'.grows.names _ _ hname)

end RunsAt

end Lower

end EffectLint
