import EffectLint.Proofs.Lowering.Sound
import EffectLint.Proofs.Scoping.Module

/-!
The names of types. Where no name is found unknown and none is defined twice, each class and each alias
stands for its type as soon as the aliases of the module have been lowered, and the target of an alias
comes to the same type wherever it is written again.
-/

namespace EffectLint

-- Nothing in the type stands where none could be read.
inductive TypeTree.NoError : TypeTree → Prop where
  | Basic {span type} : NoError (.Basic span type)
  | Named {span name} : NoError (.Named span name)
  | Pointer {span target} : NoError target → NoError (.Pointer span target)
  | Array {span element} : NoError element → NoError (.Array span element)
  | AssocArray {span value key} : NoError value → NoError key → NoError (.AssocArray span value key)
  | Callable {span isDelegate promises result parameters} : NoError result →
      (∀ parameter ∈ parameters, NoError parameter.type) →
      NoError (.Callable span isDelegate promises result parameters)

-- What a class or an alias is called.
def Item.typeName? : Item → Option Name
  | .Class name | .Alias name _ => some name
  | .Import _ | .Function _ | .Global _ => none

-- A class or an alias is called `text`.
def NamesType (items : List Item) (text : String) : Prop :=
  ∃ name ∈ items.filterMap Item.typeName?, name.text = text

instance (items : List Item) (text : String) : Decidable (NamesType items text) :=
  inferInstanceAs (Decidable (∃ name ∈ items.filterMap Item.typeName?, name.text = text))

namespace LoweringState

-- No name has been found unknown or defined twice, and nothing is kept back.
structure Clear (state : LoweringState) : Prop where
  isOpen : state.reporter.isGagged = false
  known : ∀ diagnostic ∈ state.reporter.diagnostics, diagnostic.kind ≠ .UnknownType
  once : ∀ diagnostic ∈ state.reporter.diagnostics, diagnostic.kind ≠ .DuplicateDefinition

-- What was found stays found.
theorem clear_of_said {later earlier : LoweringState}
    (hsaid : ∃ told hidden, later.reporter = earlier.reporter.after told hidden) (hclear : later.Clear) :
    earlier.Clear := by
  obtain ⟨told, hidden, hsaid⟩ := hsaid
  obtain ⟨hopen, hknown, honce⟩ := hclear
  rw [hsaid] at hopen hknown honce
  unfold Reporter.after at hopen hknown honce
  cases hgag : earlier.reporter.isGagged with
  | true =>
      rw [if_pos hgag] at hopen
      exact absurd (hgag.symm.trans hopen) (by simp)
  | false =>
      rw [if_neg (by simp [hgag])] at hknown honce
      exact ⟨hgag, fun diagnostic hmem => hknown diagnostic (Array.mem_append_left _ hmem),
        fun diagnostic hmem => honce diagnostic (Array.mem_append_left _ hmem)⟩

abbrev binding? (state : LoweringState) (name : String) : Option Binding :=
  state.program.binding? state.scopes name

-- No type is lost, and what stood for one stands for it still.
structure Over (later earlier : LoweringState) : Prop where
  types : earlier.program.types.shapes.Keeps later.program.types.shapes
  named : ∀ name id, earlier.binding? name = some (.Type id) → later.binding? name = some (.Type id)

theorem Over.refl (state : LoweringState) : state.Over state :=
  ⟨.refl _, fun _ _ => id⟩

theorem Over.trans {first second third : LoweringState} (h : second.Over first) (h' : third.Over second) :
    third.Over first :=
  ⟨h.types.trans h'.types, fun _ _ hnamed => h'.named _ _ (h.named _ _ hnamed)⟩

theorem over_of_still {α : Type} {body : Lower α} (hbody : Lower.Still body) (state : LoweringState) :
    (body state).2.Over state where
  types := (hbody.grows state).types
  named name id hnamed := by
    rw [binding?, hbody.scopes state]
    exact (hbody.grows state).binding?_eq hnamed

end LoweringState

namespace Lower

-- A type that something other than `null` or a wrong expression may have.
def IsProper (type : TypeId) : Prop :=
  type ≠ .error ∧ type ≠ .null

theorem proper_of_shape {table : TypeTable} (hbuiltins : TypeTable.start.shapes.Keeps table.shapes)
    {type : TypeId} {shape : Shape} (h : table.shape? type = some shape) (herror : shape ≠ .Error)
    (hnull : shape ≠ .Null) : IsProper type := by
  constructor
  · rintro rfl
    exact herror (Option.some.inj (h.symm.trans (hbuiltins _ _ TypeTable.shape?_error)))
  · rintro rfl
    exact hnull (Option.some.inj (h.symm.trans (hbuiltins _ _ TypeTable.shape?_null)))

theorem IgnoresReporter.clear {α : Type} {asks : Prop} {body : Lower α} (h : IgnoresReporter asks body)
    {state : LoweringState} (hclear : (body state).2.Clear) : state.Clear := by
  obtain ⟨answer, made, around, told, hidden, _, hrun⟩ := h state.program state.scopes
  have hstate : body state = _ := hrun state.reporter
  rw [hstate] at hclear
  exact LoweringState.clear_of_said ⟨told, hidden, rfl⟩ hclear

-- From `state` on, `names` stand for types, and they are all that `body` depends on: wherever they stand
-- for the same ones it comes to the same, entering and saying nothing.
structure Settles {α : Type} (names : List Name) (good : α → Prop) (body : Lower α)
    (state : LoweringState) : Prop where
  ahead : (body state).2.Over state
  bound : ∀ name ∈ names, ∃ id, (body state).2.binding? name.text = some (.Type id)
  good : good (body state).1
  again : ∀ later : LoweringState, later.Over (body state).2 → body later = ((body state).1, later)

theorem not_told_of_clear {diagnostic : Diagnostic} {state : LoweringState}
    (hclear : (report diagnostic state).2.Clear) :
    diagnostic.kind ≠ .UnknownType ∧ diagnostic.kind ≠ .DuplicateDefinition := by
  have hopen := ((IgnoresReporter.report diagnostic : IgnoresReporter True _).clear hclear).isOpen
  have hmem : diagnostic ∈ (report diagnostic state).2.reporter.diagnostics := by
    simp [report, Reporter.report, hopen]
  exact ⟨hclear.known _ hmem, hclear.once _ hmem⟩

-- The name of a type that is not found unknown.
theorem exists_type_of_clear {span : Span} {name : Name} {state : LoweringState}
    (hclear : (type (.Named span name) state).2.Clear) :
    ∃ id, state.binding? name.text = some (.Type id) := by
  by_contra hnone
  have hreported : (type (.Named span name) state).2 =
      (report (.about .UnknownType name.span name.text) state).2 := by
    have hlookup : lookup name.text state = (state.binding? name.text, state) := rfl
    rw [type, bind_apply, hlookup]
    dsimp only
    generalize state.binding? name.text = found at hnone ⊢
    split
    · next id => exact absurd ⟨id, rfl⟩ hnone
    · rfl
  rw [hreported] at hclear
  exact (not_told_of_clear hclear).1 rfl

theorem type_of_binding {span : Span} {name : Name} {state : LoweringState} {id : TypeId}
    (h : state.binding? name.text = some (.Type id)) : type (.Named span name) state = (id, state) := by
  have hlookup : lookup name.text state = (some (.Type id), state) := congrArg (·, state) h
  rw [type, bind_apply, hlookup]
  rfl

namespace Settles

variable {α β : Type} {names names' : List Name} {good : α → Prop} {good' : β → Prop}
  {state : LoweringState}

theorem pure {answer : α} (hgood : good answer) : Settles [] good (Pure.pure answer) state :=
  ⟨.refl state, List.forall_mem_nil _, hgood, fun _ _ => rfl⟩

theorem bind {first : Lower α} {next : α → Lower β} (hfirst : Settles names good first state)
    (hnext : good (first state).1 → Settles names' good' (next (first state).1) (first state).2) :
    Settles (names ++ names') good' (first >>= next) state := by
  have hnext := hnext hfirst.good
  refine ⟨hfirst.ahead.trans hnext.ahead, ?_, hnext.good, fun later hlater => ?_⟩
  · refine List.forall_mem_append.mpr ⟨fun name hmem => ?_, hnext.bound⟩
    obtain ⟨id, hid⟩ := hfirst.bound name hmem
    exact ⟨id, hnext.ahead.named _ _ hid⟩
  · rw [bind_apply, hfirst.again later (hnext.ahead.trans hlater)]
    exact hnext.again later hlater

theorem last {first : Lower α} {next : α → Lower β} (hfirst : Settles names good first state)
    (hnext : good (first state).1 → Settles [] good' (next (first state).1) (first state).2) :
    Settles names good' (first >>= next) state :=
  List.append_nil names ▸ hfirst.bind hnext

theorem internType (hbuiltins : TypeTable.start.shapes.Keeps state.program.types.shapes) {shape : Shape}
    (herror : shape ≠ .Error) (hnull : shape ≠ .Null) :
    Settles [] IsProper (internType shape) state := by
  have hshape : (state.program.types.insert shape).2.shape? (state.program.types.insert shape).1 =
      some shape := TypeTable.shape?_insert
  refine ⟨LoweringState.over_of_still (namewise_still.internType shape) state, List.forall_mem_nil _,
    proper_of_shape (hbuiltins.trans TypeTable.keeps_insert) hshape herror hnull, fun later hlater => ?_⟩
  have hagain := TypeTable.insert_of_shape? (hlater.types _ _ hshape)
  unfold Lower.internType
  rw [hagain]

-- Nothing is built on the type of a wrong expression.
theorem wrapType (hsound : state.Sound) {inner : TypeId} (hinner : IsProper inner)
    {wrap : TypeId → Shape} (herror : wrap inner ≠ .Error) (hnull : wrap inner ≠ .Null) :
    Settles [] IsProper (wrapType inner wrap) state := by
  unfold Lower.wrapType
  rw [if_neg hinner.1]
  exact internType hsound.closed.builtins herror hnull

theorem parameterTypes {parameters : List (Parameter TypeTree)}
    (htypes : ∀ parameter ∈ parameters, ∀ state : LoweringState, state.Sound →
      (type parameter.type state).2.Clear →
      Settles parameter.type.mentioned IsProper (type parameter.type) state)
    (hsound : state.Sound) (hclear : (parameterTypes parameters state).2.Clear) :
    Settles (TypeTree.mentionedIn parameters) (fun _ => True) (parameterTypes parameters) state := by
  induction parameters generalizing state with
  | nil =>
      rw [Lower.parameterTypes, TypeTree.mentionedIn]
      exact pure trivial
  | cons first rest ih =>
      rw [Lower.parameterTypes] at hclear ⊢
      rw [TypeTree.mentionedIn]
      have hfirst := type_runs first.type hsound
      have hrest := parameterTypes_runs rest hfirst.sound
      have hmiddle : (Lower.type first.type state).2.Clear :=
        LoweringState.clear_of_said hrest.after.said hclear
      refine (htypes first List.mem_cons_self state hsound hmiddle).bind fun _ => ?_
      exact (ih (fun parameter hmem => htypes parameter (List.mem_cons_of_mem _ hmem)) hfirst.sound
        hclear).last fun _ => pure trivial

theorem type {written : TypeTree} (hwritten : written.NoError) (hsound : state.Sound)
    (hclear : (type written state).2.Clear) :
    Settles written.mentioned IsProper (type written) state := by
  have hsteps := stepwise_ignoresReporter True
  induction hwritten generalizing state with
  | @Basic span basic =>
      have hproper : IsProper (.ofBasic basic) := by cases basic <;> exact ⟨by decide, by decide⟩
      rw [Lower.type, TypeTree.mentioned]
      exact pure hproper
  | @Named span name =>
      obtain ⟨id, hid⟩ := exists_type_of_clear hclear
      obtain ⟨symbol, _, hnamed⟩ := Program.Sound.named_of_binding? hsound hid
      have hproper : IsProper id := by
        rcases hnamed with hshape | ⟨target, hshape⟩ <;>
          exact proper_of_shape hsound.closed.builtins hshape (by simp) (by simp)
      have hagain : ∀ later : LoweringState, later.binding? name.text = some (.Type id) →
          Lower.type (.Named span name) later = (id, later) := fun _ => type_of_binding
      rw [TypeTree.mentioned]
      refine ⟨?_, ?_, ?_, fun later hlater => ?_⟩
      · exact LoweringState.over_of_still (namewise_still.type _) state
      all_goals rw [hagain state hid]
      · exact List.forall_mem_singleton.mpr ⟨id, hid⟩
      · exact hproper
      · exact hagain later (hlater.named _ _ (by rw [hagain state hid]; exact hid))
  | @Pointer span target _ ih =>
      rw [Lower.type] at hclear ⊢
      rw [TypeTree.mentioned]
      exact (ih hsound ((hsteps.wrapType _ _).clear hclear)).last fun hinner =>
        wrapType (type_runs target hsound).sound hinner (by simp) (by simp)
  | @Array span element _ ih =>
      rw [Lower.type] at hclear ⊢
      rw [TypeTree.mentioned]
      exact (ih hsound ((hsteps.wrapType _ _).clear hclear)).last fun hinner =>
        wrapType (type_runs element hsound).sound hinner (by simp) (by simp)
  | @AssocArray span value key _ _ ihvalue ihkey =>
      rw [Lower.type] at hclear ⊢
      rw [TypeTree.mentioned]
      have hvalue := (type_runs value hsound).sound
      have hkey := (type_runs key hvalue).sound
      have hlast : ∀ value key : TypeId, IgnoresReporter True (if value = .error ∨ key = .error then
          return .error else Lower.internType (.AssocArray key value) : Lower TypeId) := by
        intro value key
        split
        · exact hsteps.pure _
        · exact hsteps.internType _
      have hmiddle := (hlast _ _).clear hclear
      refine (ihvalue hsound ((hsteps.type key).clear hmiddle)).bind fun hinner => ?_
      refine (ihkey hvalue hmiddle).last fun hother => ?_
      rw [if_neg (not_or.mpr ⟨hinner.1, hother.1⟩)]
      exact internType hkey.closed.builtins (by simp) (by simp)
  | @Callable span isDelegate promises result parameters _ _ ihresult ihparameters =>
      rw [Lower.type] at hclear ⊢
      rw [TypeTree.mentioned]
      have hresult := (type_runs result hsound).sound
      have hparameters := (parameterTypes_runs parameters hresult).sound
      have hmiddle := ((hsteps.internType _).bind fun function => hsteps.internType
        (if isDelegate then .Delegate function else .Pointer function)).clear hclear
      refine (ihresult hsound ((hsteps.parameterTypes fun _ _ => hsteps.type _).clear hmiddle)).bind fun _ => ?_
      refine (parameterTypes (fun parameter hmem _ => ihparameters parameter hmem) hresult
        hmiddle).last fun _ => ?_
      refine (internType hparameters.closed.builtins (by simp) (by simp)).last fun _ => ?_
      refine internType (hparameters.closed.builtins.trans TypeTable.keeps_insert) ?_ ?_
      all_goals cases isDelegate <;> simp

end Settles

end Lower

namespace LoweringState

-- What a written type comes to, here and in every state over this one.
structure Settled (state : LoweringState) (written : TypeTree) (type : TypeId) : Prop where
  bound : ∀ name ∈ written.mentioned, ∃ id, state.binding? name.text = some (.Type id)
  proper : Lower.IsProper type
  again : ∀ later : LoweringState, later.Over state → Lower.type written later = (type, later)

theorem Settled.mono {earlier later : LoweringState} {written : TypeTree} {type : TypeId}
    (h : earlier.Settled written type) (hover : later.Over earlier) : later.Settled written type where
  bound name hmem := (h.bound name hmem).imp fun _ hid => hover.named _ _ hid
  proper := h.proper
  again last hlast := h.again last (hover.trans hlast)

-- A name that stands for an alias of what is written.
def Aliases (state : LoweringState) (name : String) (written : TypeTree) : Prop :=
  ∃ id symbol target, state.binding? name = some (.Type id) ∧
    state.program.types.shape? id = some (.Alias symbol target) ∧ state.Settled written target

theorem Aliases.mono {earlier later : LoweringState} {name : String} {written : TypeTree}
    (h : earlier.Aliases name written) (hover : later.Over earlier) : later.Aliases name written := by
  obtain ⟨id, symbol, target, hname, hshape, htarget⟩ := h
  exact ⟨id, symbol, target, hover.named _ _ hname, hover.types _ _ hshape, htarget.mono hover⟩

-- Only what is `known` is a name of a type.
def TypesNamed (known : String → Prop) (state : LoweringState) : Prop :=
  ∀ symbol id, state.scopes.Holds symbol (.Type id) →
    ∃ name, state.program.names.get? symbol = some name ∧ known name

end LoweringState

-- At module level a name that is known keeps its meaning.
theorem Scopes.AddsTo.lookup {later earlier : Scopes} (h : later.AddsTo earlier)
    (houter : earlier.inner = []) {symbol : Symbol} {binding : Binding}
    (hfound : earlier.lookup symbol = some binding) : later.lookup symbol = some binding := by
  obtain ⟨added, hadded, hnew, -⟩ := h.innermost
  have hbelow : earlier.below = [] := by simp [Scopes.below, stack, houter]
  rw [lookup_eq, stack_eq, hbelow, List.findSome?_singleton] at hfound
  have hnone : added.lookup symbol = none := by
    by_contra hsome
    obtain ⟨other, hother⟩ := Option.ne_none_iff_exists'.mp hsome
    obtain ⟨front, back, rfl, -⟩ := List.lookup_eq_some_iff.mp hother
    have hhere : earlier.innermost.lookup symbol = none := hnew (symbol, other) (by simp)
    rw [hhere] at hfound
    cases hfound
  rw [lookup_eq, stack_eq, h.below, hbelow, List.findSome?_singleton, hadded, List.lookup_append, hnone,
    Option.none_or, hfound]

namespace Lower

variable {state : LoweringState} {known : String → Prop}

theorem over_of_adds {later : LoweringState} (hgrows : later.program.Extends state.program)
    (hscopes : later.scopes.AddsTo state.scopes) (houter : state.scopes.inner = []) :
    later.Over state ∧ later.scopes.inner = [] := by
  refine ⟨⟨hgrows.types, fun name id hnamed => ?_⟩, ?_⟩
  · obtain ⟨symbol, hsymbol, hlookup⟩ := Option.bind_eq_some_iff.mp hnamed
    have hsymbol := hgrows.names _ _ (NameTable.get?_of_find? hsymbol)
    rw [LoweringState.binding?, Program.binding?, NameTable.find?_of_get? hsymbol, Option.bind_some]
    exact hscopes.lookup houter hlookup
  · have hdepth := hscopes.depth
    rw [Scopes.depth, Scopes.depth, houter] at hdepth
    exact List.eq_nil_of_length_eq_zero (by simpa using hdepth)

theorem typesNamed_still {α : Type} {body : Lower α} (hbody : Still body) (h : state.TypesNamed known) :
    (body state).2.TypesNamed known := by
  intro symbol id hholds
  rw [hbody.scopes state] at hholds
  obtain ⟨name, hname, hknown⟩ := h symbol id hholds
  exact ⟨name, (hbody.grows state).names _ _ hname, hknown⟩

theorem typesNamed_define {name : Name} {binding : Binding}
    (hknown : ∀ id, binding = .Type id → known name.text) (h : state.TypesNamed known) :
    (define name binding state).2.TypesNamed known := by
  have hnamed := typesNamed_still (namewise_still.symbol name.text) h
  intro symbol id hholds
  rw [define_apply] at hholds ⊢
  split at hholds
  · next hdefined =>
    rw [if_pos hdefined]
    exact hnamed symbol id hholds
  · next hdefined =>
    rw [if_neg hdefined]
    rcases Scopes.Holds.of_define hholds with hold | ⟨rfl, rfl⟩
    · exact hnamed symbol id hold
    · exact ⟨name.text, get?_symbol name.text state, hknown id rfl⟩

-- What is not defined a second time stands for what it is defined as.
theorem binding?_of_clear {name : Name} {binding : Binding}
    (hclear : (define name binding state).2.Clear) :
    (define name binding state).2.binding? name.text = some binding := by
  rw [define_apply] at hclear ⊢
  split at hclear
  · exact absurd rfl (not_told_of_clear hclear).2
  · next hdefined =>
    rw [if_neg hdefined]
    have hfind := NameTable.find?_of_get? (get?_symbol name.text state)
    rw [LoweringState.binding?, Program.binding?, hfind, Option.bind_some, Scopes.lookup_eq,
      Scopes.stack_define, List.findSome?_cons, List.lookup_cons_self]

-- What holds at module level before and behind each import, class and alias.
structure AtModule (known : String → Prop) (state : LoweringState) : Prop where
  sound : state.Sound
  outer : state.scopes.inner = []
  named : state.TypesNamed known

-- What an item settles where nothing is found wrong is settled when all of them are through.
theorem forM_settles {items : List Item} {step : Item → Lower Unit}
    {settled : Item → LoweringState → Prop}
    (hruns : ∀ item, ∀ state : LoweringState, state.Sound → RunsAt (step item) (fun _ _ => True) state)
    (hadds : ∀ item, AddsNames (step item))
    (hnamed : ∀ item ∈ items, ∀ state : LoweringState, state.TypesNamed known →
      (step item state).2.TypesNamed known)
    (hsettled : ∀ item ∈ items, ∀ state, AtModule known state → (step item state).2.Clear →
      settled item (step item state).2)
    (hover : ∀ item, ∀ earlier later : LoweringState, later.Over earlier → settled item earlier →
      settled item later)
    (h : AtModule known state) (hclear : (items.forM step state).2.Clear) :
    AtModule known (items.forM step state).2 ∧ (items.forM step state).2.Over state ∧
      ∀ item ∈ items, settled item (items.forM step state).2 := by
  induction items generalizing state with
  | nil => exact ⟨h, .refl state, List.forall_mem_nil _⟩
  | cons first rest ih =>
      rw [List.forM_eq_forM, List.forM_cons, bind_apply, ← List.forM_eq_forM] at hclear ⊢
      rw [List.forall_mem_cons] at hnamed hsettled
      have hfirst := hruns first state h.sound
      have hrest := RunsAt.forM rest (fun item _ => hruns item) hfirst.sound
      obtain ⟨hone, houter⟩ := over_of_adds hfirst.after.grows (hadds first state) h.outer
      obtain ⟨hall, hlast, hothers⟩ :=
        ih hnamed.2 hsettled.2 ⟨hfirst.sound, houter, hnamed.1 state h.named⟩ hclear
      refine ⟨hall, hone.trans hlast, List.forall_mem_cons.mpr ⟨?_, hothers⟩⟩
      exact hover _ _ _ hlast
        (hsettled.1 state h (LoweringState.clear_of_said hrest.after.said hclear))

theorem importOrClass_typesNamed {item : Item}
    (hitem : ∀ name, item.typeName? = some name → known name.text) (h : state.TypesNamed known) :
    (importOrClass item state).2.TypesNamed known := by
  have hsteps := namewise_still
  cases item with
  | Import name =>
      have hstill : Still (do
          let symbol ← symbol name.text
          addModule ⟨symbol, name.span⟩) := hsteps.bind (hsteps.symbol _) fun _ => still_addModule _
      exact typesNamed_define (fun _ hbinding => by cases hbinding) (typesNamed_still hstill h)
  | Class name =>
      have hstill : Still (do
          let symbol ← symbol name.text
          internType (.Class symbol)) := hsteps.bind (hsteps.symbol _) fun _ => hsteps.internType _
      exact typesNamed_define (fun _ _ => hitem name rfl) (typesNamed_still hstill h)
  | _ => exact h

theorem typeAlias_typesNamed {item : Item}
    (hitem : ∀ name, item.typeName? = some name → known name.text) (h : state.TypesNamed known) :
    (typeAlias item state).2.TypesNamed known := by
  have hsteps := namewise_still
  cases item with
  | Alias name target =>
      have hstill : Still (do
          let target ← type target
          let symbol ← symbol name.text
          internType (.Alias symbol target)) := hsteps.bind (hsteps.type _) fun _ =>
        hsteps.bind (hsteps.symbol _) fun _ => hsteps.internType _
      exact typesNamed_define (fun _ _ => hitem name rfl) (typesNamed_still hstill h)
  | _ => exact h

theorem classes_settle {items : List Item}
    (hitems : ∀ item ∈ items, ∀ name, item.typeName? = some name → known name.text)
    (h : AtModule known state) (hclear : (items.forM importOrClass state).2.Clear) :
    AtModule known (items.forM importOrClass state).2 ∧ ∀ name, .Class name ∈ items →
      ∃ id, (items.forM importOrClass state).2.binding? name.text = some (.Type id) := by
  let settled (item : Item) (state : LoweringState) : Prop :=
    ∀ name, item = .Class name → ∃ id, state.binding? name.text = some (.Type id)
  have hsettled : ∀ item ∈ items, ∀ state, AtModule known state →
      (importOrClass item state).2.Clear → settled item (importOrClass item state).2 := by
    rintro _ _ state _ hclear name rfl
    exact ⟨_, binding?_of_clear hclear⟩
  obtain ⟨hall, -, hclasses⟩ := forM_settles (fun item _ h => importOrClass_runs h item)
    (stepwise_addsNames.importOrClass fun _ => .of_eq fun _ => rfl)
    (fun item hmem _ => importOrClass_typesNamed (hitems item hmem)) hsettled
    (fun _ _ _ hover hearlier name hname => (hearlier name hname).imp fun _ => hover.named _ _) h hclear
  exact ⟨hall, fun name hmem => hclasses _ hmem name rfl⟩

-- What becomes of an alias behind its target.
def nameAlias (name : Name) (target : TypeId) : Lower Unit := do
  let symbol ← symbol name.text
  let id ← internType (.Alias symbol target)
  define name (.Type id)

theorem stepwise_nameAlias {P : ∀ {α : Type}, Lower α → Prop} (steps : Stepwise @P) (name : Name)
    (target : TypeId) : P (nameAlias name target) :=
  steps.bind (steps.symbol _) fun _ => steps.bind (steps.internType _) fun _ => steps.define _ _

theorem typeAlias_settles {name : Name} {target : TypeTree} (hwritten : target.NoError)
    (h : AtModule known state) (hclear : (typeAlias (.Alias name target) state).2.Clear) :
    (typeAlias (.Alias name target) state).2.Aliases name.text target := by
  have happly : typeAlias (.Alias name target) state =
      nameAlias name (type target state).1 (type target state).2 := rfl
  rw [happly] at hclear ⊢
  have hmiddle : (type target state).2.Clear :=
    (stepwise_nameAlias (stepwise_ignoresReporter True) name _).clear hclear
  have htarget := Settles.type hwritten h.sound hmiddle
  have houter : (type target state).2.scopes.inner = [] := by
    rw [(namewise_still.type target).scopes state, h.outer]
  obtain ⟨hover, -⟩ := over_of_adds (stepwise_nameAlias stepwise_grows name (type target state).1 _)
    (stepwise_nameAlias stepwise_addsNames name _ _) houter
  refine ⟨_, _, (type target state).1, binding?_of_clear hclear,
    (define_extends name _ _).types _ _ TypeTable.shape?_insert, ?_, htarget.good, ?_⟩
  · exact fun one hmem => (htarget.bound one hmem).imp fun _ hid => hover.named _ _ hid
  · exact fun later hlater => htarget.again later (hover.trans hlater)

theorem aliases_settle {items : List Item}
    (hitems : ∀ item ∈ items, ∀ name, item.typeName? = some name → known name.text)
    (hwritten : ∀ name target, .Alias name target ∈ items → target.NoError)
    (h : AtModule known state) (hclear : (items.forM typeAlias state).2.Clear) :
    AtModule known (items.forM typeAlias state).2 ∧ (items.forM typeAlias state).2.Over state ∧
      ∀ name target, .Alias name target ∈ items →
        (items.forM typeAlias state).2.Aliases name.text target := by
  let settled (item : Item) (state : LoweringState) : Prop :=
    ∀ name target, item = .Alias name target → state.Aliases name.text target
  have hsettled : ∀ item ∈ items, ∀ state, AtModule known state →
      (typeAlias item state).2.Clear → settled item (typeAlias item state).2 := by
    rintro _ hmem state h hclear name target rfl
    exact typeAlias_settles (hwritten name target hmem) h hclear
  obtain ⟨hall, hover, haliases⟩ := forM_settles (fun item _ h => typeAlias_runs h item)
    stepwise_addsNames.typeAlias (fun item hmem _ => typeAlias_typesNamed (hitems item hmem)) hsettled
    (fun _ _ _ hover hearlier name target hname => (hearlier name target hname).mono hover) h hclear
  exact ⟨hall, hover, fun name target hmem => haliases _ hmem name target rfl⟩

end Lower

-- A module behind its imports, classes and aliases.
def behindAliases (items : List Item) (reporter : Reporter) : LoweringState :=
  (items.forM Lower.typeAlias (items.forM Lower.importOrClass (.start reporter)).2).2

-- The classes and aliases of a module, and nothing else, stand for types there. An alias stands for what
-- it is defined as.
structure LoweringState.Declares (state : LoweringState) (items : List Item) : Prop where
  atModule : Lower.AtModule (NamesType items) state
  classes : ∀ name, .Class name ∈ items → ∃ id, state.binding? name.text = some (.Type id)
  aliases : ∀ name target, .Alias name target ∈ items → state.Aliases name.text target

theorem behindAliases_declares {items : List Item} {reporter : Reporter}
    (hwritten : ∀ name target, .Alias name target ∈ items → target.NoError)
    (hclear : (behindAliases items reporter).Clear) : (behindAliases items reporter).Declares items := by
  have hitems : ∀ item ∈ items, ∀ name, item.typeName? = some name → NamesType items name.text :=
    fun item hmem name hname => ⟨name, List.mem_filterMap.mpr ⟨item, hmem, hname⟩, rfl⟩
  have hstart : Lower.AtModule (NamesType items) (.start reporter) := by
    refine ⟨Program.sound_empty, rfl, ?_⟩
    rintro symbol id ⟨scope, hscope, hmem⟩
    obtain rfl : scope = [] := List.mem_singleton.mp hscope
    cases hmem
  have hclasses : (items.forM Lower.importOrClass (.start reporter)).2.Clear := by
    have hsteps := Lower.stepwise_ignoresReporter True
    exact (hsteps.forM hsteps.typeAlias items).clear hclear
  obtain ⟨hone, hclasses⟩ := Lower.classes_settle hitems hstart hclasses
  obtain ⟨htwo, hover, haliases⟩ := Lower.aliases_settle hitems hwritten hone hclear
  exact ⟨htwo, fun name hmem => (hclasses name hmem).imp fun _ => hover.named _ _, haliases⟩

end EffectLint
