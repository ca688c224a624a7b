import EffectLint.Proofs.Lowering.Stages
import EffectLint.Proofs.Scoping.Growth
import EffectLint.Proofs.Scoping.Guided

/-!
The open scopes against the environment of the resolver. They hold the same names, scope by scope,
and what a name is bound to in a scope is the entry of the declaration that it stands for. Lowering
comes to the same names as the resolver, makes of each what the answer of the resolver says, and leaves
scopes and environment in agreement again.
-/

namespace EffectLint

-- Steps that change neither the scopes nor what is declared.
structure Lower.Still {α : Type} (body : Lower α) : Prop where
  grows : ∀ state, (body state).2.program.Extends state.program
  scopes : ∀ state, (body state).2.scopes = state.scopes
  declared : ∀ state, (body state).2.program.declared = state.program.declared

theorem Lower.namewise_still : Namewise (fun {_} body => Still body) where
  pure _ := ⟨fun _ => .refl _, fun _ => rfl, fun _ => rfl⟩
  bind hfirst hnext := {
    grows := fun state => (hfirst.grows state).trans ((hnext _).grows _)
    scopes := fun state => ((hnext _).scopes _).trans (hfirst.scopes state)
    declared := fun state => ((hnext _).declared _).trans (hfirst.declared state) }
  read _ := ⟨fun _ => .refl _, fun _ => rfl, fun _ => rfl⟩
  report _ _ := ⟨fun _ => .refl _, fun _ => rfl, fun _ => rfl⟩
  symbol name := ⟨fun _ => .insertName name, fun _ => rfl, fun _ => rfl⟩
  internType shape := ⟨fun _ => .insertType shape, fun _ => rfl, fun _ => rfl⟩
  addNode node := ⟨fun _ => .addNode node, fun _ => rfl, fun _ => rfl⟩
  lookup _ := ⟨fun _ => .refl _, fun _ => rfl, fun _ => rfl⟩

-- What a declaration is bound to: the entry or the type that was made for it. `targets` are the
-- types that the aliases of the module are other names for, in source order.
inductive Stands (targets : List TypeId) (program : Program) : Site → Binding → Prop where
  | Import {number name symbol} : program.names.get? symbol = some name.text →
      program.modules[number]? = some ⟨symbol, name.span⟩ →
      Stands targets program (.Import number name) (.Module ⟨number⟩)
  | Class {name symbol id} : program.names.get? symbol = some name.text →
      program.types.shape? id = some (.Class symbol) →
      Stands targets program (.Class name) (.Type id)
  | Alias {number name symbol target id} : program.names.get? symbol = some name.text →
      targets[number]? = some target → program.types.shape? id = some (.Alias symbol target) →
      Stands targets program (.Alias number name) (.Type id)
  | Function {number name symbol type} : program.names.get? symbol = some name.text →
      program.functions[number]? = some ⟨symbol, type, name.span⟩ →
      Stands targets program (.Function number name) (.Function ⟨number⟩)
  | Variable {number name symbol type isGlobal} : program.names.get? symbol = some name.text →
      program.declared[number]? = some ⟨symbol, type, name.span, isGlobal⟩ →
      Stands targets program (.Variable number name) (.Variable ⟨number⟩)

section

variable {targets : List TypeId} {program : Program}

theorem Stands.extends {large small : Program} (hgrows : large.Extends small) {site : Site}
    {binding : Binding} (h : Stands targets small site binding) :
    Stands targets large site binding := by
  cases h with
  | Import hname hentry => exact .Import (hgrows.names _ _ hname) (hgrows.modules _ _ hentry)
  | Class hname hshape => exact .Class (hgrows.names _ _ hname) (hgrows.types _ _ hshape)
  | Alias hname htarget hshape =>
      exact .Alias (hgrows.names _ _ hname) htarget (hgrows.types _ _ hshape)
  | Function hname hentry => exact .Function (hgrows.names _ _ hname) (hgrows.functions _ _ hentry)
  | Variable hname hentry => exact .Variable (hgrows.names _ _ hname) (hgrows.declared _ _ hentry)

structure SameEntry (targets : List TypeId) (program : Program) (entry : String × Site)
    (defined : Symbol × Binding) : Prop where
  name : program.names.get? defined.1 = some entry.1
  stands : Stands targets program entry.2 defined.2

abbrev SameScope (targets : List TypeId) (program : Program) : Frame → Scope → Prop :=
  List.Forall₂ (SameEntry targets program)

theorem SameScope.extends {large small : Program} (hgrows : large.Extends small) {frame : Frame}
    {scope : Scope} (h : SameScope targets small frame scope) :
    SameScope targets large frame scope :=
  h.imp fun _ _ hentry => ⟨hgrows.names _ _ hentry.name, hentry.stands.extends hgrows⟩

theorem SameEntry.find?_iff {entry : String × Site} {defined : Symbol × Binding}
    (h : SameEntry targets program entry defined) (name : String) :
    program.names.find? name = some defined.1 ↔ name = entry.1 := by
  constructor
  · intro hfind
    exact Option.some.inj ((NameTable.get?_of_find? hfind).symm.trans h.name)
  · rintro rfl
    exact NameTable.find?_of_get? h.name

theorem SameScope.lookup {frame : Frame} {scope : Scope} (h : SameScope targets program frame scope)
    (name : String) :
    Option.Rel (Stands targets program) (frame.lookup name)
      ((program.names.find? name).bind (scope.lookup ·)) := by
  induction h with
  | nil =>
      have hnone : (program.names.find? name).bind (List.lookup · ([] : Scope)) = none :=
        Option.bind_fun_none _
      rw [hnone]
      exact .none
  | @cons entry defined frame scope hentry _ ih =>
      obtain ⟨known, site⟩ := entry
      obtain ⟨symbol, binding⟩ := defined
      have hsame := hentry.find?_iff name
      by_cases hname : name = known
      · subst hname
        rw [hsame.mpr rfl, Option.bind_some, List.lookup_cons_self, List.lookup_cons_self]
        exact .some hentry.stands
      · have hrest : (program.names.find? name).bind (List.lookup · ((symbol, binding) :: scope)) =
            (program.names.find? name).bind (List.lookup · scope) := by
          refine Option.bind_congr fun other hfind => ?_
          have hother : other ≠ symbol := by
            rintro rfl
            exact hname (hsame.mp hfind)
          rw [List.lookup_cons, beq_false_of_ne hother]
        rw [hrest, List.lookup_cons, beq_false_of_ne hname]
        exact ih

theorem isSome_eq_of_rel {α β : Type} {related : α → β → Prop} {left : Option α} {right : Option β}
    (h : Option.Rel related left right) : left.isSome = right.isSome := by
  cases h <;> rfl

theorem exists_of_rel {α β : Type} {related : α → β → Prop} {left : Option α} {right : Option β}
    (h : Option.Rel related left right) {value : α} (hmem : value ∈ left) :
    ∃ other, related value other := by
  cases h with
  | none => exact absurd hmem (Option.not_mem_none value)
  | some hrelated => exact ⟨_, Option.some.inj hmem ▸ hrelated⟩

theorem findSome?_lookup {α β : Type} [BEq α] (scopes : List (List (α × β))) (name : α) :
    scopes.findSome? (·.lookup name) = scopes.flatten.lookup name := by
  induction scopes with
  | nil => rfl
  | cons scope outer ih =>
      rw [List.findSome?_cons, List.flatten_cons, List.lookup_append, ih]
      cases scope.lookup name <;> rfl

-- The scopes of a state are those of an environment, and as many variables are numbered in it.
structure Agrees (targets : List TypeId) (env : Environment) (state : LoweringState) : Prop where
  frames : List.Forall₂ (SameScope targets state.program) (env.here :: env.outer) state.scopes.stack
  next : env.next = state.program.declared.size

namespace Agrees

variable {env : Environment} {state : LoweringState}

theorem still {α : Type} {body : Lower α} (h : Agrees targets env state) (hbody : Lower.Still body) :
    Agrees targets env (body state).2 where
  frames := by
    rw [hbody.scopes state]
    exact h.frames.imp fun _ _ hscope => hscope.extends (hbody.grows state)
  next := by rw [hbody.declared state, h.next]

theorem lookup (h : Agrees targets env state) (name : String) :
    Option.Rel (Stands targets state.program) (env.lookup name) (Lower.lookup name state).1 := by
  have hflat : SameScope targets state.program (env.here :: env.outer).flatten
      state.scopes.stack.flatten := List.rel_flatten h.frames
  have hlookup : (Lower.lookup name state).1 =
      (state.program.names.find? name).bind (state.scopes.stack.flatten.lookup ·) := by
    refine Option.bind_congr fun symbol _ => ?_
    rw [Scopes.lookup_eq, findSome?_lookup]
  rw [hlookup, Environment.lookup, findSome?_lookup]
  exact hflat.lookup name

theorem enter (h : Agrees targets env state) :
    Agrees targets env.enter (Lower.pushScope state).2 where
  frames := .cons .nil h.frames
  next := h.next

theorem symbol (h : Agrees targets env state) (name : String) :
    Agrees targets env (Lower.symbol name state).2 :=
  h.still (Lower.namewise_still.symbol name)

theorem innermost (h : Agrees targets env state) :
    SameScope targets state.program env.here state.scopes.innermost ∧
      List.Forall₂ (SameScope targets state.program) env.outer state.scopes.below := by
  have hframes := h.frames
  rw [Scopes.stack_eq] at hframes
  exact List.forall₂_cons.mp hframes

theorem isDefinedHere (h : Agrees targets env state) {name : String} {symbol : Symbol}
    (hname : state.program.names.get? symbol = some name) :
    (env.here.lookup name).isSome = state.scopes.isDefinedHere symbol := by
  have hlookup := h.innermost.left.lookup name
  rw [NameTable.find?_of_get? hname, Option.bind_some] at hlookup
  exact isSome_eq_of_rel hlookup

-- Both keep the first definition of a name in a scope.
theorem define (h : Agrees targets env state) (name : Name) {site : Site} {binding : Binding}
    (hstands : Stands targets state.program site binding) :
    Agrees targets (env.declare name.text site) (Lower.define name binding state).2 := by
  have hname := Lower.get?_symbol name.text state
  have hnamed := h.symbol name.text
  obtain ⟨hhere, houter⟩ := hnamed.innermost
  rw [Environment.declare, Lower.define_apply, hnamed.isDefinedHere hname]
  split
  · exact hnamed.still (Lower.namewise_still.report _ rfl)
  · refine ⟨?_, hnamed.next⟩
    rw [Scopes.stack_define]
    exact .cons (.cons ⟨hname, hstands.extends (.insertName name.text)⟩ hhere) houter

theorem declareVariable (h : Agrees targets env state) (name : Name) (type : TypeId)
    (isGlobal : Bool) :
    Agrees targets (env.declareVariable name)
      (Lower.declareVariable name type isGlobal state).2 := by
  let entry : VariableEntry := ⟨(Lower.symbol name.text state).1, type, name.span, isGlobal⟩
  have hadded : Agrees targets { env with next := env.next + 1 }
      (Lower.addVariable entry (Lower.symbol name.text state).2).2 := {
    frames := (h.symbol name.text).frames.imp fun _ _ hscope => hscope.extends (.addVariable entry)
    next := by
      rw [h.next]
      exact (Array.size_push entry).symm }
  have hstands : Stands targets
      (Lower.addVariable entry (Lower.symbol name.text state).2).2.program
      (.Variable env.next name) (.Variable ⟨state.program.declared.size⟩) := by
    rw [h.next]
    exact .Variable (Lower.get?_symbol name.text state) Array.getElem?_push_size
  exact hadded.define name hstands

-- A name that is declared already is told from one that is not by what the innermost scope has.
theorem newVariable_eq (h : Agrees targets env state) (name : Name) (type : TypeId)
    (scopes : Scopes) :
    Lower.newVariable name type (env.here.lookup name.text) { state with scopes } =
      ((Lower.declareVariable name type false state).1,
        { (Lower.declareVariable name type false state).2 with scopes }) := by
  let entry : VariableEntry := ⟨(Lower.symbol name.text state).1, type, name.span, false⟩
  let added := (Lower.addVariable entry (Lower.symbol name.text state).2).2
  have hname : added.program.names.get? (Lower.symbol name.text state).1 = some name.text :=
    Lower.get?_symbol name.text state
  have hagain : Lower.symbol name.text added = ((Lower.symbol name.text state).1, added) :=
    Lower.symbol_of_get? hname
  have hdefined : (env.here.lookup name.text).isSome =
      added.scopes.isDefinedHere (Lower.symbol name.text state).1 :=
    (h.symbol name.text).isDefinedHere (Lower.get?_symbol name.text state)
  have hdeclared : Lower.declareVariable name type false state =
      (⟨state.program.declared.size⟩,
        (Lower.define name (.Variable ⟨state.program.declared.size⟩) added).2) := rfl
  have hnew : ∀ earlier : Option Site,
      Lower.newVariable name type earlier { state with scopes } =
        (⟨state.program.declared.size⟩, { (if earlier.isSome then
          (Lower.report (.about .DuplicateDefinition name.span name.text) added).2
        else added) with scopes }) := by
    rintro (_ | _) <;> rfl
  rw [hdeclared, Lower.define_apply, hagain, ← hdefined, hnew]
  split <;> rfl

-- Behind a scope everything is as it was, but for the variables that were numbered in it.
theorem leave {inner : Environment} {last later : LoweringState} (h : Agrees targets env state)
    (hinner : Agrees targets inner last) (hgrows : later.program.Extends state.program)
    (hscopes : later.scopes = state.scopes)
    (hdeclared : later.program.declared = last.program.declared) :
    Agrees targets { env with next := inner.next } later where
  frames := by
    rw [hscopes]
    exact h.frames.imp fun _ _ hscope => hscope.extends hgrows
  next := by rw [hdeclared, hinner.next]

end Agrees

end

-- Where a declaration is one of a type, the type is found by its name.
theorem Stands.type?_eq {targets : List TypeId} {program : Program} {site : Site} {binding : Binding}
    (h : Stands targets program site binding) :
    site.type? targets program = match binding with
      | .Type id => some id
      | _ => none := by
  have hfind : ∀ {id : TypeId} {shape : Shape}, program.types.shape? id = some shape →
      program.types.find? shape = some id := by
    intro id shape hshape
    rw [TypeTable.find?, Numbering.find?_of_get? hshape]
    rfl
  cases h with
  | Class hname hshape =>
      simp only [Site.type?, NameTable.find?_of_get? hname, Option.bind_eq_bind, Option.bind_some,
        hfind hshape]
  | Alias hname htarget hshape =>
      simp only [Site.type?, NameTable.find?_of_get? hname, htarget, Option.bind_eq_bind,
        Option.bind_some, hfind hshape]
  | Import | Function | Variable => rfl

namespace Resolver

theorem andThen_skip (resolver : Resolver) : resolver.andThen skip = resolver :=
  funext fun env => by simp only [andThen, skip, List.append_nil]

end Resolver

namespace Lower

section Named

variable {targets : List TypeId} {site : Option Site}

-- What lowering makes of a name is what the declaration says that the name stands for.
theorem nameNode_eq {name : String} {state : LoweringState} (span : Span)
    (h : Option.Rel (Stands targets state.program) site (lookup name state).1) :
    nameNode name span state = siteNode name span site state := by
  rw [nameNode, bind_apply, show (lookup name state).2 = state from rfl]
  generalize (lookup name state).1 = binding at h
  cases h with
  | none => rfl
  | some hstands => cases hstands <;> rfl

theorem type_Named_eq {name : Name} {state : LoweringState} (span : Span)
    (h : Option.Rel (Stands targets state.program) site (lookup name.text state).1) :
    type (.Named span name) state = siteType targets name site state := by
  rw [type, bind_apply, show (lookup name.text state).2 = state from rfl, siteType, bind_apply,
    program]
  generalize (lookup name.text state).1 = binding at h
  cases h with
  | none => rfl
  | some hstands =>
      rw [Option.bind_some, hstands.type?_eq]
      cases hstands <;> rfl

theorem newNode_eq {name : Name} {state : LoweringState} (span : Span)
    (h : Option.Rel (Stands targets state.program) site (lookup name.text state).1) :
    newNode name span state = siteObject targets name span site state := by
  rw [newNode, bind_apply, bind_apply, show types state = (state.program.types, state) from rfl,
    show (lookup name.text state).2 = state from rfl, siteObject, bind_apply, program]
  generalize (lookup name.text state).1 = binding at h
  cases h with
  | none => rfl
  | some hstands =>
      rw [Option.bind_some, hstands.type?_eq]
      cases hstands with
      | Class | Alias =>
          simp only [Option.filter_some]
          split <;> rfl
      | Import | Function | Variable => rfl

end Named

-- Steps that neither read nor change the scopes, and declare nothing.
structure Quiet {α : Type} (body : Lower α) : Prop extends Still body where
  unscoped : ∀ state scopes, body { state with scopes } =
    ((body state).1, { (body state).2 with scopes })

theorem nodewise_quiet : Nodewise (fun {_} body => Quiet body) where
  pure answer := ⟨namewise_still.pure answer, fun _ _ => rfl⟩
  bind {_ _ first next} hfirst hnext := by
    refine ⟨namewise_still.bind hfirst.toStill fun answer => (hnext answer).toStill, ?_⟩
    intro state scopes
    rw [bind_apply, bind_apply, hfirst.unscoped, (hnext _).unscoped]
  read look := ⟨namewise_still.read look, fun _ _ => rfl⟩
  report diagnostic herror := ⟨namewise_still.report diagnostic herror, fun _ _ => rfl⟩
  symbol name := ⟨namewise_still.symbol name, fun _ _ => rfl⟩
  internType shape := ⟨namewise_still.internType shape, fun _ _ => rfl⟩
  addNode node := ⟨namewise_still.addNode node, fun _ _ => rfl⟩

theorem quiet_siteNode (name : String) (span : Span) (site : Option Site) :
    Quiet (siteNode name span site) := by
  have hreport : ∀ kind, kind.severity = .Error → Quiet (do
      report (.about kind span name)
      errorNode span) := fun kind hkind =>
    nodewise_quiet.bind (nodewise_quiet.report _ (beq_of_eq hkind)) fun _ =>
      nodewise_quiet.errorNode span
  cases site with
  | none => exact hreport _ rfl
  | some site =>
      cases site with
      | Variable number declared | Function number declared =>
          exact nodewise_quiet.bind (nodewise_quiet.read id) fun _ => nodewise_quiet.leaf _ _ _
      | Import number declared => exact nodewise_quiet.addNode _
      | Class declared | Alias number declared => exact hreport _ rfl

variable {targets : List TypeId}

theorem quiet_siteType (name : Name) (site : Option Site) : Quiet (siteType targets name site) := by
  refine nodewise_quiet.bind (nodewise_quiet.read id) fun program => ?_
  split
  · exact nodewise_quiet.pure _
  · exact nodewise_quiet.bind (nodewise_quiet.report _ rfl) fun _ => nodewise_quiet.pure _

theorem quiet_siteObject (name : Name) (span : Span) (site : Option Site) :
    Quiet (siteObject targets name span site) := by
  refine nodewise_quiet.bind (nodewise_quiet.read id) fun program => ?_
  split
  · exact nodewise_quiet.leaf _ _ _
  · exact nodewise_quiet.bind (nodewise_quiet.report _ rfl) fun _ => nodewise_quiet.errorNode span

-- Lowering beside the resolver and beside lowering that is given the answers of the resolver. The
-- last makes the same of everything, uses up the answers, and has no use for the scopes.
structure Follows {α : Type} (targets : List TypeId) (resolver : Resolver) (guided : Guided α)
    (body : Lower α) : Prop where
  adds : AddsNames body
  grows : ∀ state, (body state).2.program.Extends state.program
  agrees : ∀ env state, Agrees targets env state → Agrees targets (resolver env).2 (body state).2
  answers : ∀ env state, Agrees targets env state → ∀ answer ∈ (resolver env).1,
    ∀ site ∈ answer.site, ∃ binding, Stands targets (body state).2.program site binding
  built : ∀ env state, Agrees targets env state → ∀ rest scopes,
    guided ((resolver env).1 ++ rest) { state with scopes } =
      (((body state).1, rest), { (body state).2 with scopes })

namespace Follows

variable {α β : Type}

theorem quiet {body : Lower α} (h : Quiet body) :
    Follows targets .skip (liftM body : Guided α) body where
  adds := .of_eq h.scopes
  grows := h.grows
  agrees _ _ hagrees := hagrees.still h.toStill
  answers _ _ _ _ hmem := absurd hmem List.not_mem_nil
  built _ state _ rest scopes := by
    change (((body { state with scopes }).1, rest), (body { state with scopes }).2) = _
    rw [h.unscoped]

theorem pure (answer : α) : Follows targets .skip (Pure.pure answer : Guided α) (Pure.pure answer) where
  adds := .of_eq fun _ => rfl
  grows _ := .refl _
  agrees _ _ h := h
  answers _ _ _ _ hmem := absurd hmem List.not_mem_nil
  built _ _ _ _ _ := rfl

theorem bind {resolver resolver' : Resolver} {guided : Guided α} {guided' : α → Guided β}
    {first : Lower α} {next : α → Lower β} (hfirst : Follows targets resolver guided first)
    (hnext : ∀ answer, Follows targets resolver' (guided' answer) (next answer)) :
    Follows targets (resolver.andThen resolver') (guided >>= guided') (first >>= next) where
  adds := hfirst.adds.bind fun answer => (hnext answer).adds
  grows state := (hfirst.grows state).trans ((hnext _).grows _)
  agrees env state h := (hnext _).agrees _ _ (hfirst.agrees env state h)
  answers env state h answer hmem site hsite := by
    rcases List.mem_append.mp hmem with hmem | hmem
    · obtain ⟨binding, hstands⟩ := hfirst.answers env state h answer hmem site hsite
      exact ⟨binding, hstands.extends ((hnext _).grows _)⟩
    · exact (hnext _).answers _ _ (hfirst.agrees env state h) answer hmem site hsite
  built env state h rest scopes := by
    have hmore := (hnext (first state).1).built _ _ (hfirst.agrees env state h) rest scopes
    change (guided >>= guided') (((resolver env).1 ++ (resolver' (resolver env).2).1) ++ rest) _ = _
    rw [List.append_assoc, Guided.bind_apply, hfirst.built env state h]
    exact hmore

theorem bind_skip {resolver : Resolver} {guided : Guided α} {guided' : α → Guided β}
    {first : Lower α} {next : α → Lower β} (hfirst : Follows targets resolver guided first)
    (hnext : ∀ answer, Follows targets .skip (guided' answer) (next answer)) :
    Follows targets resolver (guided >>= guided') (first >>= next) := by
  have h := hfirst.bind hnext
  rwa [Resolver.andThen_skip] at h

theorem last {resolver : Resolver} {guided : Guided α} {first : Lower α} {next : α → Lower β}
    (hfirst : Follows targets resolver guided first) (hnext : ∀ answer, Quiet (next answer)) :
    Follows targets resolver (guided >>= fun answer => liftM (next answer)) (first >>= next) :=
  hfirst.bind_skip fun answer => quiet (hnext answer)

-- What is made of a name is made of the answer.
theorem use {name : String} {body : Lower α} {told : Option Site → Lower α} (hstill : Still body)
    (hquiet : ∀ site, Quiet (told site))
    (htold : ∀ {site state}, Option.Rel (Stands targets state.program) site (lookup name state).1 →
      body state = told site state) :
    Follows targets (.use name) (do liftM (told (← Guided.use name))) body where
  adds := .of_eq hstill.scopes
  grows := hstill.grows
  agrees _ _ h := h.still hstill
  answers env state h answer hmem site hsite := by
    rw [List.mem_singleton.mp hmem] at hsite
    obtain ⟨binding, hstands⟩ := exists_of_rel (h.lookup name) hsite
    exact ⟨binding, hstands.extends (hstill.grows state)⟩
  built env state h rest scopes := by
    have hused : Guided.use name ((Resolver.use name env).1 ++ rest) { state with scopes } =
        ((env.lookup name, rest), { state with scopes }) := Guided.use_cons name _ rest _
    rw [Guided.bind_apply, hused, htold (h.lookup name)]
    change (((told _ { state with scopes }).1, rest), (told _ { state with scopes }).2) = _
    rw [(hquiet _).unscoped]

theorem declareVariable (name : Name) (type : TypeId) :
    Follows targets (.declare name) (Guided.declareVariable name type)
      (declareVariable name type false) where
  adds := .declareVariable name type false
  grows := stepwise_grows.declareVariable name type false
  agrees _ _ h := h.declareVariable name type false
  answers env state h answer hmem site hsite := by
    rw [List.mem_singleton.mp hmem] at hsite
    obtain ⟨binding, hstands⟩ := exists_of_rel (h.innermost.left.lookup name.text) hsite
    exact ⟨binding, hstands.extends (stepwise_grows.declareVariable name type false state)⟩
  built env state h rest scopes := by
    have hused : Guided.declare name.text ((Resolver.declare name env).1 ++ rest)
        { state with scopes } = ((env.here.lookup name.text, rest), { state with scopes }) :=
      Guided.declare_cons name.text _ rest _
    rw [Guided.declareVariable, Guided.bind_apply, hused]
    change (((newVariable name type _ { state with scopes }).1, rest),
      (newVariable name type _ { state with scopes }).2) = _
    rw [h.newVariable_eq name type scopes]

theorem inScope {resolver : Resolver} {guided : Guided α} {body : Lower α}
    (hbody : Follows targets resolver guided body) :
    Follows targets resolver.inScope guided (inScope body) where
  adds := .of_eq hbody.adds.inScope
  grows state := hbody.grows (pushScope state).2
  agrees _ state h :=
    h.leave (hbody.agrees _ _ h.enter) (hbody.grows (pushScope state).2)
      (hbody.adds.inScope state) rfl
  answers _ _ h := hbody.answers _ _ h.enter
  built _ _ h := hbody.built _ _ h.enter

theorem accepts {resolver : Resolver} {guided : Guided NodeId} {body : Lower NodeId}
    (hbody : Follows targets resolver guided body) :
    Follows targets resolver.inScope (.accepts guided) (accepts body) := by
  have hstart : Quiet startGag :=
    ⟨⟨fun _ => .refl _, fun _ => rfl, fun _ => rfl⟩, fun _ _ => rfl⟩
  have hend : ∀ gag, Quiet (endGag gag) :=
    fun gag => ⟨⟨fun _ => .refl _, fun _ => rfl, fun _ => rfl⟩, fun _ _ => rfl⟩
  exact (quiet hstart).bind fun gag => hbody.inScope.last fun id =>
    nodewise_quiet.bind (hend gag) fun failed =>
      nodewise_quiet.bind (nodewise_quiet.isError id) fun isError =>
        nodewise_quiet.pure (!failed && !isError)

end Follows

end Lower

end EffectLint
