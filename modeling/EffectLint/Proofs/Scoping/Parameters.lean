import EffectLint.Module
import EffectLint.Proofs.Scoping.Module
import EffectLint.Proofs.Tree.Induction

/-!
The types of parameters. Each is read twice, for the signature of the function and again where the
parameters are declared in front of its body. Between the two no type gets a name at module level,
so they come to the same wherever no earlier parameter takes the name of a type.
-/

namespace EffectLint

def Site.isType : Site → Bool
  | .Class _ | .Alias _ _ => true
  | .Import _ _ | .Function _ _ | .Variable _ _ => false

namespace Environment

-- The class or alias that a name stands for.
def typeSite? (env : Environment) (name : String) : Option Site :=
  (env.lookup name).filter Site.isType

-- A new name hides a type only in the scopes further out.
theorem typeSite?_declare {env : Environment} {name other : String} {site : Site}
    (hsite : site.isType = false)
    (hfree : other = name → env.here.lookup name = none → env.typeSite? name = none) :
    (env.declare name site).typeSite? other = env.typeSite? other := by
  rw [declare]
  split
  · rfl
  · next hnew =>
    have hnone : env.here.lookup name = none := Option.not_isSome_iff_eq_none.mp hnew
    by_cases hother : other = name
    · subst hother
      rw [hfree rfl hnone, typeSite?, lookup, List.findSome?_cons, List.lookup_cons_self,
        Option.filter_some, hsite]
      rfl
    · rw [typeSite?, lookup, List.findSome?_cons, List.lookup_cons, beq_false_of_ne hother]
      rfl

-- At module level there is nothing to hide.
theorem typeSite?_declare_module {env : Environment} (houter : env.outer = []) (name other : String)
    {site : Site} (hsite : site.isType = false) :
    (env.declare name site).typeSite? other = env.typeSite? other := by
  refine typeSite?_declare hsite fun _ hnone => ?_
  rw [typeSite?, lookup, houter, List.findSome?_cons, hnone]
  rfl

theorem outer_declare (env : Environment) (name : String) (site : Site) :
    (env.declare name site).outer = env.outer := by
  rw [declare]
  split <;> rfl

end Environment

-- Environments in which the same names stand for types.
structure SameTypes (later earlier : Environment) : Prop where
  outer : later.outer = earlier.outer
  types : ∀ name, later.typeSite? name = earlier.typeSite? name

namespace SameTypes

variable {env : Environment}

theorem refl (env : Environment) : SameTypes env env :=
  ⟨rfl, fun _ => rfl⟩

theorem trans {first second third : Environment} (h : SameTypes second first)
    (h' : SameTypes third second) : SameTypes third first :=
  ⟨h'.outer.trans h.outer, fun name => (h'.types name).trans (h.types name)⟩

theorem declare {env : Environment} (houter : env.outer = []) (name : String) {site : Site}
    (hsite : site.isType = false) : SameTypes (env.declare name site) env :=
  ⟨env.outer_declare name site, fun other => env.typeSite?_declare_module houter name other hsite⟩

theorem declareVariable (houter : env.outer = []) (name : Name) :
    SameTypes (env.declareVariable name) env :=
  have houter' : { env with next := env.next + 1 }.outer = [] := houter
  have hsame := declare houter' name.text (show (Site.Variable env.next name).isType = false from rfl)
  ⟨hsame.outer, hsame.types⟩

end SameTypes

namespace Resolver

-- At module level, nothing that is declared on the way is a type.
def KeepsTypes (resolver : Resolver) : Prop :=
  ∀ env : Environment, env.outer = [] → SameTypes (resolver env).2 env

namespace KeepsTypes

theorem of_eq {resolver : Resolver} (h : ∀ env, (resolver env).2 = env) : resolver.KeepsTypes := by
  intro env _
  rw [h env]
  exact .refl env

theorem andThen {first next : Resolver} (hfirst : first.KeepsTypes) (hnext : next.KeepsTypes) :
    (first.andThen next).KeepsTypes :=
  fun env houter =>
    have hsame := hfirst env houter
    hsame.trans (hnext _ (hsame.outer.trans houter))

theorem inScope (resolver : Resolver) : resolver.inScope.KeepsTypes :=
  fun _ _ => ⟨rfl, fun _ => rfl⟩

theorem skip : Resolver.skip.KeepsTypes :=
  of_eq fun _ => rfl

theorem use (name : String) : (Resolver.use name).KeepsTypes :=
  of_eq fun _ => rfl

theorem parameterTypes {parameters : List (Parameter TypeTree)}
    (htypes : ∀ parameter ∈ parameters, (Resolver.type parameter.type).KeepsTypes) :
    (Resolver.parameterTypes parameters).KeepsTypes := by
  induction parameters with
  | nil =>
      rw [Resolver.parameterTypes]
      exact skip
  | cons first rest ih =>
      rw [Resolver.parameterTypes]
      exact (htypes first List.mem_cons_self).andThen
        (ih fun parameter hmem => htypes parameter (List.mem_cons_of_mem _ hmem))

theorem type (written : TypeTree) : (Resolver.type written).KeepsTypes := by
  induction written with
  | Basic | Error =>
      rw [Resolver.type]
      exact skip
  | Named span name =>
      rw [Resolver.type]
      exact use name.text
  | Pointer span target ih | Array span target ih =>
      rw [Resolver.type]
      exact ih
  | AssocArray span value key ihValue ihKey =>
      rw [Resolver.type]
      exact ihValue.andThen ihKey
  | Callable span isDelegate promises result parameters ihResult ihParameters =>
      rw [Resolver.type]
      exact ihResult.andThen (parameterTypes ihParameters)

theorem exprs {parts : List Expr} (hparts : ∀ part ∈ parts, (Resolver.expr part).KeepsTypes) :
    (Resolver.exprs parts).KeepsTypes := by
  induction parts with
  | nil =>
      rw [Resolver.exprs]
      exact skip
  | cons first rest ih =>
      rw [Resolver.exprs]
      exact (hparts first List.mem_cons_self).andThen
        (ih fun part hmem => hparts part (List.mem_cons_of_mem _ hmem))

theorem expr (written : Expr) : (Resolver.expr written).KeepsTypes := by
  induction written using Expr.induction with
  | step whole ih =>
    unfold Resolver.expr
    cases whole with
    | Identifier span name => exact use name
    | New span name => exact use name.text
    | Integer | Text | Boolean | Null | NewAnonymous | Error => exact skip
    | Paren span part | Leading span op part | Step span op part => exact ih part (by simp [Expr.parts])
    | Binary span op first second | Assign span op first second | Comma span first second
    | Index span first second | Remove span first second =>
        exact (ih first (by simp [Expr.parts])).andThen (ih second (by simp [Expr.parts]))
    | Conditional span condition yes no =>
        exact (ih condition (by simp [Expr.parts])).andThen
          ((ih yes (by simp [Expr.parts])).andThen (ih no (by simp [Expr.parts])))
    | Cast span written operand => exact (type written).andThen (ih operand (by simp [Expr.parts]))
    | Call span callee arguments =>
        exact (ih callee (by simp [Expr.parts])).andThen
          (exprs fun part hmem => ih part (by simp [Expr.parts, hmem]))
    | Tuple span elements => exact exprs ih
    | Assert span condition message =>
        cases message with
        | none => exact ih condition (by simp [Expr.parts])
        | some message =>
            exact (ih condition (by simp [Expr.parts])).andThen (ih message (by simp [Expr.parts]))
    | Declare span name value =>
        exact (ih value (by simp [Expr.parts])).andThen fun _ houter =>
          .declareVariable houter name
    | Compiles span operand => exact inScope _

theorem expr? (written : Option Expr) : (Resolver.expr? written).KeepsTypes := by
  cases written with
  | none => exact skip
  | some written => exact expr written

theorem bodies (functions : List FunctionTree) : (Resolver.bodies functions).KeepsTypes := by
  induction functions with
  | nil => exact skip
  | cons first rest ih =>
      have hfirst : (Resolver.body first).KeepsTypes := by
        rw [Resolver.body]
        cases first.body with
        | none => exact skip
        | some block => exact inScope _
      exact hfirst.andThen ih

end KeepsTypes

end Resolver

namespace Environment

theorem typeSite?_enter (env : Environment) (name : String) :
    env.enter.typeSite? name = env.typeSite? name :=
  rfl

theorem outer_importsAndClasses (items : List Item) (number : Nat) (env : Environment) :
    (env.importsAndClasses items number).outer = env.outer := by
  induction items generalizing env number with
  | nil => rfl
  | cons first rest ih =>
      cases first with
      | Import | Class => exact (ih _ _).trans (outer_declare _ _ _)
      | Alias | Function | Global => exact ih _ _

theorem outer_aliases (items : List Item) (number : Nat) (env : Environment) :
    (env.aliases items number).outer = env.outer := by
  induction items generalizing env number with
  | nil => rfl
  | cons first rest ih =>
      cases first with
      | Alias => exact (ih _ _).trans (outer_declare _ _ _)
      | Import | Class | Function | Global => exact ih _ _

theorem functionsAndGlobals_sameTypes (items : List Item) (number : Nat) {env : Environment}
    (houter : env.outer = []) : SameTypes (env.functionsAndGlobals items number) env := by
  induction items generalizing env number with
  | nil => exact .refl env
  | cons first rest ih =>
      cases first with
      | Import | Class | Alias => exact ih number houter
      | Function declared =>
          have hsame : SameTypes (env.declare declared.name.text (.Function number declared.name))
              env := .declare houter _ rfl
          exact hsame.trans (ih (number + 1) (hsame.outer.trans houter))
      | Global declared =>
          have hsame := SameTypes.declareVariable houter declared.name
          have hvalue := hsame.trans
            (Resolver.KeepsTypes.expr? declared.value _ (hsame.outer.trans houter))
          exact hvalue.trans (ih number (hvalue.outer.trans houter))

end Environment

section

variable {targets : List TypeId} {small large : Program}

-- A class and an alias have one type in a program, which stays theirs.
theorem Stands.type_eq {site : Site} {id id' : TypeId} (hgrows : large.Extends small)
    (h : Stands targets small site (.Type id)) (h' : Stands targets large site (.Type id')) :
    id' = id := by
  have hlarge := h.extends hgrows
  cases h' with
  | Class hname hshape =>
      cases hlarge with
      | Class hname' hshape' =>
          cases NameTable.eq_of_get? hname hname'
          exact TypeTable.eq_of_shape? hshape hshape'
  | Alias hname htarget hshape =>
      cases hlarge with
      | Alias hname' htarget' hshape' =>
          cases NameTable.eq_of_get? hname hname'
          cases htarget.symm.trans htarget'
          exact TypeTable.eq_of_shape? hshape hshape'

theorem Stands.isType_eq {site : Site} {binding : Binding} (h : Stands targets small site binding) :
    site.isType = true ↔ ∃ id, binding = .Type id := by
  cases h <;> simp [Site.isType]

end

namespace Lower

-- The type that a written name denotes.
def namedType : Option Binding → TypeId
  | some (.Type id) => id
  | _ => .error

theorem type_Named (span : Span) (name : Name) (state : LoweringState) :
    (type (.Named span name) state).1 = namedType (lookup name.text state).1 := by
  rw [type, bind_apply]
  cases (lookup name.text state).1 with
  | none => rfl
  | some binding => cases binding <;> rfl

section

variable {targets : List TypeId} {env env' : Environment} {state state' : LoweringState}

theorem namedType_eq {site site' : Option Site} {binding binding' : Option Binding}
    {small large : Program} (hgrows : large.Extends small)
    (hsites : site.filter Site.isType = site'.filter Site.isType)
    (h : Option.Rel (Stands targets small) site binding)
    (h' : Option.Rel (Stands targets large) site' binding') :
    namedType binding' = namedType binding := by
  -- only what stands for a type denotes one
  have hother : ∀ {program : Program} {site : Option Site} {binding : Option Binding},
      Option.Rel (Stands targets program) site binding → site.filter Site.isType = none →
        namedType binding = .error := by
    intro program site binding hrel hnone
    cases hrel with
    | none => rfl
    | @some site binding hstands =>
        cases binding with
        | «Type» id =>
            rw [Option.filter_some, hstands.isType_eq.mpr ⟨id, rfl⟩] at hnone
            cases hnone
        | _ => rfl
  cases hfound : site.filter Site.isType with
  | none => rw [hother h hfound, hother h' (hsites ▸ hfound)]
  | some one =>
      have hfound' := hsites.symm.trans hfound
      rw [Option.filter_eq_some_iff] at hfound hfound'
      obtain ⟨rfl, htype⟩ := hfound
      obtain ⟨rfl, -⟩ := hfound'
      cases h with
      | some hstands =>
          cases h' with
          | some hstands' =>
              obtain ⟨id, rfl⟩ := hstands.isType_eq.mp htype
              obtain ⟨id', rfl⟩ := hstands'.isType_eq.mp htype
              exact hstands.type_eq hgrows hstands'

-- Steps that change nothing but the types and that come to the same again in any larger program.
structure Again {α : Type} (targets : List TypeId) (env env' : Environment) (body : Lower α) :
    Prop extends Still body where
  again : ∀ state state', Agrees targets env state → Agrees targets env' state' →
    state'.program.Extends (body state).2.program → (body state').1 = (body state).1

namespace Again

variable {α β : Type}

theorem pure (answer : α) : Again targets env env' (pure answer) :=
  ⟨namewise_still.pure answer, fun _ _ _ _ _ => rfl⟩

theorem bind {first : Lower α} {next : α → Lower β} (hfirst : Again targets env env' first)
    (hnext : ∀ answer, Again targets env env' (next answer)) :
    Again targets env env' (first >>= next) where
  toStill := namewise_still.bind hfirst.toStill fun answer => (hnext answer).toStill
  again state state' h h' hgrows := by
    have hone := hfirst.again state state' h h' (((hnext _).grows _).trans hgrows)
    have htwo := (hnext (first state).1).again _ _ (h.still hfirst.toStill)
      (h'.still hfirst.toStill) (hgrows.trans (hfirst.grows state'))
    rw [bind_apply, bind_apply, hone, htwo]

theorem internType (shape : Shape) : Again targets env env' (internType shape) where
  toStill := namewise_still.internType shape
  again state state' _ _ hgrows := by
    have hshape : state'.program.types.shape? (Lower.internType shape state).1 = some shape :=
      hgrows.types _ _ TypeTable.shape?_insert
    have hinsert : (state'.program.types.insert shape).1 = _ :=
      congrArg Prod.fst (TypeTable.insert_of_shape? hshape)
    exact hinsert

theorem wrapType (inner : TypeId) (wrap : TypeId → Shape) :
    Again targets env env' (wrapType inner wrap) := by
  unfold Lower.wrapType
  split
  · exact pure TypeId.error
  · exact internType _

theorem parameterTypes {parameters : List (Parameter TypeTree)}
    (htypes : ∀ parameter ∈ parameters, Again targets env env' (type parameter.type)) :
    Again targets env env' (parameterTypes parameters) := by
  induction parameters with
  | nil =>
      rw [Lower.parameterTypes]
      exact pure []
  | cons first rest ih =>
      rw [Lower.parameterTypes]
      have hrest := ih fun parameter hmem => htypes parameter (List.mem_cons_of_mem _ hmem)
      exact (htypes first List.mem_cons_self).bind fun _ => hrest.bind fun _ => pure _

-- A type is read again as the same where all that it mentions stands for the same types.
theorem type {written : TypeTree}
    (hnames : ∀ name ∈ written.mentioned, env'.typeSite? name.text = env.typeSite? name.text) :
    Again targets env env' (type written) := by
  induction written with
  | Basic span type =>
      rw [Lower.type]
      exact pure _
  | Named span name =>
      refine ⟨namewise_still.type _, fun state state' h h' hgrows => ?_⟩
      have hsite := hnames name (by simp [TypeTree.mentioned])
      rw [type_Named, type_Named]
      exact namedType_eq (((namewise_still.type _).grows state).trans hgrows) hsite.symm
        (h.lookup name.text) (h'.lookup name.text)
  | Pointer span target ih | Array span target ih =>
      rw [TypeTree.mentioned] at hnames
      rw [Lower.type]
      exact (ih hnames).bind fun _ => wrapType _ _
  | AssocArray span value key ihValue ihKey =>
      rw [TypeTree.mentioned, List.forall_mem_append] at hnames
      rw [Lower.type]
      refine (ihValue hnames.1).bind fun value => (ihKey hnames.2).bind fun key => ?_
      split
      · exact pure _
      · exact internType _
  | Callable span isDelegate promises result parameters ihResult ihParameters =>
      rw [TypeTree.mentioned, List.forall_mem_append] at hnames
      rw [Lower.type]
      have hparameters : ∀ parameter ∈ parameters,
          Again targets env env' (Lower.type parameter.type) := fun parameter hmem =>
        ihParameters parameter hmem fun name hname =>
          hnames.2 name (TypeTree.mem_mentionedIn.mpr ⟨parameter, hmem, hname⟩)
      exact (ihResult hnames.1).bind fun _ => (parameterTypes hparameters).bind fun _ =>
        (internType _).bind fun _ => internType _
  | Error span =>
      rw [Lower.type]
      exact pure _

end Again

end

-- The variables that parameters are declared as. One without a name is no variable.
def parameterIds : List (Parameter TypeTree) → Lower (List (Option VariableId))
  | [] => return []
  | ⟨_, _, none⟩ :: rest => do
      return none :: (← parameterIds rest)
  | ⟨_, written, some name⟩ :: rest => do
      let id ← declareVariable name (← type written) false
      return some id :: (← parameterIds rest)

theorem parameterVariables_eq (parameters : List (Parameter TypeTree)) :
    parameterVariables parameters = (do
      let _ ← parameterIds parameters
      return ()) := by
  induction parameters with
  | nil => rw [parameterVariables, parameterIds, pure_bind]
  | cons first rest ih =>
      obtain ⟨isRef, written, name⟩ := first
      cases name <;> simp only [parameterVariables, parameterIds, ih, bind_assoc, pure_bind]

theorem parameterIds_grows (parameters : List (Parameter TypeTree)) :
    Grows (parameterIds parameters) := by
  induction parameters with
  | nil =>
      rw [parameterIds]
      exact stepwise_grows.pure []
  | cons first rest ih =>
      obtain ⟨isRef, written, name⟩ := first
      cases name with
      | none =>
          rw [parameterIds]
          exact stepwise_grows.bind ih fun _ => stepwise_grows.pure _
      | some name =>
          rw [parameterIds]
          exact stepwise_grows.bind (stepwise_grows.type written) fun _ =>
            stepwise_grows.bind (stepwise_grows.declareVariable name _ false) fun _ =>
            stepwise_grows.bind ih fun _ => stepwise_grows.pure _

-- The entry of a variable.
theorem declareVariable_entry (name : Name) (type : TypeId) (isGlobal : Bool)
    (state : LoweringState) :
    (declareVariable name type isGlobal state).2.program.declared[
        (declareVariable name type isGlobal state).1.index]? =
      some ⟨(symbol name.text state).1, type, name.span, isGlobal⟩ := by
  let entry : VariableEntry := ⟨(symbol name.text state).1, type, name.span, isGlobal⟩
  exact (define_extends name _ (addVariable entry (symbol name.text state).2).2).declared _ _
    Array.getElem?_push_size

end Lower

-- No parameter takes the name of a type that a later one mentions.
def ClearParameters (env : Environment) (parameters : List (Parameter TypeTree)) : Prop :=
  parameters.Pairwise fun earlier later =>
    ∀ name ∈ earlier.name, ∀ mentioned ∈ later.type.mentioned, mentioned.text = name.text →
      env.typeSite? name.text = none

instance (env : Environment) (parameters : List (Parameter TypeTree)) :
    Decidable (ClearParameters env parameters) :=
  inferInstanceAs (Decidable (List.Pairwise _ parameters))

-- The variable that a parameter is declared as has the type that the signature gives the parameter.
def Program.Types (program : Program) (declared : Option VariableId) (parameter : ParameterType) :
    Prop :=
  ∀ id ∈ declared, ∃ entry, program.declared[id.index]? = some entry ∧ entry.type = parameter.type

namespace Lower

theorem typeSite?_declareVariable {env : Environment} {name : Name} {other : String}
    (hfree : other = name.text → env.here.lookup name.text = none →
      env.typeSite? name.text = none) :
    (env.declareVariable name).typeSite? other = env.typeSite? other := by
  have hkept : ({ env with next := env.next + 1 }.declare name.text
      (.Variable env.next name)).typeSite? other = { env with next := env.next + 1 }.typeSite? other :=
    Environment.typeSite?_declare rfl hfree
  exact hkept

theorem parameterIds_types {targets : List TypeId} {env env' : Environment}
    {state state' : LoweringState} {parameters : List (Parameter TypeTree)}
    (hclear : ClearParameters env parameters)
    (hsame : ∀ parameter ∈ parameters, ∀ name ∈ parameter.type.mentioned,
      env'.typeSite? name.text = env.typeSite? name.text)
    (h : Agrees targets env state) (h' : Agrees targets env' state')
    (hgrows : state'.program.Extends (parameterTypes parameters state).2.program) :
    List.Forall₂ (parameterIds parameters state').2.program.Types
      (parameterIds parameters state').1 (parameterTypes parameters state).1 := by
  induction parameters generalizing env' state state' with
  | nil =>
      rw [parameterIds, parameterTypes]
      exact .nil
  | cons first rest ih =>
      obtain ⟨isRef, written, name⟩ := first
      obtain ⟨hfirst, hrest⟩ := List.pairwise_cons.mp hclear
      obtain ⟨hwritten, hlater⟩ := List.forall_mem_cons.mp hsame
      have htype : Again targets env env' (type written) := .type hwritten
      have hbehind := h.still htype.toStill
      rw [parameterTypes, bind_apply, bind_apply, pure_apply] at hgrows ⊢
      cases name with
      | none =>
          have hall := ih hrest hlater hbehind h' hgrows
          rw [parameterIds, bind_apply, pure_apply]
          exact .cons (by simp [Program.Types]) hall
      | some name =>
          have hread := htype.again state state' h h'
            ((stepwise_grows.parameterTypes (fun _ _ => stepwise_grows.type _) _).trans hgrows)
          have hdeclared := (h'.still htype.toStill).declareVariable name (type written state').1
            false
          -- a name that the first parameter takes stands for no type
          have hsame' : ∀ parameter ∈ rest, ∀ mentioned ∈ parameter.type.mentioned,
              (env'.declareVariable name).typeSite? mentioned.text =
                env.typeSite? mentioned.text := by
            intro parameter hmem mentioned hmentioned
            have hsite := hlater parameter hmem mentioned hmentioned
            refine (typeSite?_declareVariable fun htext _ => ?_).trans hsite
            have hnone := hfirst parameter hmem name rfl mentioned hmentioned htext
            rw [← htext] at hnone ⊢
            exact hsite.trans hnone
          have hextends := ((stepwise_grows.type written state').trans
            (stepwise_grows.declareVariable name (type written state').1 false _))
          have hall := ih hrest hsame' hbehind hdeclared (hgrows.trans hextends)
          have hentry := declareVariable_entry name (type written state').1 false
            (type written state').2
          rw [parameterIds, bind_apply, bind_apply, bind_apply, pure_apply]
          refine .cons ?_ hall
          rintro id hid
          cases hid
          exact ⟨_, (parameterIds_grows rest _).declared _ _ hentry, hread⟩

-- No item but an alias or a class makes a name stand for a type.
theorem functionOrGlobal_sameTypes (source : List Char) {targets : List TypeId} {env : Environment}
    {state : LoweringState} (houter : env.outer = []) (h : Agrees targets env state) (item : Item) :
    ∃ env', SameTypes env' env ∧ Agrees targets env' (functionOrGlobal source item state).2 := by
  cases item with
  | Import | Class | Alias => exact ⟨env, .refl env, h⟩
  | Function declared => exact ⟨_, .declare houter _ rfl, (h.functionItem declared).1⟩
  | Global declared =>
      have hsame := SameTypes.declareVariable houter declared.name
      have hvalue := Resolver.KeepsTypes.expr? declared.value _ (hsame.outer.trans houter)
      exact ⟨_, hsame.trans hvalue, h.globalItem source declared⟩

-- A function that is given back was declared in some state, in which the same names stand for types
-- as at the start.
theorem exists_declares {source : List Char} {targets : List TypeId} {items : List Item}
    {env : Environment} {state : LoweringState} (houter : env.outer = [])
    (h : Agrees targets env state) {function : FunctionId} {declared : FunctionTree}
    (hmem : (function, declared) ∈ (functionsAndGlobals source items state).1) :
    ∃ env' state', SameTypes env' env ∧ Agrees targets env' state' ∧
      (functionEntry declared state').1 = function ∧
      (functionsAndGlobals source items state).2.program.Extends
        (functionEntry declared state').2.program := by
  induction items generalizing env state with
  | nil => cases hmem
  | cons first rest ih =>
      rw [functionsAndGlobals, bind_apply, bind_apply, pure_apply] at hmem ⊢
      rcases List.mem_append.mp hmem with hmem | hmem
      · cases first with
        | Function other =>
            obtain ⟨rfl, rfl⟩ := Prod.mk.inj (List.mem_singleton.mp hmem)
            exact ⟨env, state, .refl env, h, rfl, stepwise_grows.functionsAndGlobals source
              (fun _ => accepts_grows) (fun entry _ => .addFunction entry)
              (fun value _ => .addGlobal value) rest _⟩
        | _ => cases hmem
      · obtain ⟨env', hsame, hagrees⟩ := functionOrGlobal_sameTypes source houter h first
        obtain ⟨last, point, hlast, hfound⟩ := ih (hsame.outer.trans houter) hagrees hmem
        exact ⟨last, point, hsame.trans hlast, hfound⟩

-- The entry of a function has the type of the signature that was read for it.
theorem functionEntry_type (declared : FunctionTree) (state : LoweringState) {large : Program}
    (hgrows : large.Extends (functionEntry declared state).2.program) :
    large.types.shape? (large.functionType (functionEntry declared state).1) =
        some (.Function (signature declared.result declared.parameters declared.promises state).1) ∧
      large.Extends (signature declared.result declared.parameters declared.promises state).2.program
      := by
  simp only [functionEntry, bind_apply, pure_apply] at hgrows ⊢
  generalize signature declared.result declared.parameters declared.promises state = read
    at hgrows ⊢
  generalize htype : internType (.Function read.1) read.2 = typed at hgrows ⊢
  generalize hname : symbol declared.name.text typed.2 = named at hgrows ⊢
  generalize hadd : addFunction ⟨named.1, typed.1, declared.name.span⟩ named.2 = added at hgrows ⊢
  have hadded : large.Extends added.2.program := (define_extends _ _ _).trans hgrows
  have hentry : large.functions[added.1.index]? = some ⟨named.1, typed.1, declared.name.span⟩ := by
    subst hadd
    exact hadded.functions _ _ Array.getElem?_push_size
  have hnamed : large.Extends named.2.program := by
    subst hadd
    exact (Program.Extends.addFunction _).trans hadded
  have htyped : large.Extends typed.2.program := by
    subst hname
    exact (Program.Extends.insertName _).trans hnamed
  have hshape : large.types.shape? typed.1 = some (.Function read.1) := by
    subst htype
    exact htyped.types _ _ TypeTable.shape?_insert
  refine ⟨by rw [Program.functionType, hentry]; exact hshape, ?_⟩
  subst htype
  exact (Program.Extends.insertType _).trans htyped

-- The state in which the parameters of a function are declared, with the functions in `front`
-- lowered before it.
def beforeParameters (source : List Char) (items : List Item) (reporter : Reporter)
    (front : List (FunctionId × FunctionTree)) : LoweringState :=
  (pushScope (bodies source front (outside source items (.start reporter)).2).2).2

theorem parameterIds_extends {source : List Char} {front back : List (FunctionId × FunctionTree)}
    {function : FunctionId} {declared : FunctionTree} (hbody : declared.body.isSome = true)
    (state : LoweringState) :
    (bodies source (front ++ (function, declared) :: back) state).2.program.Extends
      (parameterIds declared.parameters (pushScope (bodies source front state).2).2).2.program := by
  obtain ⟨written, hwritten⟩ := Option.isSome_iff_exists.mp hbody
  let entered := (pushScope (bodies source front state).2).2
  have hblock : (block source declared.parameters written.statements entered).2.program.Extends
      (parameterIds declared.parameters entered).2.program := by
    rw [block, parameterVariables_eq]
    exact statements_grows source written.statements _
  rw [bodies_append, bind_apply, bodies_cons, bind_apply]
  refine .trans ?_ (bodies_grows source back _)
  rw [body_eq, hwritten]
  exact hblock.trans (.addBody _)

end Lower

open Lower

-- Where no parameter takes the name of a type that a later one mentions, the variable of each
-- parameter of a function has the type that the signature of the function says.
theorem parameters_as_in_signature {source : List Char} {items : List Item} {reporter : Reporter}
    {front back : List (FunctionId × FunctionTree)} {function : FunctionId}
    {declared : FunctionTree}
    (hfunctions : (outside source items (.start reporter)).1 = front ++ (function, declared) :: back)
    (hbody : declared.body.isSome = true)
    (hclear : ClearParameters (.module items) declared.parameters) :
    ∃ signature,
      (lower source items reporter).program.types.shape?
          ((lower source items reporter).program.functionType function) =
        some (.Function signature) ∧
      List.Forall₂ (lower source items reporter).program.Types
        (parameterIds declared.parameters (beforeParameters source items reporter front)).1
        signature.parameters := by
  let point := (items.forM typeAlias (items.forM importOrClass (.start reporter)).2).2
  let known := Environment.aliases items 0 (.importsAndClasses items 0 .empty)
  have houter : known.outer = [] :=
    (Environment.outer_aliases _ _ _).trans (Environment.outer_importsAndClasses _ _ _)
  have hmodule : SameTypes (.module items) known :=
    Environment.functionsAndGlobals_sameTypes items 0 houter
  -- the first time, in the signature
  have hmem : (function, declared) ∈ (functionsAndGlobals source items point).1 := by
    have hmem : (function, declared) ∈ front ++ (function, declared) :: back := by simp
    exact hfunctions ▸ hmem
  obtain ⟨env, state, hsame, hagrees, rfl, hgrows⟩ :=
    exists_declares houter (aliases_agrees items reporter) hmem
  -- the second time, in front of the body
  have hbodies := (Follows.bodies source front).agrees _ _ (outside_agrees source items reporter)
  have hkept := Resolver.KeepsTypes.bodies (front.map Prod.snd) _ (hmodule.outer.trans houter)
  have htypes : ∀ name, (Resolver.bodies (front.map Prod.snd) (.module items)).2.enter.typeSite? name =
      env.typeSite? name := fun name => by
    rw [Environment.typeSite?_enter, hkept.types, hmodule.types, hsame.types]
  have hentered : (beforeParameters source items reporter front).program.Extends
      (functionEntry declared state).2.program :=
    hgrows.trans (bodies_grows source front _)
  have hdeclared : (lower source items reporter).program.Extends
      (parameterIds declared.parameters (beforeParameters source items reporter front)).2.program := by
    rw [lower_eq, hfunctions]
    exact parameterIds_extends hbody _
  have hshape := (functionEntry_type declared state
    (hentered.trans ((parameterIds_grows _ _).trans hdeclared))).1
  refine ⟨_, hshape, ?_⟩
  have hclear' : ClearParameters env declared.parameters :=
    hclear.imp fun hpair name hname other hother htext => by
      rw [hsame.types, ← hmodule.types]
      exact hpair name hname other hother htext
  have hall := parameterIds_types hclear' (fun _ _ name _ => htypes name.text)
    (hagrees.still (namewise_still.type declared.result)) hbodies.enter
    (functionEntry_type declared state hentered).2
  exact hall.imp fun _ _ htyped id hid =>
    (htyped id hid).imp fun entry hentry => ⟨hdeclared.declared _ _ hentry.1, hentry.2⟩

theorem parameters_as_in_signature_of_class : ∃ parsed function declared,
    ParsedModule.read "class C; void f(int y, C x) { }".toList ⟨100, 10, .Off⟩ = .ok parsed ∧
      (outside parsed.source parsed.items (.start (.start .Off #[]))).1 =
        [] ++ (function, declared) :: [] ∧
      declared.body.isSome = true ∧ ClearParameters (.module parsed.items) declared.parameters ∧
      ∃ signature,
        (lower parsed.source parsed.items (.start .Off #[])).program.types.shape?
            ((lower parsed.source parsed.items (.start .Off #[])).program.functionType function) =
          some (.Function signature) ∧
        List.Forall₂ (lower parsed.source parsed.items (.start .Off #[])).program.Types
          (parameterIds declared.parameters
            (beforeParameters parsed.source parsed.items (.start .Off #[]) [])).1
          signature.parameters := by
  have hrun : (ParsedModule.read "class C; void f(int y, C x) { }".toList
      ⟨100, 10, .Off⟩).toOption.map (fun parsed =>
        (outside parsed.source parsed.items (.start (.start .Off #[]))).1.map fun function =>
          (function.2.body.isSome,
            decide (ClearParameters (.module parsed.items) function.2.parameters))) =
        some [(true, true)] := by
    decide +kernel
  obtain ⟨parsed, hread, hseen⟩ := ParsedModule.exists_read hrun
  obtain ⟨⟨function, declared⟩, hfunctions, hfunction⟩ := List.map_eq_singleton_iff.mp hseen
  obtain ⟨hbody, hclear⟩ := Prod.mk.inj hfunction
  exact ⟨parsed, function, declared, hread, hfunctions, hbody, of_decide_eq_true hclear,
    parameters_as_in_signature hfunctions hbody (of_decide_eq_true hclear)⟩

-- The second parameter is of class `C`, but in front of the body its type is looked up again, and
-- there `C` is the first parameter.
theorem parameter_not_as_in_signature : ∃ parsed function declared signature,
    ParsedModule.read "class C; void f(int C, C x) { }".toList ⟨100, 10, .Off⟩ = .ok parsed ∧
      (outside parsed.source parsed.items (.start (.start .Off #[]))).1 =
        [] ++ (function, declared) :: [] ∧
      declared.body.isSome = true ∧
      (lower parsed.source parsed.items (.start .Off #[])).program.types.shape?
          ((lower parsed.source parsed.items (.start .Off #[])).program.functionType function) =
        some (.Function signature) ∧
      ¬ List.Forall₂ (lower parsed.source parsed.items (.start .Off #[])).program.Types
        (parameterIds declared.parameters
          (beforeParameters parsed.source parsed.items (.start .Off #[]) [])).1
        signature.parameters := by
  have hrun : (ParsedModule.read "class C; void f(int C, C x) { }".toList
      ⟨100, 10, .Off⟩).toOption.map (fun parsed =>
        let program := (lower parsed.source parsed.items (.start .Off #[])).program
        (outside parsed.source parsed.items (.start (.start .Off #[]))).1.map fun function =>
          decide (function.2.body.isSome = true ∧
            program.types.shape? (program.functionType function.1) =
              some (.Function ⟨[⟨.int, false⟩, ⟨⟨10⟩, false⟩], .void, .none⟩) ∧
            (parameterIds function.2.parameters
              (beforeParameters parsed.source parsed.items (.start .Off #[]) [])).1 =
              [some ⟨0⟩, some ⟨1⟩] ∧
            program.declared[1]?.map VariableEntry.type = some .error)) =
        some [true] := by
    decide +kernel
  obtain ⟨parsed, hread, hseen⟩ := ParsedModule.exists_read hrun
  obtain ⟨⟨function, declared⟩, hfunctions, hfunction⟩ := List.map_eq_singleton_iff.mp hseen
  obtain ⟨hbody, hshape, hids, htype⟩ := of_decide_eq_true hfunction
  refine ⟨parsed, function, declared, _, hread, hfunctions, hbody, hshape, fun hall => ?_⟩
  rw [hids] at hall
  obtain ⟨-, hall⟩ := List.forall₂_cons.mp hall
  obtain ⟨entry, hentry, hentryType⟩ := (List.forall₂_cons.mp hall).1 ⟨1⟩ rfl
  rw [hentry, Option.map_some, hentryType] at htype
  cases htype

end EffectLint
