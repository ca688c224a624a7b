import EffectLint.Module
import EffectLint.Proofs.Grammar.PlacedItem
import EffectLint.Proofs.Lowering.SaidOnce
import EffectLint.Proofs.Scoping.Resolver

/-!
What is said while a module is lowered. Each item is come to once, but for the types of the parameters
of a function with a body: they are read for its signature, and again for the variables of the body.
-/

namespace EffectLint

-- The names that are looked up twice.
def FunctionTree.readTwice (declared : FunctionTree) : List Name :=
  match declared.body with
  | some _ => (declared.parameters.filter (·.name.isSome)).flatMap (·.type.mentioned)
  | none => []

def Item.readTwice : Item → List Name
  | .Function declared => declared.readTwice
  | .Import _ | .Alias _ _ | .Class _ | .Global _ => []

-- How much has been said of an item: nothing yet, and all of it behind the stage that it belongs to.
-- A function is entered before its body is lowered.
def Item.Untold (item : Item) (low high : Nat) (said : List Diagnostic) : Prop :=
  item.Laid low high ∧ said = []

def FunctionTree.Entered (declared : FunctionTree) (low high : Nat) (said : List Diagnostic) : Prop :=
  declared.Laid low high ∧ ∃ result parameters defined, said = result ++ (parameters ++ defined) ∧
    Unknown declared.result.mentioned result ∧
    Unknown (TypeTree.mentionedIn declared.parameters) parameters ∧
    Lower.Redefines declared.name defined

section

variable (again : List Span)

def Item.Named : Item → Nat → Nat → List Diagnostic → Prop
  | .Import _ | .Class _ => Told again
  | item => item.Untold

def Item.Aliased : Item → Nat → Nat → List Diagnostic → Prop
  | .Import _ | .Class _ | .Alias _ _ => Told again
  | item => item.Untold

def Item.Entered : Item → Nat → Nat → List Diagnostic → Prop
  | .Import _ | .Class _ | .Alias _ _ | .Global _ => Told again
  | .Function declared => declared.Entered

end

namespace Lower

section

variable {again : List Span} {low high : Nat}

theorem addModule_mute (entry : ModuleEntry) : Mute (addModule entry) :=
  .of_step (fun program =>
    (⟨program.modules.size⟩, { program with modules := program.modules.push entry }))
    (fun _ => .addModule entry) fun _ _ _ => rfl

theorem addFunction_mute (entry : FunctionEntry) : Mute (addFunction entry) :=
  .of_step (fun program =>
    (⟨program.functions.size⟩, { program with functions := program.functions.push entry }))
    (fun _ => .addFunction entry) fun _ _ _ => rfl

theorem addBody_mute (body : FunctionBody) : Mute (addBody body) :=
  .of_step (fun program => ((), { program with bodies := program.bodies.push body }))
    (fun _ => .addBody body) fun _ _ _ => rfl

theorem addGlobal_mute (value : GlobalValue) : Mute (addGlobal value) :=
  .of_step (fun program => ((), { program with globals := program.globals.push value }))
    (fun _ => .addGlobal value) fun _ _ _ => rfl

-- Parameters are declared one behind the other. An unknown type has been reported before.
theorem parameterVariables_tell {parameters : List (Parameter TypeTree)}
    (hlaid : InOrder Parameter.Laid parameters low high)
    (hagain : ∀ parameter ∈ parameters, parameter.name.isSome = true →
      ∀ name ∈ parameter.type.mentioned, name.span ∈ again) :
    Says (parameterVariables parameters) fun _ _ told => Told again low high told ∧
      ∀ diagnostic ∈ told, diagnostic.kind = .UnknownType → diagnostic.span ∈ again := by
  induction hlaid with
  | nil hle => exact fun _ _ => .pure ⟨.nil hle, nofun⟩
  | @cons first rest low start stop high hlow hstart hfirst hrest ih =>
      intro program scopes
      have hrest' := ih fun parameter hmem => hagain parameter (List.mem_cons_of_mem _ hmem)
      have hagain' := hagain first List.mem_cons_self
      rw [parameterVariables]
      obtain ⟨middle, hmiddle, htype, hname⟩ := hfirst
      cases hnamed : first.name with
      | none =>
          refine SaysAt.imp (hrest' program scopes) fun _ _ told h => ⟨h.1.mono (by omega) (Nat.le_refl _), h.2⟩
      | some name =>
          obtain ⟨hbefore, -, hbehind⟩ := hname name hnamed
          refine (type_tells first.type program scopes).bind fun type made around front _ hfront => ?_
          refine (declareVariable_tells name type false made around).bind
            fun _ made around defined _ hdefined => ?_
          refine (hrest' made around).imp fun _ _ told hrest => ?_
          have hone : Told again start stop (front ++ defined) :=
            hdefined.behind (hfront.told htype) hfront.kind hbefore hmiddle (Nat.le_of_lt hbehind)
          rw [← List.append_assoc]
          refine ⟨(hone.append (Nat.le_refl _) hrest.1).mono hlow (Nat.le_refl _), ?_⟩
          refine List.forall_mem_append.mpr ⟨List.forall_mem_append.mpr ⟨fun diagnostic hmem _ => ?_,
            fun diagnostic hmem hkind => ?_⟩, hrest.2⟩
          · obtain ⟨mentioned, hmem', hspan⟩ := List.mem_map.mp (hfront.span_mem diagnostic hmem)
            rw [← hspan]
            exact hagain' (by rw [hnamed]; rfl) mentioned hmem'
          · rw [hdefined.kind diagnostic hmem] at hkind
            cases hkind

theorem importOrClass_tells {item : Item} {said : List Diagnostic} (hitem : item.Untold low high said) :
    Says (importOrClass item) fun _ _ told => item.Named again low high (said ++ told) := by
  obtain ⟨hlaid, rfl⟩ := hitem
  intro program scopes
  cases item with
  | Import name =>
      refine (symbol_mute _).bind fun symbol _ _ _ => (addModule_mute _).bind fun id made around _ => ?_
      exact (define_tells name (.Module id) made around).imp fun _ _ _ htold =>
        htold.told hlaid.1 hlaid.2
  | Class name =>
      refine (symbol_mute _).bind fun symbol _ _ _ => (internType_mute _).bind fun id made around _ => ?_
      exact (define_tells name (.Type id) made around).imp fun _ _ _ htold =>
        htold.told hlaid.1 hlaid.2
  | _ => exact .pure ⟨hlaid, rfl⟩

theorem typeAlias_tells {item : Item} {said : List Diagnostic} (hitem : item.Named again low high said) :
    Says (typeAlias item) fun _ _ told => item.Aliased again low high (said ++ told) := by
  intro program scopes
  cases item with
  | Alias name target =>
      obtain ⟨⟨named, hlow, hnamed, htarget⟩, rfl⟩ := hitem
      refine (type_tells target program scopes).bind fun type made around front _ hfront => ?_
      refine (symbol_mute _).bind fun symbol _ _ _ => (internType_mute _).bind fun id made around _ => ?_
      refine (define_tells name (.Type id) made around).imp fun _ _ back hback => ?_
      have hdefined : Told again low named back := hback.told hlow hnamed
      exact (hdefined.append (Nat.le_refl _) (hfront.told htarget)).perm List.perm_append_comm
  | Import | Class =>
      refine .pure ?_
      rw [List.append_nil]
      exact hitem
  | Function | Global =>
      refine .pure ?_
      rw [List.append_nil]
      exact hitem

theorem functionEntry_tells {declared : FunctionTree} (hlaid : declared.Laid low high) :
    Says (functionEntry declared) fun _ _ told => declared.Entered low high told := by
  intro program scopes
  refine (signature_tells declared.result declared.parameters declared.promises program scopes).bind
    fun signature made around front _ hfront => ?_
  obtain ⟨result, parameters, rfl, hresult, hparameters⟩ := hfront
  refine (internType_mute _).bind fun type _ _ _ => (symbol_mute _).bind fun symbol _ _ _ => ?_
  refine (addFunction_mute _).bind fun id made around _ => ?_
  refine (define_tells declared.name (.Function id) made around).bind
    fun _ _ _ defined _ hdefined => .pure ?_
  refine ⟨hlaid, result, parameters, defined, ?_, hresult, hparameters, hdefined⟩
  rw [List.append_nil, List.append_assoc]

theorem globalVariable_within (source : List Char) {declared : VariableTree}
    (hlaid : declared.Laid low high) :
    SaysWithin again low high (globalVariable source declared) := by
  obtain ⟨typeEnd, nameEnd, hat⟩ := hlaid
  intro program scopes
  refine (type_tells declared.type program scopes).bind fun type made around front _ hfront => ?_
  refine (declareVariable_tells declared.name type true made around).bind
    fun id made around defined _ hdefined => ?_
  have hvalue : SaysWithin again nameEnd high (expr? source declared.value) :=
    expr?_within source hat.value
  refine (hvalue made around).bind fun value made around back _ hback => ?_
  refine (addGlobal_mute ⟨id, value⟩ made around).imp fun _ _ told hnone => ?_
  have hnamed : Told again low nameEnd (front ++ defined) :=
    hdefined.behind (hfront.told hat.type) hfront.kind hat.name (Nat.le_trans hat.typed hat.named)
      hat.named
  rw [hnone, List.append_nil, ← List.append_assoc]
  exact hnamed.append (Nat.le_refl _) hback

theorem functionOrGlobal_tells (source : List Char) {item : Item} {said : List Diagnostic}
    (hitem : item.Aliased again low high said) :
    Says (functionOrGlobal source item) fun _ functions told =>
      functions.map Prod.snd = item.function?.toList ∧ item.Entered again low high (said ++ told) := by
  intro program scopes
  cases item with
  | Import | Class | Alias =>
      refine .pure ⟨rfl, ?_⟩
      rw [List.append_nil]
      exact hitem
  | Global declared =>
      obtain ⟨hlaid, rfl⟩ := hitem
      have hglobal : SaysWithin again low high (globalVariable source declared) :=
        globalVariable_within source hlaid
      refine (hglobal program scopes).bind fun _ _ _ told _ htold => .pure ⟨rfl, ?_⟩
      rw [List.append_nil]
      exact htold
  | Function declared =>
      obtain ⟨hlaid, rfl⟩ := hitem
      refine (functionEntry_tells hlaid program scopes).bind fun _ _ _ told _ htold => .pure ⟨rfl, ?_⟩
      rw [List.append_nil]
      exact htold

theorem block_tells (source : List Char) {parameters : List (Parameter TypeTree)}
    {written : List Statement} {middle : Nat} (hparameters : InOrder Parameter.Laid parameters low middle)
    (hagain : ∀ parameter ∈ parameters, parameter.name.isSome = true →
      ∀ name ∈ parameter.type.mentioned, name.span ∈ again)
    (hwritten : InOrder Statement.Laid written middle high) :
    Says (block source parameters written) fun _ _ told => ∃ front back, told = front ++ back ∧
      Told again low middle front ∧
      (∀ diagnostic ∈ front, diagnostic.kind = .UnknownType → diagnostic.span ∈ again) ∧
      Told again middle high back := by
  intro program scopes
  refine (parameterVariables_tell hparameters hagain program scopes).bind
    fun _ made around front _ hfront => ?_
  have hstatements : SaysWithin again middle high (statements source written) :=
    statements_within source hwritten fun one _ _ _ hone => statement_within source hone
  refine (hstatements made around).imp fun _ _ back hback => ?_
  exact ⟨front, back, rfl, hfront.1, hfront.2, hback⟩

-- The signature and the body of a function complain of the same only where its parameters are read twice.
theorem body_tells (source : List Char) (function : FunctionId) {declared : FunctionTree}
    {said : List Diagnostic} (hentered : declared.Entered low high said)
    (hagain : ∀ name ∈ declared.readTwice, name.span ∈ again) :
    Says (body source function declared) fun _ _ told => Told again low high (said ++ told) := by
  obtain ⟨⟨typeEnd, nameEnd, listEnd, hat⟩, result, written, defined, rfl, hresult, hwritten,
    hdefined⟩ := hentered
  have hnamed : Told again low nameEnd (result ++ defined) :=
    hdefined.behind (hresult.told hat.result) hresult.kind hat.name
      (Nat.le_trans hat.typed hat.named) hat.named
  have hread : Told again nameEnd listEnd written := hwritten.told (laid_mentionedIn hat.parameters)
  intro program scopes
  rw [body_eq]
  cases hbody : declared.body with
  | none =>
      refine (addBody_mute _ program scopes).imp fun _ _ told hnone => ?_
      rw [hnone, List.append_nil]
      refine ((hnamed.append (Nat.le_refl _) hread).mono (Nat.le_refl _) hat.listed).perm ?_
      rw [List.append_assoc]
      exact List.perm_append_comm.append_left result
  | some written' =>
      have hagain' : ∀ parameter ∈ declared.parameters, parameter.name.isSome = true →
          ∀ name ∈ parameter.type.mentioned, name.span ∈ again := by
        intro parameter hmem hname name hmentioned
        refine hagain name ?_
        rw [FunctionTree.readTwice, hbody]
        exact List.mem_flatMap.mpr ⟨parameter, List.mem_filter.mpr ⟨hmem, hname⟩, hmentioned⟩
      have hblock := block_tells source hat.parameters hagain' (hat.body written' hbody)
      refine (hblock.inScope program scopes).bind fun _ made around _ _ hsaid => ?_
      obtain ⟨parameters, rest, rfl, hparameters, hunknown, hrest⟩ := hsaid
      refine (addBody_mute _ made around).imp fun _ _ told hnone => ?_
      have hboth : Told again nameEnd listEnd (written ++ parameters) := by
        refine hread.append_apart hparameters fun one hone other hother hkind hspan => ?_
        have hone := hwritten.kind one hone
        rw [hspan]
        exact ⟨hone, hunknown other hother (hkind.symm.trans hone)⟩
      refine ((hnamed.append (Nat.le_refl _) hboth).append (Nat.le_refl _) hrest).perm ?_
      refine List.perm_iff_count.mpr fun diagnostic => ?_
      simp only [hnone, List.count_append, List.append_nil]
      omega

end

-- Items one behind the other, and what has been said of each of them, in whatever order it was said.
inductive SaidOf (state : Item → Nat → Nat → List Diagnostic → Prop) :
    List Item → Nat → Nat → List Diagnostic → Prop where
  | nil {low high} : low ≤ high → SaidOf state [] low high []
  | cons {first rest low start stop high one others said} : low ≤ start →
      state first start stop one → SaidOf state rest stop high others →
      said.Perm (one ++ others) → SaidOf state (first :: rest) low high said

section

variable {again : List Span} {low high : Nat}
  {before behind : Item → Nat → Nat → List Diagnostic → Prop} {items : List Item}
  {said : List Diagnostic}

theorem SaidOf.untold (hlaid : InOrder Item.Laid items low high) :
    SaidOf Item.Untold items low high [] := by
  induction hlaid with
  | nil hle => exact .nil hle
  | cons hlow hstart hfirst hrest ih => exact .cons hlow ⟨hfirst, rfl⟩ ih (.refl _)

-- What the stages say comes behind all that was said before, of whatever item.
theorem perm_append {one others told told' : List Diagnostic} (hperm : said.Perm (one ++ others)) :
    (said ++ (told ++ told')).Perm (one ++ told ++ (others ++ told')) := by
  refine List.perm_iff_count.mpr fun diagnostic => ?_
  have hcount := hperm.count_eq diagnostic
  simp only [List.count_append] at hcount ⊢
  omega

theorem forM_tells {step : Item → Lower Unit}
    (hstep : ∀ item low high said, before item low high said →
      Says (step item) fun _ _ told => behind item low high (said ++ told))
    (h : SaidOf before items low high said) :
    Says (items.forM step) fun _ _ told => SaidOf behind items low high (said ++ told) := by
  induction h with
  | nil hle => exact fun _ _ => .pure (.nil hle)
  | cons hlow hone hrest hperm ih =>
      intro program scopes
      rw [List.forM_eq_forM, List.forM_cons]
      refine (hstep _ _ _ _ hone program scopes).bind fun _ made around told _ hone' => ?_
      exact (ih made around).imp fun _ _ told' hrest' => .cons hlow hone' hrest' (perm_append hperm)

theorem functionsAndGlobals_tell (source : List Char)
    (h : SaidOf (Item.Aliased again) items low high said) :
    Says (functionsAndGlobals source items) fun _ functions told =>
      functions.map Prod.snd = items.filterMap Item.function? ∧
        SaidOf (Item.Entered again) items low high (said ++ told) := by
  induction h with
  | nil hle => exact fun _ _ => .pure ⟨rfl, .nil hle⟩
  | @cons first rest low start stop high one others said hlow hone hrest hperm ih =>
      intro program scopes
      rw [functionsAndGlobals]
      refine (functionOrGlobal_tells source hone program scopes).bind
        fun functions made around told _ hfirst => ?_
      refine (ih made around).bind fun functions' _ _ told' _ hrest' => .pure ⟨?_, ?_⟩
      · rw [List.map_append, hfirst.1, hrest'.1, List.filterMap_cons]
        cases first.function? <;> rfl
      · rw [List.append_nil]
        exact .cons hlow hfirst.2 hrest'.2 (perm_append hperm)

theorem bodies_tell (source : List Char) {functions : List (FunctionId × FunctionTree)}
    (hagain : ∀ item ∈ items, ∀ name ∈ item.readTwice, name.span ∈ again)
    (hfunctions : functions.map Prod.snd = items.filterMap Item.function?)
    (h : SaidOf (Item.Entered again) items low high said) :
    Says (bodies source functions) fun _ _ told => Told again low high (said ++ told) := by
  induction h generalizing functions with
  | nil hle =>
      obtain rfl := List.map_eq_nil_iff.mp hfunctions
      exact fun _ _ => .pure (.nil hle)
  | @cons first rest low start stop high one others said hlow hone hrest hperm ih =>
      have hagain' := hagain first List.mem_cons_self
      have hrest' : ∀ functions : List (FunctionId × FunctionTree),
          functions.map Prod.snd = rest.filterMap Item.function? →
          Says (bodies source functions) fun _ _ told => Told again stop high (others ++ told) :=
        fun functions => ih fun item hmem => hagain item (List.mem_cons_of_mem _ hmem)
      cases hfunction : first.function? with
      | none =>
          rw [List.filterMap_cons_none hfunction] at hfunctions
          have htold : Told again start stop one := by
            cases first with
            | Function => cases hfunction
            | _ => exact hone
          refine (hrest' functions hfunctions).imp fun _ _ told hsaid => ?_
          refine ((htold.mono hlow (Nat.le_refl _)).append (Nat.le_refl _) hsaid).perm ?_
          rw [← List.append_assoc]
          exact (hperm.append_right told).symm
      | some declared =>
          rw [List.filterMap_cons_some hfunction] at hfunctions
          obtain ⟨⟨function, other⟩, functions, rfl, rfl, hothers⟩ := List.map_eq_cons_iff.mp hfunctions
          obtain rfl : first = .Function other := by
            cases first with
            | Function => exact congrArg Item.Function (Option.some.inj hfunction)
            | _ => cases hfunction
          intro program scopes
          rw [bodies, List.forM_eq_forM, List.forM_cons]
          refine (body_tells source function hone hagain' program scopes).bind
            fun _ made around told _ hone' => ?_
          refine (hrest' functions hothers made around).imp fun _ _ told' hsaid => ?_
          exact ((hone'.mono hlow (Nat.le_refl _)).append (Nat.le_refl _) hsaid).perm
            (perm_append hperm).symm

-- The stages of a module, one behind the other.
theorem module_tells (source : List Char) (hlaid : InOrder Item.Laid items low high)
    (hagain : ∀ item ∈ items, ∀ name ∈ item.readTwice, name.span ∈ again) :
    Says (Lower.module source items) fun _ _ told => Told again low high told := by
  intro program scopes
  have himports : Says (items.forM importOrClass) fun _ _ told =>
      SaidOf (Item.Named again) items low high ([] ++ told) :=
    forM_tells (fun _ _ _ _ hitem => importOrClass_tells hitem) (.untold hlaid)
  refine (himports program scopes).bind fun _ made around named _ hnamed => ?_
  refine (forM_tells (fun _ _ _ _ hitem => typeAlias_tells hitem) hnamed made around).bind
    fun _ made around aliased _ haliased => ?_
  refine (functionsAndGlobals_tell source haliased made around).bind
    fun functions made around entered _ hentered => ?_
  refine (bodies_tell source hagain hentered.1 hentered.2 made around).imp fun _ _ told htold => ?_
  simpa using htold

end

end Lower

open Lower

-- Lowering a module says the same of one place twice only where a type is read twice and is unknown.
theorem ParsedModule.lowering_reports_once {source : List Char} {settings : Settings}
    {parsed : ParsedModule} (hread : ParsedModule.read source settings = .ok parsed) :
    ∃ told : List Diagnostic,
      (lower parsed.source parsed.items
        (.start parsed.settings.warnings parsed.diagnostics)).reporter.diagnostics =
          parsed.diagnostics ++ told.toArray ∧
      told.Pairwise fun one other => one.kind = other.kind → one.span = other.span →
        one.kind = .UnknownType ∧
          one.span ∈ (parsed.items.flatMap Item.readTwice).map Name.span := by
  obtain ⟨hparse, rfl, -⟩ := ParsedModule.parse_of_read hread
  have hagain : ∀ item ∈ parsed.items, ∀ name ∈ item.readTwice,
      name.span ∈ (parsed.items.flatMap Item.readTwice).map Name.span :=
    fun item hitem name hname => List.mem_map_of_mem (List.mem_flatMap.mpr ⟨item, hitem, hname⟩)
  obtain ⟨_, made, around, told, hidden, -, htold, hrun⟩ :=
    module_tells parsed.source (parse_laid hparse) hagain .empty .empty
  have hreporter : (lower parsed.source parsed.items
      (.start parsed.settings.warnings parsed.diagnostics)).reporter =
        (Reporter.start parsed.settings.warnings parsed.diagnostics).after told hidden := by
    have hlower := hrun (.start parsed.settings.warnings parsed.diagnostics)
    exact congrArg (·.2.reporter) hlower
  refine ⟨told, ?_, htold.apart⟩
  rw [hreporter]
  rfl

-- A call of what is not known is one mistake, wherever it stands.
theorem ParsedModule.lowering_reports_once_in_sum : ∃ parsed,
    ParsedModule.read "int f(int x) { return nope(x) + nope; }".toList ⟨100, 10, .Off⟩ = .ok parsed ∧
      ∃ told : List Diagnostic,
        (lower parsed.source parsed.items
          (.start parsed.settings.warnings parsed.diagnostics)).reporter.diagnostics =
            parsed.diagnostics ++ told.toArray ∧
        told.Pairwise fun one other => one.kind = other.kind → one.span = other.span →
          one.kind = .UnknownType ∧
            one.span ∈ (parsed.items.flatMap Item.readTwice).map Name.span := by
  have hrun : (ParsedModule.read "int f(int x) { return nope(x) + nope; }".toList
      ⟨100, 10, .Off⟩).toOption.map (fun _ => ()) = some () := by decide +kernel
  obtain ⟨parsed, hread, -⟩ := ParsedModule.exists_read hrun
  exact ⟨parsed, hread, ParsedModule.lowering_reports_once hread⟩

-- The unknown type of the parameter is reported for the signature and for the variable.
theorem ParsedModule.lowering_reports_twice : ∃ parsed,
    ParsedModule.read "void f(Foo x) { }".toList ⟨100, 10, .Off⟩ = .ok parsed ∧
      parsed.diagnostics = #[] ∧
      (lower parsed.source parsed.items
        (.start parsed.settings.warnings parsed.diagnostics)).reporter.diagnostics =
          #[.about .UnknownType ⟨7, 10⟩ "Foo", .about .UnknownType ⟨7, 10⟩ "Foo"] := by
  have hrun : (ParsedModule.read "void f(Foo x) { }".toList ⟨100, 10, .Off⟩).toOption.map
      (fun parsed => (parsed.diagnostics, (lower parsed.source parsed.items
        (.start parsed.settings.warnings parsed.diagnostics)).reporter.diagnostics)) =
      some (#[], #[.about .UnknownType ⟨7, 10⟩ "Foo", .about .UnknownType ⟨7, 10⟩ "Foo"]) := by
    decide +kernel
  obtain ⟨parsed, hread, hseen⟩ := ParsedModule.exists_read hrun
  obtain ⟨hclean, htold⟩ := Prod.mk.inj hseen
  exact ⟨parsed, hread, hclean, htold⟩

end EffectLint
