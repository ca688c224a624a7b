import EffectLint.Proofs.Lowering.ExprAlongside
import EffectLint.Proofs.Lowering.Roots

/-!
Lowering the statements and the items of an edited module alongside those of the module itself. Where
the module is the same up to its functions, so is what the two lowerings start these from.
-/

namespace EffectLint

-- A function and its edited copy have the same number.
structure Lower.SameFunction (edit : Edit) (function function' : FunctionId × FunctionTree) : Prop where
  id : function.1 = function'.1
  declared : function.2.Edited edit function'.2

namespace Lower.Alongside

variable {edit : Edit} {base state state' : LoweringState} {source source' : List Char}

section Statements

variable (hfits : edit.Fits base)
include hfits

theorem localVariable {declared declared' : VariableTree} (hedited : declared.Edited edit declared')
    (h : state.Beside edit state' base) :
    Alongside edit base (Lower.localVariable source declared) (Lower.localVariable source' declared')
      Same state state' := by
  refine (type hfits hedited.type h).bind fun type type' one one' hone _ _ htype => ?_
  refine (expr? hfits hedited.value hone).bind fun value _ two two' htwo hgrows hgrows' hvalue => ?_
  cases hvalue
  have htype := hone.program.keeps hgrows hgrows' _ _ htype
  rw [← hedited.name, ← hedited.span]
  refine (declareVariable htwo hedited.free false htype).bind fun id _ three three' hthree _ _ hid => ?_
  cases hid
  exact declareNode hthree id declared.name declared.span value

omit hfits in
theorem statements {written written' : List Statement}
    (hwritten : ∀ one ∈ written, ∀ one' state state', one.Edited edit one' →
      state.Beside edit state' base →
      Alongside edit base (Lower.statement source one) (Lower.statement source' one') Same state state')
    (hedited : List.Forall₂ (Statement.Edited edit) written written')
    (h : state.Beside edit state' base) :
    Alongside edit base (Lower.statements source written) (Lower.statements source' written') Same state
      state' := by
  induction hedited generalizing state state' with
  | nil =>
      rw [Lower.statements, Lower.statements]
      exact pure h rfl
  | cons hfirst _ ih =>
      rw [Lower.statements, Lower.statements]
      refine (hwritten _ List.mem_cons_self _ _ _ hfirst h).bind fun first _ one one' hone _ _ hfirst => ?_
      cases hfirst
      refine (ih (fun one hmem => hwritten one (List.mem_cons_of_mem _ hmem)) hone).bind
        fun rest _ all all' hall _ _ hrest => ?_
      cases hrest
      exact pure hall rfl

theorem statement {written written' : Statement} (hedited : written.Edited edit written')
    (h : state.Beside edit state' base) :
    Alongside edit base (Lower.statement source written) (Lower.statement source' written') Same state
      state' := by
  induction written generalizing written' state state' with
  | Evaluate value =>
      cases hedited with
      | Evaluate hvalue =>
          rw [Lower.statement, Lower.statement]
          refine (expr hfits hvalue h).bind fun id _ later later' hlater _ _ hid => ?_
          cases hid
          exact pure hlater rfl
  | Local declared =>
      cases hedited with
      | Local hdeclared =>
          rw [Lower.statement, Lower.statement]
          refine (localVariable hfits hdeclared h).bind fun id _ later later' hlater _ _ hid => ?_
          cases hid
          exact pure hlater rfl
  | Return span value =>
      cases hedited with
      | Return hvalue =>
          rw [Lower.statement, Lower.statement]
          refine (expr? hfits hvalue h).bind fun id _ later later' hlater _ _ hid => ?_
          cases hid
          exact pure hlater rfl
  | If condition yes no ihyes ihno =>
      cases hedited with
      | @If _ _ _ _ _ no' hcondition hyes hno =>
          have hother : ∀ {later later'}, later.Beside edit later' base →
              Alongside edit base (otherwise? source no) (otherwise? source' no') Same later later' := by
            intro later later' hlater
            cases hno with
            | none => exact pure hlater rfl
            | some hother =>
                refine (inScope hlater fun inner inner' hinner _ _ => ihno _ rfl hother hinner).bind
                  fun flow _ last last' hlast _ _ hflow => ?_
                cases hflow
                exact pure hlast rfl
          rw [statement_If_eq, statement_If_eq]
          refine (expr hfits hcondition h).bind fun id _ one one' hone _ _ hid => ?_
          cases hid
          refine (inScope hone fun inner inner' hinner _ _ => ihyes hyes hinner).bind
            fun yes _ two two' htwo _ _ hyes => ?_
          cases hyes
          refine (hother htwo).bind fun no _ three three' hthree _ _ hno => ?_
          cases hno
          exact pure hthree rfl
  | While condition body ih =>
      cases hedited with
      | While hcondition hbody =>
          rw [Lower.statement, Lower.statement]
          refine (expr hfits hcondition h).bind fun id _ one one' hone _ _ hid => ?_
          cases hid
          refine (inScope hone fun inner inner' hinner _ _ => ih hbody hinner).bind
            fun flow _ two two' htwo _ _ hflow => ?_
          cases hflow
          exact pure htwo rfl
  | For first condition step body ihfirst ihbody =>
      cases hedited with
      | @For _ first' _ _ _ _ _ _ hfirst hcondition hstep hbody =>
          have hbefore : ∀ {inner inner'}, inner.Beside edit inner' base →
              Alongside edit base (first? source first) (first? source' first') Same inner inner' := by
            intro inner inner' hinner
            cases hfirst with
            | none => exact pure hinner rfl
            | some hone => exact ihfirst _ rfl hone hinner
          rw [statement_For_eq, statement_For_eq]
          refine inScope h fun inner inner' hinner _ _ => ?_
          refine (hbefore hinner).bind fun first _ one one' hone _ _ hfirst => ?_
          cases hfirst
          refine (expr? hfits hcondition hone).bind fun condition _ two two' htwo _ _ hcondition => ?_
          cases hcondition
          refine (expr? hfits hstep htwo).bind fun step _ three three' hthree _ _ hstep => ?_
          cases hstep
          refine (inScope hthree fun inner inner' hinner _ _ => ihbody hbody hinner).bind
            fun flow _ four four' hfour _ _ hflow => ?_
          cases hflow
          exact pure hfour rfl
  | Block span written ih =>
      cases hedited with
      | Block hwritten =>
          rw [Lower.statement, Lower.statement]
          refine (inScope h fun inner inner' hinner _ _ =>
            statements (fun one hmem _ _ _ hone hlater => ih one hmem hone hlater) hwritten
              hinner).bind fun flows _ later later' hlater _ _ hflows => ?_
          cases hflows
          exact pure hlater rfl
  | Empty span =>
      cases hedited
      rw [Lower.statement, Lower.statement]
      exact pure h rfl

theorem parameterVariables {parameters parameters' : List (Parameter TypeTree)}
    (hedited : List.Forall₂ (Parameter.Related (TypeTree.Edited edit)) parameters parameters')
    (hnames : parameters.map Parameter.name = parameters'.map Parameter.name)
    (hfree : ∀ parameter ∈ parameters, ∀ name ∈ parameter.name, ¬edit.reserved name.text)
    (h : state.Beside edit state' base) :
    Alongside edit base (Lower.parameterVariables parameters) (Lower.parameterVariables parameters') Same
      state state' := by
  induction hedited generalizing state state' with
  | nil => exact pure h rfl
  | cons hfirst _ ih =>
      obtain ⟨hname, hnames⟩ := List.cons.inj hnames
      have hrest := fun {later later'} => @ih later later' hnames fun parameter hmem =>
        hfree parameter (List.mem_cons_of_mem _ hmem)
      cases hfirst with
      | @intro isRef written written' name _ htype =>
          cases hname
          rw [Lower.parameterVariables, Lower.parameterVariables]
          cases name with
          | none => exact hrest h
          | some name =>
              refine (type hfits htype h).bind fun type type' one one' hone _ _ htype => ?_
              have hfree : ¬edit.reserved name.text := hfree _ List.mem_cons_self name rfl
              refine (declareVariable hone hfree false htype).bind fun _ _ two two' htwo _ _ _ => ?_
              exact hrest htwo

theorem body {function function' : FunctionId × FunctionTree}
    (hfunction : Lower.SameFunction edit function function') (h : state.Beside edit state' base) :
    Alongside edit base (Lower.body source function.1 function.2)
      (Lower.body source' function'.1 function'.2) Same state state' := by
  obtain ⟨id, declared⟩ := function
  obtain ⟨id', declared'⟩ := function'
  obtain ⟨hid, hdeclared⟩ := hfunction
  cases hid
  have hbody := hdeclared.body
  rw [body_eq, body_eq]
  dsimp only at hbody ⊢
  generalize declared.body = written at hbody ⊢
  generalize declared'.body = written' at hbody ⊢
  cases hbody with
  | none => exact addBody h ⟨id, none⟩
  | some hblock =>
      refine (inScope h fun inner inner' hinner _ _ =>
        (parameterVariables hfits hdeclared.parameters hdeclared.names hdeclared.freeNames hinner).bind
          fun _ _ later later' hlater _ _ _ =>
            statements (fun one _ _ _ _ hone => statement hfits hone) hblock.2 hlater).bind
        fun flows _ later later' hlater _ _ hflows => ?_
      cases hflows
      exact addBody hlater ⟨id, some flows⟩

theorem bodies {functions functions' : List (FunctionId × FunctionTree)}
    (hfunctions : List.Forall₂ (Lower.SameFunction edit) functions functions')
    (h : state.Beside edit state' base) :
    Alongside edit base (Lower.bodies source functions) (Lower.bodies source' functions') Same state
      state' := by
  induction hfunctions generalizing state state' with
  | nil => exact pure h rfl
  | cons hfirst _ ih =>
      exact (body hfits hfirst h).bind fun _ _ _ _ hlater _ _ _ => ih hlater

theorem functionEntry {declared declared' : FunctionTree} (hedited : declared.Edited edit declared')
    (h : state.Beside edit state' base) :
    Alongside edit base (Lower.functionEntry declared) (Lower.functionEntry declared') Same state
      state' := by
  have hsignature : Alongside edit base
      (Lower.signature declared.result declared.parameters declared.promises)
      (Lower.signature declared'.result declared'.parameters declared'.promises)
      (fun types types' => Signature.Akin edit.promises (TypeTable.Akin edit.promises types types'))
      state state' := by
    refine (type hfits hedited.result h).bind fun result result' one one' hone _ _ hresult => ?_
    refine (parameterTypes (fun _ _ _ _ _ hlater htype => type hfits htype hlater)
      hedited.parameters hone).bind fun types types' two two' htwo hgrows hgrows' htypes => ?_
    exact pure htwo ⟨htypes, hone.program.keeps hgrows hgrows' _ _ hresult, hedited.promises⟩
  refine hsignature.bind fun signature signature' one one' hone _ _ hsignature => ?_
  refine (internType hone (.Function hsignature)).bind fun type type' two two' htwo _ _ htype => ?_
  rw [← hedited.name]
  refine (symbol htwo _).bind fun name _ three three' hthree hgrows hgrows' hname => ?_
  cases hname
  have htype := htwo.program.keeps hgrows hgrows' _ _ htype
  refine (addFunction hthree ⟨htype⟩).bind fun id _ four four' hfour _ _ hid => ?_
  cases hid
  exact (define hfour hedited.free .Function).bind fun _ _ _ _ hlater _ _ _ => pure hlater rfl

theorem globalVariable {declared declared' : VariableTree} (hedited : declared.Edited edit declared')
    (h : state.Beside edit state' base) :
    Alongside edit base (Lower.globalVariable source declared) (Lower.globalVariable source' declared')
      Same state state' := by
  refine (type hfits hedited.type h).bind fun type type' one one' hone _ _ htype => ?_
  rw [← hedited.name]
  refine (declareVariable hone hedited.free true htype).bind fun id _ two two' htwo _ _ hid => ?_
  cases hid
  refine (expr? hfits hedited.value htwo).bind fun value _ three three' hthree _ _ hvalue => ?_
  cases hvalue
  exact addGlobal hthree ⟨id, value⟩

theorem functionsAndGlobals {targets : TypeTree → TypeTree → Prop} {items items' : List Item}
    (hedited : List.Forall₂ (Item.Edited edit targets) items items') (h : state.Beside edit state' base) :
    Alongside edit base (Lower.functionsAndGlobals source items)
      (Lower.functionsAndGlobals source' items')
      (fun _ _ => List.Forall₂ (Lower.SameFunction edit)) state state' := by
  induction hedited generalizing state state' with
  | nil => exact pure h .nil
  | @cons first first' rest rest' hfirst _ ih =>
      have hone : Alongside edit base (Lower.functionOrGlobal source first)
          (Lower.functionOrGlobal source' first') (fun _ _ => List.Forall₂ (Lower.SameFunction edit))
          state state' := by
        cases hfirst with
        | Import | Class | Alias => exact pure h .nil
        | Function hdeclared =>
            refine (functionEntry hfits hdeclared h).bind fun id _ later later' hlater _ _ hid => ?_
            cases hid
            exact pure hlater (.cons ⟨rfl, hdeclared⟩ .nil)
        | Global hdeclared =>
            exact (globalVariable hfits hdeclared h).bind fun _ _ _ _ hlater _ _ _ => pure hlater .nil
      exact hone.bind fun _ _ _ _ hlater _ _ hfirst =>
        (ih hlater).bind fun _ _ _ _ hall _ _ hrest => pure hall (List.rel_append hfirst hrest)

-- What comes behind the aliases of a module.
theorem functions {targets : TypeTree → TypeTree → Prop} {items items' : List Item}
    (hedited : List.Forall₂ (Item.Edited edit targets) items items') (h : state.Beside edit state' base) :
    Alongside edit base (Lower.functionsAndGlobals source items >>= Lower.bodies source)
      (Lower.functionsAndGlobals source' items' >>= Lower.bodies source') Same state state' :=
  (functionsAndGlobals hfits hedited h).bind fun _ _ _ _ hlater _ _ hfunctions =>
    bodies hfits hfunctions hlater

end Statements

theorem forM {step step' : Item → Lower Unit} {items items' : List Item}
    {related : Item → Item → Prop} (hitems : List.Forall₂ related items items')
    (hstep : ∀ item item' state state', related item item' → state.Beside edit state' base →
      Alongside edit base (step item) (step' item') Same state state')
    (h : state.Beside edit state' base) :
    Alongside edit base (items.forM step) (items'.forM step') Same state state' := by
  induction hitems generalizing state state' with
  | nil => exact pure h rfl
  | cons hfirst _ ih =>
      rw [List.forM_eq_forM, List.forM_cons, List.forM_cons]
      exact (hstep _ _ _ _ hfirst h).bind fun _ _ _ _ hlater _ _ _ => ih hlater

-- Where no name is reserved, the targets of aliases may be edited as well.
section Unreserved

variable (hnone : ∀ name, ¬edit.reserved name)
include hnone

theorem importOrClass {targets : TypeTree → TypeTree → Prop} {item item' : Item}
    (hedited : item.Edited edit targets item') (h : state.Beside edit state' base) :
    Alongside edit base (Lower.importOrClass item) (Lower.importOrClass item') Same state state' := by
  cases hedited with
  | @Import name hfree =>
      refine (symbol h name.text).bind fun symbol _ one one' hone _ _ hsymbol => ?_
      cases hsymbol
      refine (addModule hone ⟨symbol, name.span⟩).bind fun id _ two two' htwo _ _ hid => ?_
      cases hid
      exact define htwo hfree .Module
  | @Class name =>
      refine (symbol h name.text).bind fun symbol _ one one' hone _ _ hsymbol => ?_
      cases hsymbol
      refine (internType hone (.Class symbol)).bind fun id id' two two' htwo _ _ hid => ?_
      exact define htwo (hnone name.text) (.Type hid)
  | _ => exact pure h rfl

theorem typeAlias (hfits : edit.Fits base) {item item' : Item}
    (hedited : item.Edited edit (TypeTree.Edited edit) item') (h : state.Beside edit state' base) :
    Alongside edit base (Lower.typeAlias item) (Lower.typeAlias item') Same state state' := by
  cases hedited with
  | @Alias name _ _ htarget =>
      refine (type hfits htarget h).bind fun target target' one one' hone _ _ htarget => ?_
      refine (symbol hone name.text).bind fun symbol _ two two' htwo hgrows hgrows' hsymbol => ?_
      cases hsymbol
      have htarget := hone.program.keeps hgrows hgrows' _ _ htarget
      refine (internAlias htwo symbol htarget).bind fun id id' three three' hthree _ _ hid => ?_
      exact define hthree (hnone name.text) (.Type hid)
  | _ => exact pure h rfl

theorem module (hfits : edit.Fits base) {items items' : List Item}
    (hedited : List.Forall₂ (Item.Edited edit (TypeTree.Edited edit)) items items')
    (h : state.Beside edit state' base) :
    Alongside edit base (Lower.module source items) (Lower.module source' items') Same state state' := by
  refine (forM hedited (fun _ _ _ _ hitem => importOrClass hnone hitem) h).bind
    fun _ _ one one' hone _ _ _ => ?_
  refine (forM hedited (fun _ _ _ _ hitem => typeAlias hnone hfits hitem) hone).bind
    fun _ _ two two' htwo _ _ _ => ?_
  exact functions hfits hedited htwo

end Unreserved

end Lower.Alongside

end EffectLint
