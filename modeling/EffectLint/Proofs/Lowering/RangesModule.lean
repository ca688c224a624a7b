import EffectLint.Proofs.Lowering.Module
import EffectLint.Proofs.Lowering.Ranges
import EffectLint.Proofs.Lowering.Roots

/-!
The ranges in a lowered module are those of its tree, and those that reach from one to another.
-/

namespace EffectLint

-- The parts of a declaration of a variable.
theorem Phrase.Ranged.variable {good : Span → Prop} {declared : VariableTree}
    (h : (Phrase.Variable declared).Ranged good) :
    (Phrase.Type declared.type).Ranged good ∧ good declared.name.span ∧
      ∀ one ∈ declared.value, (Phrase.Expr one).Ranged good := by
  refine ⟨h.inner List.mem_cons_self, (h.inner (List.mem_cons_of_mem _ List.mem_cons_self)).here rfl, ?_⟩
  intro one hone
  refine h.inner (List.mem_cons_of_mem _ (List.mem_cons_of_mem _ (List.mem_map_of_mem ?_)))
  exact Option.mem_toList.mpr hone

namespace Lower.Ranges

variable {good : Span → Prop} {source source' : List Char}

section Items

theorem addModule (entry : ModuleEntry) :
    Ranges good source source' (addModule entry) (addModule entry) :=
  fun _ hstate => .still hstate rfl rfl

theorem addFunction (entry : FunctionEntry) :
    Ranges good source source' (addFunction entry) (addFunction entry) :=
  fun _ hstate => .still hstate rfl rfl

theorem addGlobal (value : GlobalValue) :
    Ranges good source source' (addGlobal value) (addGlobal value) :=
  fun _ hstate => .still hstate rfl rfl

theorem addBody (body : FunctionBody) :
    Ranges good source source' (addBody body) (addBody body) :=
  fun _ hstate => .still hstate rfl rfl

theorem importOrClass {item : Item} (h : (Phrase.Item item).Ranged good) :
    Ranges good source source' (importOrClass item) (importOrClass item) := by
  cases item with
  | Import name =>
      have hname : good name.span := (h.inner List.mem_cons_self).here rfl
      exact (symbol _).bind fun _ => (addModule _).bind fun _ => define hname _
  | Class name =>
      have hname : good name.span := (h.inner List.mem_cons_self).here rfl
      exact (symbol _).bind fun _ => (internType _).bind fun _ => define hname _
  | _ => exact pure _

theorem typeAlias {item : Item} (h : (Phrase.Item item).Ranged good) :
    Ranges good source source' (typeAlias item) (typeAlias item) := by
  cases item with
  | Alias name target =>
      have hname : good name.span := (h.inner List.mem_cons_self).here rfl
      exact (type (h.inner (List.mem_cons_of_mem _ List.mem_cons_self))).bind fun _ =>
        (symbol _).bind fun _ => (internType _).bind fun _ => define hname _
  | _ => exact pure _

theorem forM {α : Type} {step step' : α → Lower Unit} {items : List α}
    (hstep : ∀ item ∈ items, Ranges good source source' (step item) (step' item)) :
    Ranges good source source' (items.forM step) (items.forM step') := by
  induction items with
  | nil => exact pure _
  | cons first rest ih =>
      rw [List.forM_eq_forM, List.forM_cons, List.forM_cons]
      exact (hstep first List.mem_cons_self).bind fun _ =>
        ih fun item hmem => hstep item (List.mem_cons_of_mem _ hmem)

theorem parameterVariables {parameters : List (Parameter TypeTree)}
    (h : ∀ parameter ∈ parameters, (Phrase.Parameter parameter).Ranged good) :
    Ranges good source source' (parameterVariables parameters) (parameterVariables parameters) := by
  induction parameters with
  | nil => exact pure _
  | cons first rest ih =>
      obtain ⟨hfirst, hrest⟩ := List.forall_mem_cons.mp h
      rw [Lower.parameterVariables]
      cases hname : first.name with
      | none => exact ih hrest
      | some name =>
          have hpart : Phrase.Name name ∈ (Phrase.Parameter first).inner := by
            simp [Phrase.inner, hname]
          have hspan : good name.span := (hfirst.inner hpart).here rfl
          exact (type (hfirst.inner List.mem_cons_self)).bind fun _ =>
            (declareVariable hspan _ false).bind fun _ => ih hrest

theorem functionEntry {declared : FunctionTree}
    (h : (Phrase.Item (.Function declared)).Ranged good) :
    Ranges good source source' (functionEntry declared) (functionEntry declared) := by
  have hname : good declared.name.span :=
    (h.inner (List.mem_cons_of_mem _ List.mem_cons_self)).here rfl
  have hparameters : Ranges good source source' (Lower.parameterTypes declared.parameters)
      (Lower.parameterTypes declared.parameters) := by
    refine parameterTypes fun parameter hmem => type ?_
    have hpart : Phrase.Parameter parameter ∈ (Phrase.Item (.Function declared)).inner :=
      List.mem_cons_of_mem _ (List.mem_cons_of_mem _
        (List.mem_append_left _ (List.mem_map_of_mem hmem)))
    exact (h.inner hpart).inner List.mem_cons_self
  have hsignature : Ranges good source source'
      (signature declared.result declared.parameters declared.promises)
      (signature declared.result declared.parameters declared.promises) :=
    (type (h.inner List.mem_cons_self)).bind fun _ => hparameters.bind fun _ => pure _
  exact hsignature.bind fun _ => (internType _).bind fun _ => (symbol _).bind fun _ =>
    (addFunction _).bind fun _ => (define hname _).bind fun _ => pure _

end Items

section Written

variable (hcover : ∀ left right, good left → good right → good (left.cover right))

include hcover

theorem expr? {written : Option Expr} (h : ∀ one ∈ written, (Phrase.Expr one).Ranged good) :
    Ranges good source source' (expr? source written) (expr? source' written) := by
  cases written with
  | none => exact pure _
  | some one =>
      rw [Lower.expr?, Lower.expr?, map_eq_pure_bind, map_eq_pure_bind]
      exact (expr hcover (h one rfl)).bind fun _ => pure _

theorem localVariable {declared : VariableTree} (h : (Phrase.Variable declared).Ranged good) :
    Ranges good source source' (localVariable source declared) (localVariable source' declared) := by
  obtain ⟨htype, hname, hvalue⟩ := h.variable
  exact (type htype).bind fun _ => (expr? hcover hvalue).bind fun _ =>
    (declareVariable hname _ false).bind fun _ _ hstate =>
    .declareNode hstate (h.here rfl) hcover _ hname _

theorem globalVariable {declared : VariableTree} (h : (Phrase.Variable declared).Ranged good) :
    Ranges good source source' (globalVariable source declared) (globalVariable source' declared) := by
  obtain ⟨htype, hname, hvalue⟩ := h.variable
  exact (type htype).bind fun _ => (declareVariable hname _ true).bind fun _ =>
    (expr? hcover hvalue).bind fun _ => addGlobal _

omit hcover in
theorem statements {written : List Statement}
    (hwritten : ∀ one ∈ written, Ranges good source source' (statement source one) (statement source' one)) :
    Ranges good source source' (statements source written) (statements source' written) := by
  induction written with
  | nil =>
      rw [Lower.statements, Lower.statements]
      exact pure _
  | cons first rest ih =>
      rw [Lower.statements, Lower.statements]
      have hrest := ih fun one hmem => hwritten one (List.mem_cons_of_mem _ hmem)
      exact (hwritten first List.mem_cons_self).bind fun _ => hrest.bind fun _ => pure _

theorem statement {written : Statement} (h : (Phrase.Statement written).Ranged good) :
    Ranges good source source' (statement source written) (statement source' written) := by
  induction written with
  | Evaluate value =>
      rw [Lower.statement, Lower.statement]
      exact (expr hcover (h.inner List.mem_cons_self)).bind fun _ => pure _
  | Local declared =>
      rw [Lower.statement, Lower.statement]
      exact (localVariable hcover (h.inner List.mem_cons_self)).bind fun _ => pure _
  | Return span value =>
      rw [Lower.statement, Lower.statement]
      refine (expr? hcover fun one hone => h.inner ?_).bind fun _ => pure _
      exact List.mem_map_of_mem (Option.mem_toList.mpr hone)
  | If condition yes no ihyes ihno =>
      have hyes := ihyes (h.inner (List.mem_cons_of_mem _ List.mem_cons_self))
      have hno : Ranges good source source' (otherwise? source no) (otherwise? source' no) := by
        cases no with
        | none => exact pure _
        | some other =>
            have hother := ihno other rfl (h.inner (List.mem_cons_of_mem _
              (List.mem_cons_of_mem _ List.mem_cons_self)))
            exact (inScope hother).bind fun _ => pure _
      rw [statement_If_eq, statement_If_eq]
      exact (expr hcover (h.inner List.mem_cons_self)).bind fun _ => (inScope hyes).bind fun _ =>
        hno.bind fun _ => pure _
  | While condition body ih =>
      rw [Lower.statement, Lower.statement]
      exact (expr hcover (h.inner List.mem_cons_self)).bind fun _ =>
        (inScope (ih (h.inner (List.mem_cons_of_mem _ List.mem_cons_self)))).bind fun _ => pure _
  | For first condition step body ihfirst ihbody =>
      have hfirst : Ranges good source source' (first? source first) (first? source' first) := by
        cases first with
        | none => exact pure _
        | some one => exact ihfirst one rfl (h.inner List.mem_cons_self)
      have hpart : ∀ {value : Option Expr}, (∀ one ∈ value, .Expr one ∈
          (Phrase.Statement (.For first condition step body)).inner) →
          Ranges good source source' (Lower.expr? source value) (Lower.expr? source' value) :=
        fun hvalue => expr? hcover fun one hone => h.inner (hvalue one hone)
      have hbody : Ranges good source source' (Lower.statement source body)
          (Lower.statement source' body) := ihbody (h.inner (by
        simp [Phrase.inner, Phrase.innerOfStatement]))
      rw [statement_For_eq, statement_For_eq]
      refine inScope (hfirst.bind fun _ => (hpart fun one hone => ?_).bind fun _ =>
        (hpart fun one hone => ?_).bind fun _ => (inScope hbody).bind fun _ => pure _)
      · obtain rfl := hone
        simp [Phrase.inner, Phrase.innerOfStatement]
      · obtain rfl := hone
        simp [Phrase.inner, Phrase.innerOfStatement]
  | Block span written ih =>
      rw [Lower.statement, Lower.statement]
      refine (inScope (statements fun one hmem => ih one hmem ?_)).bind fun _ => pure _
      exact (h.inner List.mem_cons_self).inner (List.mem_map_of_mem hmem)
  | Empty span =>
      rw [Lower.statement, Lower.statement]
      exact pure _

theorem body {function : FunctionId} {declared : FunctionTree}
    (h : (Phrase.Item (.Function declared)).Ranged good) :
    Ranges good source source' (body source function declared) (body source' function declared) := by
  have hparameters : ∀ parameter ∈ declared.parameters, (Phrase.Parameter parameter).Ranged good :=
    fun parameter hmem => h.inner (List.mem_cons_of_mem _ (List.mem_cons_of_mem _
      (List.mem_append_left _ (List.mem_map_of_mem hmem))))
  rw [body_eq, body_eq]
  cases hbody : declared.body with
  | none => exact addBody _
  | some written =>
      have hwritten : (Phrase.Block written).Ranged good := h.inner (by
        simp [Phrase.inner, Phrase.innerOfItem, hbody])
      have hblock : Ranges good source source' (block source declared.parameters written.statements)
          (block source' declared.parameters written.statements) :=
        (parameterVariables hparameters).bind fun _ => statements fun one hmem =>
          statement hcover (hwritten.inner (List.mem_map_of_mem hmem))
      exact (inScope hblock).bind fun _ => addBody _

theorem functionsAndGlobals {items : List Item} (h : ∀ item ∈ items, (Phrase.Item item).Ranged good) :
    Ranges good source source' (functionsAndGlobals source items)
      (functionsAndGlobals source' items) := by
  induction items with
  | nil => exact pure _
  | cons first rest ih =>
      obtain ⟨hfirst, hrest⟩ := List.forall_mem_cons.mp h
      have hone : Ranges good source source' (functionOrGlobal source first)
          (functionOrGlobal source' first) := by
        cases first with
        | Function declared => exact (functionEntry hfirst).bind fun _ => pure _
        | Global declared =>
            exact (globalVariable hcover (hfirst.inner List.mem_cons_self)).bind fun _ => pure _
        | _ => exact pure _
      exact hone.bind fun _ => (ih hrest).bind fun _ => pure _

theorem module {items : List Item} (h : (Phrase.Module items).Ranged good) :
    Ranges good source source' (Lower.module source items) (Lower.module source' items) := by
  have hitems : ∀ item ∈ items, (Phrase.Item item).Ranged good := fun item hmem =>
    h.inner (List.mem_map_of_mem hmem)
  refine (forM fun item hmem => importOrClass (hitems item hmem)).bind fun _ =>
    (forM fun item hmem => typeAlias (hitems item hmem)).bind fun _ state hstate =>
    (functionsAndGlobals hcover hitems state hstate).andThen fun hlater =>
    forM (fun function hmem => body hcover (hitems _ ?_)) _ hlater
  exact functions_written items state function hmem

end Written

end Lower.Ranges

-- What holds of the ranges of a tree and of what was said before holds of a lowered module and of
-- what is said by then, and the source is looked at only where a node stands.
theorem lower_ranged {good : Span → Prop}
    (hcover : ∀ left right, good left → good right → good (left.cover right)) (source : List Char)
    {items : List Item} (hitems : (Phrase.Module items).Ranged good) {reporter : Reporter}
    (hsaid : ∀ diagnostic ∈ reporter.diagnostics, ∀ span ∈ diagnostic.spans, good span) :
    (lower source items reporter).Ranged good ∧
      ∀ source', (lower source items reporter).program.Quotes source source' →
        lower source' items reporter = lower source items reporter := by
  have hstart : (LoweringState.start reporter).Ranged good :=
    ⟨fun _ hmem => absurd hmem (Array.not_mem_empty _), hsaid⟩
  have hmodule : ∀ source', Lower.RangedAt good source source' (Lower.module source items)
      (Lower.module source' items) (.start reporter) := fun _ =>
    Lower.Ranges.module hcover hitems _ hstart
  exact ⟨(hmodule source).ranged, fun source' hquotes =>
    congrArg Prod.snd ((hmodule source').alike hquotes)⟩

end EffectLint
