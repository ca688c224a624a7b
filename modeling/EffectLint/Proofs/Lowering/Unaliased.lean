import EffectLint.Proofs.Grammar.Written
import EffectLint.Proofs.Lowering.ModuleAlongside
import EffectLint.Proofs.Lowering.Roots
import EffectLint.Proofs.Lowering.Settled

/-!
Names of aliases that are replaced by what they stand for. Behind the aliases of a module such a name
and the target that is written in its place come to akin types, wherever they stand.
-/

namespace EffectLint

-- The name of an alias is replaced by its target, wherever that stands in the source. Nothing but a
-- class or an alias has the name of one.
def Edit.unaliasing (items : List Item) : Edit where
  promises := Eq
  replaces name written := ∃ defined target, .Alias defined target ∈ items ∧ defined.text = name ∧
    written.bare = target.bare
  reserved := NamesType items

namespace TypeTree

theorem related_of_bare {related : TypeTree → TypeTree → Prop}
    {parameters parameters' : List (Parameter TypeTree)}
    (htypes : ∀ parameter ∈ parameters, ∀ written', parameter.type.bare = bare written' →
      related parameter.type written')
    (hbare : bareParameters parameters = bareParameters parameters') :
    List.Forall₂ (Parameter.Related related) parameters parameters' := by
  induction parameters generalizing parameters' with
  | nil =>
      cases parameters' with
      | nil => exact .nil
      | cons first rest => simp only [bareParameters, reduceCtorEq] at hbare
  | cons first rest ih =>
      cases parameters' with
      | nil => simp only [bareParameters, reduceCtorEq] at hbare
      | cons first' rest' =>
          obtain ⟨isRef, written, name⟩ := first
          obtain ⟨isRef', written', name'⟩ := first'
          simp only [bareParameters, List.cons.injEq, Parameter.mk.injEq] at hbare
          obtain ⟨⟨rfl, hfirst, -⟩, hrest⟩ := hbare
          refine .cons ⟨htypes _ List.mem_cons_self _ hfirst⟩ (ih (fun parameter hmem => ?_) hrest)
          exact htypes parameter (List.mem_cons_of_mem _ hmem)

-- The same type at another place in the source.
theorem edited_of_bare {edit : Edit} (hpromises : ∀ promises, edit.promises promises promises)
    {written written' : TypeTree} (hnames : ∀ name ∈ written.mentioned, edit.reserved name.text)
    (hbare : written.bare = written'.bare) : written.Edited edit written' := by
  induction written generalizing written' with
  | Basic span type =>
      cases written' <;> simp only [bare] at hbare <;> cases hbare
      exact .Basic
  | Named span name =>
      cases written' <;> simp only [bare, TypeTree.Named.injEq, Name.mk.injEq, reduceCtorEq] at hbare
      next span' name' =>
        obtain ⟨text, place⟩ := name
        obtain ⟨text', place'⟩ := name'
        obtain ⟨-, rfl, -⟩ := hbare
        exact .Reserved (hnames _ List.mem_cons_self)
  | Pointer span target ih =>
      cases written' <;> simp only [bare, TypeTree.Pointer.injEq, reduceCtorEq] at hbare
      exact .Pointer (ih hnames hbare.2)
  | Array span element ih =>
      cases written' <;> simp only [bare, TypeTree.Array.injEq, reduceCtorEq] at hbare
      exact .Array (ih hnames hbare.2)
  | AssocArray span value key ihvalue ihkey =>
      cases written' <;> simp only [bare, TypeTree.AssocArray.injEq, reduceCtorEq] at hbare
      rw [mentioned, List.forall_mem_append] at hnames
      exact .AssocArray (ihvalue hnames.1 hbare.2.1) (ihkey hnames.2 hbare.2.2)
  | Callable span isDelegate promises result parameters ihresult ihparameters =>
      cases written' <;> simp only [bare, TypeTree.Callable.injEq, reduceCtorEq] at hbare
      obtain ⟨-, rfl, rfl, hresult, hparameters⟩ := hbare
      rw [mentioned, List.forall_mem_append] at hnames
      refine .Callable (hpromises promises) (ihresult hnames.1 hresult) ?_
      refine related_of_bare (fun parameter hmem written' htype => ?_) hparameters
      exact ihparameters parameter hmem
        (fun name hname => hnames.2 name (mem_mentionedIn.mpr ⟨parameter, hmem, hname⟩)) htype
  | Error span =>
      cases written' <;> simp only [bare] at hbare <;> cases hbare
      exact .Error

end TypeTree

namespace LoweringState.Declares

variable {items : List Item} {base state : LoweringState}

-- At module level a name is looked up in one scope.
theorem bound (h : base.Declares items) {name : String} {binding : Binding}
    (hname : base.binding? name = some binding) : ∃ symbol,
      base.program.names.get? symbol = some name ∧ base.scopes.module.lookup symbol = some binding := by
  obtain ⟨symbol, hsymbol, hlookup⟩ := Option.bind_eq_some_iff.mp hname
  rw [Scopes.lookup, h.atModule.outer] at hlookup
  exact ⟨symbol, NameTable.get?_of_find? hsymbol, hlookup⟩

theorem reserved (h : base.Declares items) {name : String} {id : TypeId}
    (hname : base.binding? name = some (.Type id)) : NamesType items name := by
  obtain ⟨symbol, hsymbol, hmodule⟩ := h.bound hname
  have hlookup : base.scopes.lookup symbol = some (.Type id) := by
    rw [Scopes.lookup, h.atModule.outer]
    exact hmodule
  obtain ⟨other, hother, hknown⟩ := h.atModule.named symbol id (Scopes.holds_of_lookup hlookup)
  exact Option.some.inj (hsymbol.symm.trans hother) ▸ hknown

theorem over_of_holds (h : base.Declares items) (hholds : state.Holds (NamesType items) base) :
    state.Over base where
  types := hholds.types
  named name id hname := by
    obtain ⟨symbol, hsymbol, hmodule⟩ := h.bound hname
    exact hholds.binding?_eq (h.reserved hname) hsymbol hmodule

theorem exists_type (h : base.Declares items) {name : String} (hname : NamesType items name) :
    ∃ id, base.binding? name = some (.Type id) := by
  obtain ⟨defined, hnamed, rfl⟩ := hname
  obtain ⟨item, hmem, hdefined⟩ := List.mem_filterMap.mp hnamed
  cases item with
  | Class => exact h.classes _ (Option.some.inj hdefined ▸ hmem)
  | Alias name target =>
      cases hdefined
      obtain ⟨id, _, _, hid, _⟩ := h.aliases defined target hmem
      exact ⟨id, hid⟩
  | _ => cases hdefined

-- Wherever it stands, what takes the place of an alias comes to the same.
theorem fits (h : base.Declares items) : (Edit.unaliasing items).Fits base := by
  have hbound : ∀ name, NamesType items name → ∃ symbol id,
      base.program.names.get? symbol = some name ∧ base.scopes.module.lookup symbol = some (.Type id) := by
    intro name hname
    obtain ⟨id, hid⟩ := h.exists_type hname
    obtain ⟨symbol, hsymbol, hmodule⟩ := h.bound hid
    exact ⟨symbol, id, hsymbol, hmodule⟩
  -- the same without replacements, for the target itself has none
  let plain : Edit := { Edit.unaliasing items with replaces := fun _ _ => False }
  have hplain : plain.Fits base := ⟨hbound, fun _ _ _ hreplaces => hreplaces.elim⟩
  refine ⟨hbound, ?_⟩
  rintro span name written ⟨defined, target, hmem, hname, hbare⟩ state state' hbeside
  obtain ⟨id, symbol, type, hid, hshape, hsettled⟩ := h.aliases defined target hmem
  have hover : state.Over base := h.over_of_holds hbeside.holds
  have hnamed : Lower.type (.Named span name) state = (id, state) :=
    Lower.type_of_binding (hover.named _ _ (hname ▸ hid))
  have htarget : Lower.type target state = (type, state) := hsettled.again state hover
  have hedited : target.Edited plain written := by
    refine TypeTree.edited_of_bare (fun _ => rfl) (fun mentioned hmentioned => ?_) hbare.symm
    obtain ⟨other, hother⟩ := hsettled.bound mentioned hmentioned
    exact h.reserved hother
  have halong : Lower.Alongside plain base (Lower.type target) (Lower.type written)
      (TypeTable.Akin Eq) state state' :=
    .type hplain hedited ⟨hbeside.program, hbeside.scopes, hbeside.reporter, hbeside.holds⟩
  obtain ⟨hafter, -, hkeeps, hakin⟩ := halong
  rw [htarget] at hafter hakin
  refine ⟨?_, ?_, hkeeps, ?_⟩
  all_goals rw [hnamed]
  · exact ⟨hafter.program, hafter.scopes, hafter.reporter, hafter.holds⟩
  · exact .refl _
  · exact .of_alias hafter.program.closed (hover.types _ _ hshape) hakin hsettled.proper.2
      hsettled.proper.1

end LoweringState.Declares

section

variable {items items' : List Item} {reporter : Reporter}

theorem behindAliases_sound : (behindAliases items reporter).Sound := by
  have hclasses : Lower.RunsAt (items.forM Lower.importOrClass) (fun _ _ => True) (.start reporter) :=
    .forM items (fun item _ _ h => Lower.importOrClass_runs h item) Program.sound_empty
  exact (Lower.RunsAt.forM items (fun item _ _ h => Lower.typeAlias_runs h item) hclasses.sound).sound

theorem behindAliases_nodes : (behindAliases items reporter).program.arena.nodes = #[] := by
  have hclasses := Lower.Nodeless.forM Lower.importOrClass_nodeless items (.start reporter)
  have haliases := Lower.Nodeless.forM Lower.typeAlias_nodeless items
    (items.forM Lower.importOrClass (.start reporter)).2
  exact congrArg Arena.nodes (haliases.trans hclasses)

-- Up to the aliases nothing has changed.
theorem behindAliases_eq {edit : Edit} (hedited : List.Forall₂ (Item.Edited edit Eq) items items') :
    behindAliases items' reporter = behindAliases items reporter := by
  have hsteps : ∀ step : Item → Lower Unit, (∀ item item', item.Edited edit Eq item' → step item' = step item) →
      items'.forM step = items.forM step := by
    intro step hstep
    induction hedited with
    | nil => rfl
    | cons hfirst _ ih =>
        rw [List.forM_eq_forM] at ih ⊢
        rw [List.forM_cons, List.forM_cons, hstep _ _ hfirst, ih]
  rw [behindAliases, behindAliases, hsteps Lower.importOrClass, hsteps Lower.typeAlias]
  · rintro _ _ (_ | _ | rfl | _ | _) <;> rfl
  · rintro _ _ (_ | _ | rfl | _ | _) <;> rfl

theorem lower_eq_behindAliases (source : List Char) (items : List Item) (reporter : Reporter) :
    lower source items reporter = ((Lower.functionsAndGlobals source items >>= Lower.bodies source)
      (behindAliases items reporter)).2 :=
  rfl

-- Lowering a module without some of the names of its aliases.
theorem unaliased_beside {source source' : List Char}
    (hedited : List.Forall₂ (Item.Edited (.unaliasing items) Eq) items items')
    (hwritten : ∀ name target, .Alias name target ∈ items → target.NoError)
    (hclear : (lower source items reporter).Clear) :
    (lower source items reporter).Beside (.unaliasing items) (lower source' items' reporter)
      (behindAliases items reporter) := by
  have hrest : Lower.RunsAt (Lower.functionsAndGlobals source items >>= Lower.bodies source)
      (fun _ _ => True) (behindAliases items reporter) :=
    (Lower.functionsAndGlobals_runs source items behindAliases_sound).bind fun functions _ _ hlater _ =>
      Lower.bodies_run source functions hlater
  have hdeclares := behindAliases_declares hwritten
    (LoweringState.clear_of_said hrest.after.said hclear)
  have hbeside : (behindAliases items reporter).Beside (.unaliasing items) (behindAliases items reporter)
      (behindAliases items reporter) :=
    LoweringState.Sound.beside behindAliases_sound (fun _ => rfl) behindAliases_nodes
      hdeclares.atModule.outer
  have hfunctions : Lower.Alongside (.unaliasing items) _
      (Lower.functionsAndGlobals source items >>= Lower.bodies source)
      (Lower.functionsAndGlobals source' items' >>= Lower.bodies source') Lower.Same _ _ :=
    .functions hdeclares.fits hedited hbeside
  rw [lower_eq_behindAliases, lower_eq_behindAliases, behindAliases_eq hedited]
  exact hfunctions.beside

end

end EffectLint
