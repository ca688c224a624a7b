import EffectLint.Proofs.Program.Typed
import EffectLint.Proofs.Scoping.Agreement

/-!
The types of what is lowered in silence. Where all names that are known have types and nothing takes
its type from a module, all that is made is typed, and the names that are declared have types as well.
-/

namespace EffectLint

namespace Program.Extends

variable {large small : Program}

theorem variableType_eq (h : large.Extends small) {id : VariableId} {entry : VariableEntry}
    (hentry : small.declared[id.index]? = some entry) :
    large.variableType id = entry.type ∧ small.variableType id = entry.type := by
  rw [variableType, variableType, h.declared _ _ hentry, hentry]
  exact ⟨rfl, rfl⟩

end Program.Extends

namespace Lower

theorem HasNode.type?_eq {large small : Program} (hextends : large.Extends small) {id : NodeId}
    (h : HasNode small id) : large.arena.type? id = small.arena.type? id := by
  have hnode : small.arena.node? id = _ := Array.getElem?_eq_getElem h
  obtain ⟨hlarge, hsmall⟩ := hextends.node_eq hnode
  rw [Arena.type?, Arena.type?, hlarge, hsmall]

-- A name that is defined, or that was before, has a type if what it is defined as does.
theorem define_scopes {later : Program} {state : LoweringState} {name : Name} {binding : Binding}
    (hbinding : later.BindsTyped binding) (hscopes : later.ScopesTyped state.scopes) :
    later.ScopesTyped (define name binding state).2.scopes := by
  rw [define_apply]
  split
  · exact hscopes
  · exact hscopes.define hbinding

theorem node?_leaf {later : Program} {state : LoweringState} {kind : NodeKind} {type : TypeId}
    {span : Span} (hlater : later.Extends (leaf kind type span state).2.program) :
    later.arena.node? (leaf kind type span state).1 = some ⟨kind, some type, span⟩ :=
  hlater.nodes _ _ Array.getElem?_push_size

-- A computation whose answer is typed if it ends in silence, and that leaves all names with types
-- that have them before, as long as `fine` holds. What has a type is seen in the later program.
structure TypesAt {α : Type} (later : Program) (fine : Prop) (body : Lower α)
    (good : Program → α → Prop) (typed : α → Prop) (state : LoweringState) : Prop
    extends RunsAt body good state where
  types : fine → (body state).2.Silent → later.Extends (body state).2.program →
    later.ScopesTyped state.scopes →
    typed (body state).1 ∧ later.ScopesTyped (body state).2.scopes

namespace TypesAt

variable {α β : Type} {later : Program} {fine : Prop} {good : Program → α → Prop}
  {good' : Program → β → Prop} {typed : α → Prop} {typed' : β → Prop} {state : LoweringState}

theorem pure (hsound : state.Sound) {answer : α} (hgood : good state.program answer)
    (htyped : fine → typed answer) : TypesAt later fine (Pure.pure answer) good typed state :=
  ⟨.pure hsound hgood, fun hfine _ _ hscopes => ⟨htyped hfine, hscopes⟩⟩

theorem bind {first : Lower α} {next : α → Lower β}
    (hfirst : TypesAt later fine first good typed state)
    (hnext : ∀ answer state', state'.From state → state'.Sound → good state'.program answer →
      TypesAt later (fine ∧ typed answer) (next answer) good' typed' state') :
    TypesAt later fine (first >>= next) good' typed' state := by
  have h := hnext (first state).1 (first state).2 hfirst.after hfirst.sound hfirst.answer
  refine ⟨hfirst.toRunsAt.bind fun answer state' hafter hsound hgood =>
    (hnext answer state' hafter hsound hgood).toRunsAt, fun hfine hsilent hlater hscopes => ?_⟩
  obtain ⟨htyped, hscopes⟩ := hfirst.types hfine (h.after.silent hsilent)
    (h.after.grows.trans hlater) hscopes
  exact h.types ⟨hfine, htyped⟩ hsilent hlater hscopes

theorem imp {fine' : Prop} {body : Lower α} {good' : Program → α → Prop} {typed' : α → Prop}
    (h : TypesAt later fine body good typed state) (hfine : fine' → fine)
    (hgood : ∀ program answer, good program answer → good' program answer)
    (htyped : ∀ answer, typed answer → typed' answer) :
    TypesAt later fine' body good' typed' state :=
  ⟨h.toRunsAt.imp hgood, fun hright hsilent hlater hscopes =>
    (h.types (hfine hright) hsilent hlater hscopes).imp_left (htyped _)⟩

theorem congr {body body' : Lower α} (h : TypesAt later fine body good typed state)
    (heq : body' state = body state) : TypesAt later fine body' good typed state := by
  refine ⟨h.toRunsAt.congr heq, ?_⟩
  rw [heq]
  exact h.types

-- The names of a scope are forgotten when it is closed.
theorem inScope {body : Lower α} (hsound : state.Sound) (hadds : AddsNames body)
    (hbody : ∀ inner : LoweringState, inner.Sound → TypesAt later fine body good typed inner) :
    TypesAt later fine (inScope body) good typed state := by
  refine ⟨.inScope hsound fun inner _ hinner => (hbody inner hinner).toRunsAt,
    fun hfine hsilent hlater hscopes => ?_⟩
  have hinner := hbody (pushScope state).2 (Program.Sound.push hsound)
  rw [inScope_apply] at hsilent
  obtain ⟨htyped, -⟩ := hinner.types hfine ⟨hsilent.1, hsilent.2⟩ hlater hscopes.push
  refine ⟨htyped, ?_⟩
  rw [hadds.inScope]
  exact hscopes

theorem leaf (hsound : state.Sound) {kind : NodeKind} {type : TypeId} {span : Span}
    (hknown : state.program.types.Known type) (herror : kind ≠ .Error)
    (hmodule : ∀ module, kind ≠ .Module module)
    (hwhole : fine → later.types.Whole type)
    (hoperands : fine → ∀ operand ∈ kind.operands, later.TypedBelow operand) :
    TypesAt later fine (leaf kind type span) HasNode later.TypedBelow state := by
  refine ⟨.leaf hsound hknown, fun hfine hsilent hlater hscopes => ⟨?_, hscopes⟩⟩
  have hnode := node?_leaf hlater
  exact .of_operands hnode (.of_whole hnode herror hmodule ⟨type, rfl, hwhole hfine⟩) (hoperands hfine)

theorem declareVariable (hsound : state.Sound) (name : Name) {type : TypeId} (isGlobal : Bool)
    (hknown : state.program.types.Known type) (hwhole : fine → later.types.Whole type) :
    TypesAt later fine (declareVariable name type isGlobal)
      (fun made id => made.variableType id = type) (fun _ => True) state := by
  have hruns := RunsAt.declareVariable hsound name isGlobal hknown
  obtain ⟨entry, hentry, -, htype⟩ := hruns.answer
  have hsmall := ((Program.Extends.refl _).variableType_eq hentry).1
  refine ⟨⟨hruns.after, hruns.sound, hsmall.trans htype⟩, fun hfine _ hlater hscopes =>
    ⟨trivial, ?_⟩⟩
  have hbinds : later.BindsTyped
      (.Variable (Lower.declareVariable name type isGlobal state).1) := by
    rw [Program.BindsTyped, (hlater.variableType_eq hentry).1, htype]
    exact hwhole hfine
  exact define_scopes hbinds hscopes

theorem mapM {source : List Char} {parts : List Expr} (hwritten : fine → ∀ part ∈ parts, part.AllWritten)
    (hparts : ∀ part ∈ parts, ∀ (fine : Prop) (state : LoweringState), (fine → part.AllWritten) →
      state.Sound → TypesAt later fine (expr source part) HasNode later.TypedBelow state)
    (hsound : state.Sound) :
    TypesAt later fine (parts.mapM (expr source)) (HasNodes parts)
      (fun ids => ∀ id ∈ ids, later.TypedBelow id) state := by
  induction parts generalizing state fine with
  | nil =>
      rw [List.mapM_nil]
      exact .pure hsound ⟨rfl, fun _ hmem => nomatch hmem⟩ fun _ _ hmem => nomatch hmem
  | cons first rest ih =>
      rw [List.mapM_cons]
      refine (hparts first List.mem_cons_self fine state
        (fun hfine => hwritten hfine first List.mem_cons_self) hsound).bind fun id one _ hone hid => ?_
      refine (ih (fun hfine part hmem => hwritten hfine.1 part (List.mem_cons_of_mem _ hmem))
        (fun part hmem => hparts part (List.mem_cons_of_mem _ hmem)) hone).bind
        fun ids two hafter htwo hids => ?_
      refine .pure htwo ⟨by simp [hids.1], ?_⟩ fun hfine => ?_
      · exact List.forall_mem_cons.mpr ⟨hid.extends hafter.grows, hids.2⟩
      · exact List.forall_mem_cons.mpr ⟨hfine.1.2, hfine.2⟩

theorem of_not {body : Lower α} (hruns : RunsAt body good state) (hnot : ¬fine) :
    TypesAt later fine body good typed state :=
  ⟨hruns, fun hfine => absurd hfine hnot⟩

theorem unlessError {span : Span} {operands : List NodeId} {build : Lower NodeId}
    (hoperands : ∀ operand ∈ operands, HasNode state.program operand)
    (hsound : state.Sound) (htyped : fine → ∀ operand ∈ operands, later.TypedBelow operand)
    (hbuild : TypesAt later fine build HasNode later.TypedBelow state) :
    TypesAt later fine (unlessError span operands build) HasNode later.TypedBelow state := by
  have hruns := @RunsAt.unlessError _ span operands _ hsound hbuild.toRunsAt
  refine ⟨hruns, fun hfine hsilent hlater hscopes => ?_⟩
  have hright : Right state.program operands := by
    intro operand hmem
    have hgrows := hruns.after.grows.trans hlater
    rw [← (hoperands operand hmem).kind_eq hgrows]
    exact (htyped hfine operand hmem).root.ne_error
  rw [unlessError_fine hright] at hsilent hlater ⊢
  exact hbuild.types hfine hsilent hlater hscopes

end TypesAt

section

variable {source : List Char} {later : Program} (hclosed : later.types.Closed)
  (hapart : later.ApartFromModules) {fine : Prop} {state : LoweringState}

include hclosed

theorem type_typed {written : TypeTree} (hwritten : fine → written.WellWritten)
    (hsound : state.Sound) :
    TypesAt later fine (type written) KnownType later.types.Whole state := by
  have hstays := @type_enters _ _ written fine hwritten hsound
  refine ⟨.of_stays hstays, fun hfine hsilent hlater hscopes => ?_⟩
  obtain ⟨made, type, told, -, -, -, hright, hrun⟩ := hstays
  have hstate : Lower.type written state = (type, ⟨made, state.scopes, state.reporter.after told 0⟩) :=
    hrun state.reporter
  rw [hstate] at hsilent hlater ⊢
  obtain ⟨hwritable, -⟩ := hright (LoweringState.told_eq_nil_of_silent hsilent) hfine
  exact ⟨(hwritable.extends hlater).whole hclosed hscopes, hscopes⟩

-- The type of a cast is the only one that is written in an expression.
def TypedTarget (later : Program) (whole : Expr) (target : TypeId) : Prop :=
  match whole with
  | .Cast _ _ _ => later.types.Whole target
  | _ => True

theorem prepare_typed {whole : Expr} (hwritten : fine → whole.WellWritten) (hsound : state.Sound) :
    TypesAt later fine (prepare whole) KnownType (TypedTarget later whole) state := by
  cases whole with
  | Cast span written operand => exact type_typed hclosed hwritten hsound
  | _ => exact .pure hsound hsound.closed.known_error fun _ => trivial

include hapart

-- What is made of typed parts is typed.
theorem make_typed (hsound : state.Sound) {whole : Expr}
    (hwhole : (∀ span inner, whole ≠ .Paren span inner) ∧
      (∀ span name value, whole ≠ .Declare span name value) ∧ whole.isQuestion = false)
    (hwritten : fine → whole.WellWritten) {target : TypeId}
    (hknown : state.program.types.Known target) (htarget : fine → TypedTarget later whole target)
    {ids : List NodeId} (hids : HasNodes whole.parts state.program ids)
    (htyped : fine → ∀ id ∈ ids, later.TypedBelow id) :
    TypesAt later fine (make source whole target ids) HasNode later.TypedBelow state := by
  by_cases hassert : ∃ span condition message, whole = .Assert span condition message
  · obtain ⟨span, condition, message, rfl⟩ := hassert
    obtain ⟨lowered, rest, rfl⟩ := List.exists_cons_of_length_eq_add_one hids.1
    have hrest : rest.head?.toList = rest := toList_head? (by simpa [Expr.parts] using hids.1)
    have hvoid : state.program.types.Known .void := hsound.closed.known_ofBasic .Void
    have hoperands : fine → ∀ operand ∈ lowered :: rest.head?.toList, later.TypedBelow operand := by
      rw [hrest]
      exact htyped
    rw [make, assertNode]
    refine .unlessError (by rw [hrest]; exact hids.2) hsound hoperands ?_
    cases condition.isFalseLiteral with
    | true =>
        exact .leaf hsound hvoid (by simp) (by simp) (fun _ => .ofBasic hclosed .Void)
          fun _ => by simp [NodeKind.operands]
    | false =>
        exact .leaf hsound hvoid (by simp) (by simp) (fun _ => .ofBasic hclosed .Void) hoperands
  · by_cases hcast : ∃ span written operand, whole = .Cast span written operand
    · obtain ⟨span, written, operand, rfl⟩ := hcast
      obtain ⟨id, rfl⟩ := List.length_eq_one_iff.mp hids.1
      rw [make]
      by_cases herror : target = .error
      · refine .of_not ?_ fun hfine => (htarget hfine).ne_error hclosed herror
        rw [castNode, if_pos herror]
        exact .errorNode hsound span
      · rw [castNode, if_neg herror]
        exact .unlessError hids.2 hsound htyped
          (.leaf hsound hknown (by simp) (by simp) htarget htyped)
    · refine ⟨.make hsound source hwhole.2.2 hknown hids, fun hfine hsilent hlater hscopes => ?_⟩
      have hcondition : RightCondition whole state.program ids := by
        cases whole with
        | Assert span condition message => exact absurd ⟨span, condition, message, rfl⟩ hassert
        | _ => exact trivial
      have hright : RightTarget state.scopes whole state.program target := by
        cases whole with
        | Cast span written operand => exact absurd ⟨span, written, operand, rfl⟩ hcast
        | _ => exact trivial
      obtain ⟨made, node, told, hone, hrun⟩ := make_makes hsound source hwhole hknown hids.1
      have hstate : make source whole target ids state =
          (⟨state.program.arena.size⟩, ⟨made.addNode node, state.scopes, state.reporter.after told 0⟩) :=
        hrun state.reporter
      rw [hstate] at hsilent hlater ⊢
      have hgrows : later.Extends made := (made.addNode_extends node).trans hlater
      have hparts : Right state.program ids := by
        intro id hmem
        rw [← (hids.2 id hmem).kind_eq (hone.grows.trans hgrows)]
        exact (htyped hfine id hmem).root.ne_error
      obtain ⟨hmakes, -⟩ := hone.right (LoweringState.told_eq_nil_of_silent hsilent)
        ⟨hwritten hfine, hright, hparts, hcondition⟩
      have hoperands : ∀ operand ∈ node.kind.operands, later.TypedBelow operand :=
        fun operand hmem => htyped hfine operand (hone.operands operand hmem)
      have hnode := hlater.nodes _ _ hone.node?
      have hmade := hmakes.extends hgrows hone.sound fun operand hmem =>
        ⟨_, hone.grows.nodes _ _ (Array.getElem?_eq_getElem (hids.2 _ (hone.operands _ hmem)))⟩
      refine ⟨.of_operands hnode ?_ hoperands, hscopes⟩
      exact hmade.typed hclosed hscopes hnode (fun operand hmem => (hoperands operand hmem).root)
        (hapart node (Array.mem_of_getElem? hnode))

omit hclosed in
-- The type of a variable whose value is no module, and the nodes of its declaration.
theorem declareNode_typed (hsound : state.Sound) {id : VariableId} {name : Name} {span : Span}
    {value : NodeId} (hvalue : HasNode state.program value) (htyped : later.TypedBelow value)
    (htype : later.types.Whole (state.program.variableType id) ∨
      state.program.variableType id = (later.arena.type? value).getD .error)
    (hlater : later.Extends (declareNode id name span (some value) state).2.program) :
    later.types.Whole (state.program.variableType id) ∧
      later.TypedBelow (declareNode id name span (some value) state).1 := by
  have hgrows := (RunsAt.declareNode hsound id name span (some value)).after.grows.trans hlater
  obtain ⟨type, hdeclared⟩ : ∃ type, type = state.program.variableType id := ⟨_, rfl⟩
  have hright : Right state.program [value] := by
    intro operand hmem
    obtain rfl := List.mem_singleton.mp hmem
    rw [← hvalue.kind_eq hgrows]
    exact htyped.root.ne_error
  have hread : declareNode id name span (some value) state =
      unlessError span [value] (leaf (.Variable id) type name.span >>=
        constructNode id name span type value) state := by
    rw [hdeclared]
    rfl
  rw [hread, unlessError_fine hright, bind_apply] at hlater ⊢
  rw [← hdeclared] at htype ⊢
  obtain ⟨named, hnamed⟩ : ∃ named, named = leaf (.Variable id) type name.span state := ⟨_, rfl⟩
  obtain ⟨whole, hwhole⟩ : ∃ whole, whole = name.span.cover (named.2.program.arena.node value).span :=
    ⟨_, rfl⟩
  have hrun : constructNode id name span type value named.1 named.2 =
      (leaf (.Assign .Construct named.1 value) type whole >>= fun construct =>
        leaf (.Declare id (some construct)) type span) named.2 := by
    rw [hwhole]
    rfl
  rw [← hnamed, hrun, bind_apply] at hlater ⊢
  have hbehind : later.Extends (leaf (.Assign .Construct named.1 value) type whole named.2).2.program :=
    .trans (.addNode _) hlater
  have hname : later.arena.node? named.1 = some ⟨.Variable id, some type, name.span⟩ := by
    rw [hnamed] at hbehind ⊢
    exact node?_leaf (.trans (.addNode _) hbehind)
  have hconstruct := node?_leaf hbehind
  have hroot := node?_leaf hlater
  have htypeWhole : later.types.Whole type :=
    htype.elim (fun hwhole => hwhole) fun htype => htyped.root.whole_of_construct hapart hconstruct htype
  have hwhole : ∀ {root : NodeId} {kind : NodeKind} {span : Span},
      later.arena.node? root = some ⟨kind, some type, span⟩ → kind ≠ .Error →
      (∀ module, kind ≠ .Module module) → later.Typed root :=
    fun hnode herror hmodule => .of_whole hnode herror hmodule ⟨type, rfl, htypeWhole⟩
  refine ⟨htypeWhole, .of_operands hroot (hwhole hroot (by simp) (by simp)) ?_⟩
  simp only [NodeKind.operands, Option.toList_some, List.forall_mem_singleton]
  refine .of_operands hconstruct (hwhole hconstruct (by simp) (by simp)) ?_
  simp only [NodeKind.operands, List.forall_mem_cons, List.not_mem_nil, false_imp_iff, implies_true,
    and_true]
  refine ⟨.of_operands hname (hwhole hname (by simp) (by simp)) ?_, htyped⟩
  simp [NodeKind.operands]

omit hclosed in
-- A variable is declared, and its value constructs it.
theorem declared_typed (hsound : state.Sound) {name : Name} {span : Span} {type : TypeId}
    (hknown : state.program.types.Known type) {value : NodeId} (hvalue : HasNode state.program value)
    (htyped : fine → later.TypedBelow value)
    (htype : fine → later.types.Whole type ∨
      type = (state.program.arena.type? value).getD .error) :
    TypesAt later fine (do
      let id ← declareVariable name type false
      declareNode id name span (some value)) HasNode later.TypedBelow state := by
  have hdeclare := TypesAt.declareVariable hsound name false hknown
    (fun h : later.types.Whole type => h)
  obtain ⟨id, hid⟩ : ∃ id, id = (declareVariable name type false state).1 := ⟨_, rfl⟩
  have hnode := RunsAt.declareNode hdeclare.sound id name span (some value)
  refine ⟨hdeclare.toRunsAt.bind fun id _ _ hone _ => .declareNode hone id name span (some value),
    fun hfine hsilent hlater hscopes => ?_⟩
  rw [bind_apply, ← hid] at hsilent hlater ⊢
  have hgrows := hnode.after.grows.trans hlater
  have hanswer := hdeclare.answer
  rw [← hid] at hanswer
  have hvalue' := hvalue.extends hdeclare.after.grows
  obtain ⟨hwhole, hbelow⟩ := declareNode_typed hapart hdeclare.sound hvalue' (htyped hfine) (by
    rw [hanswer, hvalue.type?_eq (hdeclare.after.grows.trans hgrows)]
    exact htype hfine) hlater
  rw [hanswer] at hwhole
  refine ⟨hbelow, ?_⟩
  have hkept := (namewise_still.declareNode id name span (some value)).scopes
    (declareVariable name type false state).2
  rw [hkept]
  exact (hdeclare.types hwhole (hnode.after.silent hsilent) hgrows hscopes).2

theorem expr_typed {whole : Expr} (hwritten : fine → whole.AllWritten) (hsound : state.Sound) :
    TypesAt later fine (expr source whole) HasNode later.TypedBelow state := by
  induction whole using Expr.induction generalizing fine state with
  | step whole ih =>
      cases hquestion : whole.isQuestion with
      | true =>
          cases whole with
          | Compiles span operand =>
              have hadds : AddsNames (expr source operand) :=
                stepwise_addsNames.expr source operand fun _ _ hbody => .of_eq hbody.accepts
              have haccepts : TypesAt later fine (accepts (expr source operand)) (fun _ _ => True)
                  (fun _ => True) state := by
                refine ⟨.accepts hsound fun _ => expr_runs source operand, fun _ _ _ hscopes =>
                  ⟨trivial, ?_⟩⟩
                rw [hadds.accepts]
                exact hscopes
              rw [expr_eq]
              refine haccepts.bind fun compiles one _ hone _ => ?_
              exact .leaf hone (hone.closed.known_ofBasic .Boolean) (by simp) (by simp)
                (fun _ => .ofBasic hclosed .Boolean) fun _ => by simp [NodeKind.operands]
          | _ => cases hquestion
      | false =>
          have hparts : ∀ part ∈ whole.parts, ∀ (fine : Prop) (state : LoweringState),
              (fine → part.AllWritten) → state.Sound →
              TypesAt later fine (expr source part) HasNode later.TypedBelow state :=
            fun part hmem fine state hwritten hsound => ih part hmem hwritten hsound
          by_cases hdeclare : ∃ span name value, whole = .Declare span name value
          · obtain ⟨span, name, value, rfl⟩ := hdeclare
            rw [expr_eq]
            refine (hparts value List.mem_cons_self fine state
              (fun hfine => (hwritten hfine).part List.mem_cons_self) hsound).bind
              fun id one _ hone hid => ?_
            exact (declared_typed hapart hone (Program.Sound.typeD_known hone id) hid
              (fun hfine => hfine.2) fun _ => .inr rfl).congr rfl
          rw [expr_eq_parts source hquestion]
          refine (prepare_typed hclosed (fun hfine => (hwritten hfine).here) hsound).bind
            fun target one _ hone htarget => ?_
          refine (TypesAt.mapM (fun hfine part hmem => (hwritten hfine.1).part hmem) hparts hone).bind
            fun ids two hafter htwo hids => ?_
          by_cases hparen : ∃ span inner, whole = .Paren span inner
          · obtain ⟨span, inner, rfl⟩ := hparen
            obtain ⟨id, rfl⟩ := List.length_eq_one_iff.mp hids.1
            exact .pure htwo (hids.2 id List.mem_cons_self) fun hfine => hfine.2 id List.mem_cons_self
          · have hwhole : (∀ span inner, whole ≠ .Paren span inner) ∧
                (∀ span name value, whole ≠ .Declare span name value) ∧ whole.isQuestion = false :=
              ⟨fun span inner h => hparen ⟨span, inner, h⟩,
                fun span name value h => hdeclare ⟨span, name, value, h⟩, hquestion⟩
            exact make_typed hclosed hapart htwo hwhole (fun hfine => (hwritten hfine.1.1).here)
              (htarget.keeps hafter.grows.types) (fun hfine => hfine.1.2) hids fun hfine => hfine.2

end

end Lower

end EffectLint
