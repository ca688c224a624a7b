import EffectLint.Proofs.Arena.Forest
import EffectLint.Proofs.Lowering.Sound

/-!
The points at which lowering an expression comes to the expressions in it. Every node of the
tree that is made is the node of an expression that was lowered at such a point, apart from the
nodes that stand for a declaration as a whole.
-/

namespace EffectLint

namespace Lower

variable (source : List Char)

-- What is lowered of an expression before one of its parts.
def upTo (whole : Expr) (front : List Expr) : Lower (TypeId × List NodeId) := do
  let target ← prepare whole
  let ids ← front.mapM (expr source)
  return (target, ids)

-- The variable of a declaration inside an expression, behind its value.
def declared (name : Name) (value : Expr) : Lower VariableId := do
  let value ← expr source value
  let type := (← typeOf value).getD .error
  declareVariable name type false

-- Lowering an expression from a state comes to an expression in it at a point.
inductive Visits : Expr → LoweringState → Expr → LoweringState → Prop where
  | Here {whole state} : Visits whole state whole state
  | Part {whole front part back state inner point} : whole.isQuestion = false →
      whole.parts = front ++ part :: back →
      Visits part (upTo source whole front state).2 inner point → Visits whole state inner point
  -- A declaration writes the name of its variable, which is known from there on.
  | Name {span name value state} :
      (expr source value state).2.program.arena.kind (expr source value state).1 ≠ .Error →
      (declared source name value state).2.program.binding?
        (declared source name value state).2.scopes name.text =
          some (.Variable (declared source name value state).1) →
      Visits (.Declare span name value) state (.Identifier name.span name.text)
        (declared source name value state).2

variable {source : List Char} {state : LoweringState}

theorem upTo_runs (whole : Expr) (front : List Expr) (hsound : state.Sound) :
    RunsAt (upTo source whole front) (fun made answer => made.types.Known answer.1 ∧
      HasNodes front made answer.2) state := by
  refine (RunsAt.of_stays (prepare_stays hsound whole)).bind fun target one _ hone htarget => ?_
  refine (RunsAt.mapM (fun part _ state => expr_runs source part) hone).bind
    fun ids two hafter htwo hids => ?_
  exact .pure htwo ⟨htarget.keeps hafter.grows.types, hids⟩

theorem expr_apply {whole : Expr} (hquestion : whole.isQuestion = false) :
    expr source whole state =
      make source whole (upTo source whole whole.parts state).1.1
        (upTo source whole whole.parts state).1.2 (upTo source whole whole.parts state).2 := by
  rw [expr_eq_parts source hquestion, bind_apply, bind_apply]
  rfl

theorem mapM_from {front back : List Expr} {part : Expr} (hsound : state.Sound) :
    ((front ++ part :: back).mapM (expr source) state).2.From
      (expr source part (front.mapM (expr source) state).2).2 := by
  have hfront : RunsAt (front.mapM (expr source)) (HasNodes front) state :=
    .mapM (fun part _ _ => expr_runs source part) hsound
  have hpart := expr_runs source part hfront.sound
  have hback : RunsAt (back.mapM (expr source)) (HasNodes back)
      (expr source part (front.mapM (expr source) state).2).2 :=
    .mapM (fun part _ _ => expr_runs source part) hpart.sound
  rw [List.mapM_append, bind_apply, List.mapM_cons]
  exact hback.after

theorem upTo_from {whole : Expr} {front : List Expr} (hsound : state.Sound) :
    (upTo source whole front state).2.From (prepare whole state).2 := by
  have hprepare : RunsAt (prepare whole) KnownType state := .of_stays (prepare_stays hsound whole)
  have hfront : RunsAt (front.mapM (expr source)) (HasNodes front) (prepare whole state).2 :=
    .mapM (fun part _ _ => expr_runs source part) hprepare.sound
  exact hfront.after

theorem upTo_from_part {whole part : Expr} {front back : List Expr} (hsound : state.Sound)
    (hparts : whole.parts = front ++ part :: back) :
    (upTo source whole whole.parts state).2.From
      (expr source part (upTo source whole front state).2).2 := by
  have hprepare : RunsAt (prepare whole) KnownType state := .of_stays (prepare_stays hsound whole)
  rw [hparts]
  exact mapM_from hprepare.sound

theorem make_runs (hsound : state.Sound) {whole : Expr} (hquestion : whole.isQuestion = false) :
    RunsAt (make source whole (upTo source whole whole.parts state).1.1
      (upTo source whole whole.parts state).1.2) HasNode (upTo source whole whole.parts state).2 := by
  obtain ⟨_, hparts, htarget, hids⟩ := @upTo_runs source state whole whole.parts hsound
  exact .make hparts source hquestion htarget hids

-- The whole expression goes on behind each of its parts.
theorem from_part {whole part : Expr} {front back : List Expr} (hsound : state.Sound)
    (hquestion : whole.isQuestion = false) (hparts : whole.parts = front ++ part :: back) :
    (expr source whole state).2.From (expr source part (upTo source whole front state).2).2 := by
  rw [expr_apply hquestion]
  exact (upTo_from_part hsound hparts).trans (make_runs hsound hquestion).after

theorem HasNode.kind_eq {large small : Program} (hextends : large.Extends small) {id : NodeId}
    (h : HasNode small id) : large.arena.kind id = small.arena.kind id := by
  have hnode : small.arena.node? id = _ := Array.getElem?_eq_getElem h
  rw [Arena.kind_of_node? hnode, Arena.kind_of_node? (hextends.nodes _ _ hnode)]

theorem nameNode_Variable {name : String} {id : VariableId} (span : Span)
    (h : state.program.binding? state.scopes name = some (.Variable id)) :
    nameNode name span state = leaf (.Variable id) (state.program.variableType id) span state := by
  have hlookup : lookup name state = (some (.Variable id), state) := by
    rw [← h]
    rfl
  rw [nameNode, bind_apply, hlookup]
  rfl

-- The nodes that tie the name of a declaration to its value.
def constructNode (id : VariableId) (name : Name) (span : Span) (type : TypeId)
    (value target : NodeId) : Lower NodeId := do
  let whole := name.span.cover (← node value).span
  let construct ← leaf (.Assign .Construct target value) type whole
  leaf (.Declare id (some construct)) type span

theorem declareNode_apply (id : VariableId) (name : Name) (span : Span) {value : NodeId}
    (hvalue : state.program.arena.kind value ≠ .Error)
    (hname : state.program.binding? state.scopes name.text = some (.Variable id)) :
    declareNode id name span (some value) state =
      (expr source (.Identifier name.span name.text) >>=
        constructNode id name span (state.program.variableType id) value) state := by
  have hwrong : [value].any (state.program.arena.kind · == .Error) = false := by simpa using hvalue
  have hread : declareNode id name span (some value) state =
      unlessError span [value] (leaf (.Variable id) (state.program.variableType id) name.span >>=
        constructNode id name span (state.program.variableType id) value) state := rfl
  have hexpr : expr source (.Identifier name.span name.text) = nameNode name.text name.span :=
    expr_eq source _
  rw [hread, unlessError_apply, hwrong, hexpr, bind_apply, bind_apply, nameNode_Variable _ hname]
  rfl

theorem declareNode_wrong (id : VariableId) (name : Name) (span : Span) {value : NodeId}
    (hvalue : state.program.arena.kind value = .Error) :
    declareNode id name span (some value) state = leaf .Error .error span state := by
  have hwrong : [value].any (state.program.arena.kind · == .Error) = true := by simpa using hvalue
  have hread : declareNode id name span (some value) state =
      unlessError span [value] (leaf (.Variable id) (state.program.variableType id) name.span >>=
        constructNode id name span (state.program.variableType id) value) state := rfl
  rw [hread, unlessError_apply, hwrong]
  rfl

theorem constructNode_runs (hsound : state.Sound) (id : VariableId) (name : Name) (span : Span)
    {type : TypeId} (htype : state.program.types.Known type) (value target : NodeId) :
    RunsAt (constructNode id name span type value target) HasNode state := by
  refine .read ?_
  refine (RunsAt.leaf hsound htype).bind fun construct one hafter hone _ => ?_
  exact .leaf hone (htype.keeps hafter.grows.types)

theorem declared_runs (hsound : state.Sound) (name : Name) (value : Expr) :
    (declared source name value state).2.Sound ∧
      (declared source name value state).2.From (expr source value state).2 := by
  have hvalue := expr_runs source value hsound
  have hrest : RunsAt (do
      let type := (← typeOf (expr source value state).1).getD .error
      Lower.declareVariable name type false) (fun _ _ => True) (expr source value state).2 := by
    refine .read ?_
    exact (RunsAt.declareVariable hvalue.sound name false
      (Program.Sound.typeD_known hvalue.sound _)).forget
  exact ⟨hrest.sound, hrest.after⟩

theorem expr_Declare_eq (span : Span) (name : Name) (value : Expr) :
    expr source (.Declare span name value) state =
      declareNode (declared source name value state).1 name span
        (some (expr source value state).1) (declared source name value state).2 := by
  have hexpr : expr source (.Declare span name value) = (do
      let value ← expr source value
      let type := (← typeOf value).getD .error
      let id ← declareVariable name type false
      declareNode id name span (some value)) := expr_eq source _
  rw [hexpr]
  simp only [declared, bind_apply]

-- The node of a declaration whose value is fine, and the name in it.
theorem expr_Declare_apply (span : Span) {name : Name} {value : Expr} (hsound : state.Sound)
    (hvalue : (expr source value state).2.program.arena.kind (expr source value state).1 ≠ .Error)
    (hname : (declared source name value state).2.program.binding?
      (declared source name value state).2.scopes name.text =
        some (.Variable (declared source name value state).1)) :
    expr source (.Declare span name value) state =
      (expr source (.Identifier name.span name.text) >>=
        constructNode (declared source name value state).1 name span
          ((declared source name value state).2.program.variableType
            (declared source name value state).1) (expr source value state).1)
        (declared source name value state).2 := by
  have hnode := (expr_runs source value hsound).answer
  have hkind := hnode.kind_eq (@declared_runs source _ hsound name value).2.grows
  rw [expr_Declare_eq, declareNode_apply _ _ _ (hkind ▸ hvalue) hname]

theorem Visits.spec {whole part : Expr} {point : LoweringState}
    (h : Visits source whole state part point) (hsound : state.Sound) :
    point.Sound ∧ point.From state ∧
      (expr source whole state).2.From (expr source part point).2 := by
  induction h with
  | Here => exact ⟨hsound, .refl _, .refl _⟩
  | @Part whole front part back state inner point hquestion hparts _ ih =>
      have hupTo := @upTo_runs source state whole front hsound
      obtain ⟨hpoint, hafter, hbehind⟩ := ih hupTo.sound
      exact ⟨hpoint, hupTo.after.trans hafter, hbehind.trans (from_part hsound hquestion hparts)⟩
  | @Name span name value state hvalue hname =>
      obtain ⟨hpoint, hafter⟩ := @declared_runs source state hsound name value
      refine ⟨hpoint, (expr_runs source value hsound).after.trans hafter, ?_⟩
      have htarget := expr_runs source (.Identifier name.span name.text) hpoint
      have htype := Program.Sound.variableType_known hpoint (declared source name value state).1
      rw [expr_Declare_apply span hsound hvalue hname, bind_apply]
      exact (constructNode_runs htarget.sound _ name span (htype.keeps htarget.after.grows.types)
        _ _).after

theorem lookup_define (scopes : Scopes) (symbol : Symbol) (binding : Binding) :
    (scopes.define symbol binding).lookup symbol = some binding := by
  unfold Scopes.define
  split <;> simp_all [Scopes.lookup]

-- A name is known behind its definition, unless that was reported.
theorem binding?_of_define {name : Name} {binding : Binding}
    (hsilent : (define name binding state).2.Silent) :
    (define name binding state).2.program.binding? (define name binding state).2.scopes name.text =
      some binding := by
  have hname : (symbol name.text state).2.program.names.find? name.text =
      some (symbol name.text state).1 :=
    NameTable.find?_of_get? Numbering.get?_insert
  rw [define_apply] at hsilent ⊢
  split at hsilent
  · have hnil := @LoweringState.told_eq_nil_of_silent state.reporter
      [.about .DuplicateDefinition name.span name.text] 0 (symbol name.text state).2.program state.scopes
    rw [← Reporter.report_eq_after] at hnil
    exact absurd (hnil hsilent) (List.cons_ne_nil _ _)
  · next hfree =>
    rw [if_neg hfree, Program.binding?, hname, Option.bind_some, lookup_define]

theorem binding?_of_declareVariable {name : Name} {type : TypeId} {isGlobal : Bool}
    (hsilent : (declareVariable name type isGlobal state).2.Silent) :
    (declareVariable name type isGlobal state).2.program.binding?
      (declareVariable name type isGlobal state).2.scopes name.text =
        some (.Variable (declareVariable name type isGlobal state).1) :=
  binding?_of_define hsilent

theorem mem_mapM {parts : List Expr} {id : NodeId}
    (h : id ∈ (parts.mapM (expr source) state).1) :
    ∃ front part back, parts = front ++ part :: back ∧
      id = (expr source part (front.mapM (expr source) state).2).1 := by
  induction parts generalizing state with
  | nil => cases h
  | cons first rest ih =>
      rw [List.mapM_cons] at h
      rcases List.mem_cons.mp h with rfl | h
      · exact ⟨[], first, rest, rfl, rfl⟩
      · obtain ⟨front, part, back, rfl, rfl⟩ := ih h
        refine ⟨first :: front, part, back, rfl, ?_⟩
        rw [List.mapM_cons]
        rfl

end Lower

-- The nodes that stand for a declaration as a whole.
def NodeKind.declares : NodeKind → Bool
  | .Declare _ _ | .Assign .Construct _ _ => true
  | _ => false

namespace Lower

-- The node of an expression that is neither in parentheses nor a declaration hangs above the
-- nodes of its parts.
theorem operands_make (hsound : state.Sound) {whole : Expr}
    (hwhole : (∀ span inner, whole ≠ .Paren span inner) ∧
      (∀ span name value, whole ≠ .Declare span name value) ∧ whole.isQuestion = false)
    {target : TypeId} (htarget : state.program.types.Known target) {ids : List NodeId}
    (hids : HasNodes whole.parts state.program ids) {later : Program}
    (hlater : later.Extends (make source whole target ids state).2.program) :
    ∀ operand ∈ later.arena.operands (make source whole target ids state).1, operand ∈ ids := by
  obtain ⟨made, node, told, hone, hrun⟩ := make_makes hsound source hwhole htarget hids.1
  have hstate : make source whole target ids state =
      (⟨state.program.arena.size⟩, ⟨made.addNode node, state.scopes, state.reporter.after told 0⟩) :=
    hrun state.reporter
  rw [hstate] at hlater ⊢
  obtain ⟨hkind, _⟩ := hlater.node_eq hone.node?
  rw [Arena.operands, Arena.kind, hkind]
  exact hone.operands

theorem below_leaf {arena : Arena} {root id : NodeId} (h : arena.Below root id)
    (hroot : arena.operands root = []) : id = root := by
  rcases h.cases_head with rfl | ⟨child, hchild, _⟩
  · rfl
  · rw [hroot] at hchild
    cases hchild

theorem kind_leaf {kind : NodeKind} {type : TypeId} {span : Span} {later : Program}
    (hlater : later.Extends (leaf kind type span state).2.program) :
    later.arena.kind (leaf kind type span state).1 = kind := by
  have hnode : (leaf kind type span state).2.program.arena.node? (leaf kind type span state).1 =
      some ⟨kind, some type, span⟩ := Array.getElem?_push_size
  rw [Arena.kind_of_node? (hlater.nodes _ _ hnode)]

-- The two nodes that a declaration makes besides its name and its value.
theorem constructNode_shape {id : VariableId} {name : Name} {span : Span} {type : TypeId}
    {value target : NodeId} {later : Program}
    (hlater : later.Extends (constructNode id name span type value target state).2.program) :
    ∃ construct,
      later.arena.kind (constructNode id name span type value target state).1 =
        .Declare id (some construct) ∧
      later.arena.kind construct = .Assign .Construct target value := by
  obtain ⟨whole, hwhole⟩ : ∃ whole, whole = name.span.cover (state.program.arena.node value).span :=
    ⟨_, rfl⟩
  have hrun : constructNode id name span type value target state =
      (leaf (.Assign .Construct target value) type whole >>= fun construct =>
        leaf (.Declare id (some construct)) type span) state := by
    rw [hwhole]
    rfl
  rw [hrun, bind_apply] at hlater ⊢
  exact ⟨_, kind_leaf hlater, kind_leaf (.trans (.addNode _) hlater)⟩

theorem declared_silent {span : Span} {name : Name} {value : Expr} (hsound : state.Sound)
    (hsilent : (expr source (.Declare span name value) state).2.Silent) :
    (declared source name value state).2.Silent := by
  have hpoint := (@declared_runs source state hsound name value).1
  rw [expr_Declare_eq] at hsilent
  exact (RunsAt.declareNode hpoint _ name span _).after.silent hsilent

-- Below a declaration there are its name and what hangs below its value.
theorem below_construct {variableId : VariableId} {name : Name} {span : Span} {value id : NodeId}
    (hsound : state.Sound)
    (hname : state.program.binding? state.scopes name.text = some (.Variable variableId))
    {later : Program}
    (hlater : later.Extends ((expr source (.Identifier name.span name.text) >>=
      constructNode variableId name span (state.program.variableType variableId) value)
        state).2.program)
    (hbelow : later.arena.Below ((expr source (.Identifier name.span name.text) >>=
      constructNode variableId name span (state.program.variableType variableId) value) state).1 id)
    (hkind : (later.arena.kind id).declares = false) :
    (expr source (.Identifier name.span name.text) state).1 = id ∨ later.arena.Below value id := by
  have htarget := expr_runs source (.Identifier name.span name.text) hsound
  have htype := Program.Sound.variableType_known hsound variableId
  have hbehind := constructNode_runs htarget.sound variableId name span
    (htype.keeps htarget.after.grows.types) value
    (expr source (.Identifier name.span name.text) state).1
  rw [bind_apply] at hbelow hlater
  obtain ⟨construct, hroot, hconstruct⟩ := constructNode_shape hlater
  have hnone : later.arena.operands (expr source (.Identifier name.span name.text) state).1 = [] := by
    have hgrows := hbehind.after.grows.trans hlater
    have hexpr : expr source (.Identifier name.span name.text) = nameNode name.text name.span :=
      expr_eq source _
    rw [hexpr, nameNode_Variable _ hname] at hgrows ⊢
    rw [Arena.operands, kind_leaf hgrows]
    rfl
  rcases hbelow.cases_head with rfl | ⟨child, hchild, hbelow⟩
  · rw [hroot] at hkind
    cases hkind
  · rw [Arena.operands, hroot] at hchild
    obtain rfl := List.mem_singleton.mp hchild
    rcases hbelow.cases_head with rfl | ⟨child, hchild, hinner⟩
    · rw [hconstruct] at hkind
      cases hkind
    · rw [Arena.operands, hconstruct] at hchild
      simp only [NodeKind.operands, List.mem_cons, List.not_mem_nil, or_false] at hchild
      rcases hchild with rfl | rfl
      · exact .inl (below_leaf hinner hnone).symm
      · exact .inr hinner

-- Each node of the tree that is silently made is that of an expression at one of the points.
theorem exists_visits {whole : Expr} (hsound : state.Sound)
    (hsilent : (expr source whole state).2.Silent) {later : Program}
    (hlater : later.Extends (expr source whole state).2.program) {id : NodeId}
    (hbelow : later.arena.Below (expr source whole state).1 id)
    (hkind : (later.arena.kind id).declares = false) :
    ∃ part point, Visits source whole state part point ∧ (expr source part point).1 = id := by
  induction whole using Expr.induction generalizing state with
  | step whole ih =>
      -- what hangs below the node of a part is the node of something in that part
      have hpart : ∀ front part back, whole.isQuestion = false → whole.parts = front ++ part :: back →
          later.arena.Below (expr source part (upTo source whole front state).2).1 id →
          ∃ part point, Visits source whole state part point ∧ (expr source part point).1 = id := by
        intro front part back hquestion hparts hbelow
        have hfrom := @from_part source state _ _ _ _ hsound hquestion hparts
        have hfront := (@upTo_runs source state whole front hsound).sound
        obtain ⟨inner, point, hvisits, hid⟩ := ih part (by simp [hparts]) hfront
          (hfrom.silent hsilent) (hfrom.grows.trans hlater) hbelow
        exact ⟨inner, point, .Part hquestion hparts hvisits, hid⟩
      cases hquestion : whole.isQuestion with
      | true =>
          cases whole with
          | Compiles span operand =>
              have hexpr := expr_eq source (.Compiles span operand)
              dsimp only at hexpr
              rw [hexpr, bind_apply] at hlater hbelow
              have hleaf : id = _ := below_leaf hbelow (by
                rw [Arena.operands, kind_leaf hlater]
                rfl)
              refine ⟨_, _, .Here, ?_⟩
              rw [hexpr, bind_apply, hleaf]
          | _ => cases hquestion
      | false =>
          by_cases hplain : (∀ span inner, whole ≠ .Paren span inner) ∧
              ∀ span name value, whole ≠ .Declare span name value
          · have hwhole := expr_eq_parts source hquestion
            rw [hwhole, bind_apply, bind_apply] at hbelow hlater
            rcases hbelow.cases_head with rfl | ⟨child, hchild, hbelow⟩
            · exact ⟨_, _, .Here, by rw [hwhole, bind_apply, bind_apply]⟩
            · obtain ⟨_, hparts, htarget, hids⟩ := @upTo_runs source state whole whole.parts hsound
              have hmem := operands_make hparts ⟨hplain.1, hplain.2, hquestion⟩ htarget hids hlater
                child hchild
              obtain ⟨front, part, back, hsplit, rfl⟩ := mem_mapM hmem
              exact hpart front part back hquestion hsplit hbelow
          · cases whole with
            | Paren span inner =>
                have hexpr := expr_eq source (.Paren span inner)
                dsimp only at hexpr
                rw [hexpr] at hbelow
                exact hpart [] inner [] hquestion rfl hbelow
            | Declare span name value =>
                obtain ⟨hpoint, hafter⟩ := @declared_runs source state hsound name value
                have hnode := expr_runs source value hsound
                have hkindValue := hnode.answer.kind_eq hafter.grows
                by_cases hvalue : (expr source value state).2.program.arena.kind
                    (expr source value state).1 = .Error
                · -- nothing hangs below a wrong expression
                  refine ⟨_, _, .Here, ?_⟩
                  have herror : expr source (.Declare span name value) state =
                      leaf .Error .error span (declared source name value state).2 := by
                    rw [expr_Declare_eq, declareNode_wrong _ _ _ (hkindValue.trans hvalue)]
                  rw [herror] at hbelow hlater ⊢
                  refine (below_leaf hbelow ?_).symm
                  rw [Arena.operands, kind_leaf hlater]
                  rfl
                · have hbound := binding?_of_declareVariable (declared_silent hsound hsilent)
                  rw [expr_Declare_apply span hsound hvalue hbound] at hbelow hlater
                  rcases below_construct hpoint hbound hlater hbelow hkind with hid | hbelow
                  · exact ⟨_, _, .Name hvalue hbound, hid⟩
                  · exact hpart [] value [] hquestion rfl hbelow
            | _ => exact absurd ⟨by simp, by simp⟩ hplain

end Lower

end EffectLint
