import EffectLint.Proofs.Lowering.Fine

/-!
The points at which lowering the body of a function comes to its expressions. The values in the
lowered body, and what hangs below them, are the nodes of expressions at such points.
-/

namespace EffectLint

-- The values that stand in a lowered statement.
inductive Flow.Has : Flow → NodeId → Prop where
  | Evaluate {value} : Has (.Evaluate value) value
  | Return {value} : Has (.Return (some value)) value
  | Condition {condition yes no} : Has (.If condition yes no) condition
  | Yes {condition yes no value} : Has yes value → Has (.If condition yes no) value
  | No {condition yes no value} : Has no value → Has (.If condition yes (some no)) value
  | WhileCondition {condition body} : Has (.While condition body) condition
  | WhileBody {condition body value} : Has body value → Has (.While condition body) value
  | First {first condition step body value} : Has first value →
      Has (.For (some first) condition step body) value
  | ForCondition {first condition step body} : Has (.For first (some condition) step body) condition
  | Step {first condition step body} : Has (.For first condition (some step) body) step
  | ForBody {first condition step body value} : Has body value →
      Has (.For first condition step body) value
  | Block {flows flow value} : flow ∈ flows → Has flow value → Has (.Block flows) value

theorem Flow.Has.of_For {first : Option Flow} {condition step : Option NodeId} {body : Flow}
    {value : NodeId} (h : Has (.For first condition step body) value) :
    (∃ one ∈ first, one.Has value) ∨ condition = some value ∨ step = some value ∨
      body.Has value := by
  cases h with
  | First h => exact .inl ⟨_, rfl, h⟩
  | ForCondition => exact .inr (.inl rfl)
  | Step => exact .inr (.inr (.inl rfl))
  | ForBody h => exact .inr (.inr (.inr h))

namespace Lower

variable (source : List Char)

def first? : Option Statement → Lower (Option Flow)
  | some first => statement source first
  | none => return none

-- The variable of a local declaration, behind its first value.
def localDeclared (declared : VariableTree) : Lower VariableId := do
  let type ← type declared.type
  let _ ← expr? source declared.value
  declareVariable declared.name type false

-- Lowering statements in turn comes to an expression in one of them at a point.
inductive VisitsIn : List Statement → LoweringState → Expr → LoweringState → Prop where
  | Later {first rest state part point} :
      VisitsIn rest (statement source first state).2 part point →
      VisitsIn (first :: rest) state part point
  | Evaluate {value rest state part point} : Visits source value state part point →
      VisitsIn (.Evaluate value :: rest) state part point
  | Return {span value rest state part point} : Visits source value state part point →
      VisitsIn (.Return span (some value) :: rest) state part point
  | Local {declared value rest state part point} : declared.value = some value →
      Visits source value (type declared.type state).2 part point →
      VisitsIn (.Local declared :: rest) state part point
  | LocalName {declared value rest state} : declared.value = some value →
      (expr source value (type declared.type state).2).2.program.arena.kind
        (expr source value (type declared.type state).2).1 ≠ .Error →
      (localDeclared source declared state).2.program.binding?
        (localDeclared source declared state).2.scopes declared.name.text =
          some (.Variable (localDeclared source declared state).1) →
      VisitsIn (.Local declared :: rest) state (.Identifier declared.name.span declared.name.text)
        (localDeclared source declared state).2
  | Condition {condition yes no rest state part point} : Visits source condition state part point →
      VisitsIn (.If condition yes no :: rest) state part point
  | Yes {condition yes no rest state part point} :
      VisitsIn [yes] ((do
        let _ ← expr source condition
        pushScope : Lower Unit) state).2 part point →
      VisitsIn (.If condition yes no :: rest) state part point
  | No {condition yes no rest state part point} :
      VisitsIn [no] ((do
        let _ ← expr source condition
        let _ ← inScope (statement source yes)
        pushScope : Lower Unit) state).2 part point →
      VisitsIn (.If condition yes (some no) :: rest) state part point
  | WhileCondition {condition body rest state part point} :
      Visits source condition state part point →
      VisitsIn (.While condition body :: rest) state part point
  | WhileBody {condition body rest state part point} :
      VisitsIn [body] ((do
        let _ ← expr source condition
        pushScope : Lower Unit) state).2 part point →
      VisitsIn (.While condition body :: rest) state part point
  | First {first condition step body rest state part point} :
      VisitsIn [first] (pushScope state).2 part point →
      VisitsIn (.For (some first) condition step body :: rest) state part point
  | ForCondition {first condition step body rest state part point} :
      Visits source condition ((do
        pushScope
        first? source first : Lower (Option Flow)) state).2 part point →
      VisitsIn (.For first (some condition) step body :: rest) state part point
  | Step {first condition step body rest state part point} :
      Visits source step ((do
        pushScope
        let _ ← first? source first
        expr? source condition : Lower (Option NodeId)) state).2 part point →
      VisitsIn (.For first condition (some step) body :: rest) state part point
  | ForBody {first condition step body rest state part point} :
      VisitsIn [body] ((do
        pushScope
        let _ ← first? source first
        let _ ← expr? source condition
        let _ ← expr? source step
        pushScope : Lower Unit) state).2 part point →
      VisitsIn (.For first condition step body :: rest) state part point
  | Block {span written rest state part point} :
      VisitsIn written (pushScope state).2 part point →
      VisitsIn (.Block span written :: rest) state part point

variable {source : List Char} {state : LoweringState}

-- What is known of the point at which a node was made: lowering the expression from there adds
-- the node and says nothing, and what it adds is still there later.
structure MadeAt (source : List Char) (later : Program) (id : NodeId) (part : Expr)
    (point : LoweringState) : Prop where
  written : part.AllWritten
  sound : point.Sound
  silent : (expr source part point).2.Silent
  grows : later.Extends (expr source part point).2.program
  node : (expr source part point).1 = id

theorem Visits.written {whole part : Expr} {point : LoweringState}
    (h : Visits source whole state part point) (hwritten : whole.AllWritten) : part.AllWritten := by
  induction h with
  | Here => exact hwritten
  | Part _ hparts _ ih => exact ih (hwritten.part (by simp [hparts]))
  | Name => exact .of_parts hwritten.here fun _ hmem => nomatch hmem

theorem exists_madeAt {whole : Expr} (hwritten : whole.AllWritten) (hsound : state.Sound)
    (hsilent : (expr source whole state).2.Silent) {later : Program}
    (hlater : later.Extends (expr source whole state).2.program) {id : NodeId}
    (hbelow : later.arena.Below (expr source whole state).1 id)
    (hkind : (later.arena.kind id).declares = false) :
    ∃ part point, Visits source whole state part point ∧ MadeAt source later id part point := by
  obtain ⟨part, point, hvisits, hid⟩ := exists_visits hsound hsilent hlater hbelow hkind
  obtain ⟨hpoint, _, hbehind⟩ := hvisits.spec hsound
  exact ⟨part, point, hvisits, hvisits.written hwritten, hpoint, hbehind.silent hsilent,
    hbehind.grows.trans hlater, hid⟩

-- Everything below a value was made at some point of the statements.
def Covers (source : List Char) (written : List Statement) (state : LoweringState)
    (later : Program) (value : NodeId) : Prop :=
  ∀ id, later.arena.Below value id → (later.arena.kind id).declares = false →
    ∃ part point, VisitsIn source written state part point ∧ MadeAt source later id part point

theorem covers_of_visits {whole : Expr} (hwritten : whole.AllWritten) {written : List Statement}
    {inner : LoweringState}
    (hvisits : ∀ part point, Visits source whole inner part point →
      VisitsIn source written state part point) (hsound : inner.Sound)
    (hsilent : (expr source whole inner).2.Silent) {later : Program}
    (hlater : later.Extends (expr source whole inner).2.program) :
    Covers source written state later (expr source whole inner).1 := by
  intro id hbelow hkind
  obtain ⟨part, point, hvisit, hmade⟩ := exists_madeAt hwritten hsound hsilent hlater hbelow hkind
  exact ⟨part, point, hvisits part point hvisit, hmade⟩

theorem Covers.imp {written written' : List Statement} {inner : LoweringState} {later : Program}
    {value : NodeId} (h : Covers source written inner later value)
    (hvisits : ∀ part point, VisitsIn source written inner part point →
      VisitsIn source written' state part point) : Covers source written' state later value := by
  intro id hbelow hkind
  obtain ⟨part, point, hvisit, hmade⟩ := h id hbelow hkind
  exact ⟨part, point, hvisits part point hvisit, hmade⟩

theorem VisitsIn.more {first : Statement} {rest : List Statement} {part : Expr}
    {point : LoweringState} (h : VisitsIn source [first] state part point) :
    VisitsIn source (first :: rest) state part point := by
  cases h with
  | Later h => cases h
  | Evaluate h => exact .Evaluate h
  | Return h => exact .Return h
  | Local hvalue h => exact .Local hvalue h
  | LocalName hvalue hkind hname => exact .LocalName hvalue hkind hname
  | Condition h => exact .Condition h
  | Yes h => exact .Yes h
  | No h => exact .No h
  | WhileCondition h => exact .WhileCondition h
  | WhileBody h => exact .WhileBody h
  | First h => exact .First h
  | ForCondition h => exact .ForCondition h
  | Step h => exact .Step h
  | ForBody h => exact .ForBody h
  | Block h => exact .Block h

-- What the values in a lowered statement are made of is all found in the statement.
def Covered (source : List Char) (written : Statement) : Prop :=
  ∀ (state : LoweringState) (later : Program), written.AllWritten → state.Sound →
    (statement source written state).2.Silent →
    later.Extends (statement source written state).2.program →
    ∀ flow ∈ (statement source written state).1, ∀ value, flow.Has value →
      Covers source [written] state later value

theorem pure_apply {α : Type} (answer : α) (state : LoweringState) :
    (pure answer : Lower α) state = (answer, state) :=
  rfl

theorem inScope_apply {α : Type} (body : Lower α) (state : LoweringState) :
    inScope body state =
      ((body (pushScope state).2).1, (popScope (body (pushScope state).2).2).2) :=
  rfl

-- The scope around a statement does not matter for what is said and made in it.
theorem Covered.inScope {written : Statement} (h : Covered source written) {later : Program}
    (hwritten : written.AllWritten) (hsound : state.Sound)
    (hsilent : (inScope (statement source written) state).2.Silent)
    (hlater : later.Extends (inScope (statement source written) state).2.program) :
    ∀ value, ((inScope (statement source written) state).1.getD (.Block [])).Has value →
      Covers source [written] (pushScope state).2 later value := by
  intro value hvalue
  rw [inScope_apply] at hvalue hsilent hlater
  have hsilent : (statement source written (pushScope state).2).2.Silent := ⟨hsilent.1, hsilent.2⟩
  cases hflow : (statement source written (pushScope state).2).1 with
  | none =>
      rw [hflow] at hvalue
      cases hvalue with
      | Block hmem _ => cases hmem
  | some flow =>
      rw [hflow] at hvalue
      exact h (pushScope state).2 later hwritten (Program.Sound.push hsound) hsilent hlater flow hflow
        value hvalue

theorem covered_statements {written : List Statement}
    (hcovered : ∀ one ∈ written, Covered source one) (hwritten : ∀ one ∈ written, one.AllWritten)
    (hsound : state.Sound) {later : Program}
    (hsilent : (statements source written state).2.Silent)
    (hlater : later.Extends (statements source written state).2.program) :
    ∀ flow ∈ (statements source written state).1, ∀ value, flow.Has value →
      Covers source written state later value := by
  induction written generalizing state with
  | nil =>
      intro flow hflow
      rw [statements] at hflow
      cases hflow
  | cons first rest ih =>
      intro flow hflow value hvalue
      have hfirst := statement_runs source first hsound
      have hrest : RunsAt (statements source rest) (fun _ _ => True)
          (statement source first state).2 :=
        statements_run (fun one _ _ => statement_runs source one) hfirst.sound
      rw [statements, bind_apply, bind_apply, pure_apply] at hflow hsilent hlater
      rcases List.mem_append.mp hflow with hflow | hflow
      · have h := hcovered first List.mem_cons_self state later (hwritten first List.mem_cons_self)
          hsound (hrest.after.silent hsilent) (hrest.after.grows.trans hlater) flow
          (Option.mem_toList.mp hflow) value hvalue
        exact h.imp fun part point => VisitsIn.more
      · have h := ih (fun one hmem => hcovered one (List.mem_cons_of_mem _ hmem))
          (fun one hmem => hwritten one (List.mem_cons_of_mem _ hmem)) hfirst.sound hsilent hlater
          flow hflow value hvalue
        exact h.imp fun part point => VisitsIn.Later

theorem covered_Evaluate (value : Expr) : Covered source (.Evaluate value) := by
  intro state later hwritten hsound hsilent hlater flow hflow id hid
  rw [statement, bind_apply, pure_apply] at hflow hsilent hlater
  obtain rfl := Option.some.inj hflow
  cases hid with
  | Evaluate =>
      cases hwritten with
      | Evaluate hvalue => exact covers_of_visits hvalue (fun _ _ => .Evaluate) hsound hsilent hlater

theorem covered_Return (span : Span) (value : Option Expr) :
    Covered source (.Return span value) := by
  intro state later hwritten hsound hsilent hlater flow hflow id hid
  rw [statement, bind_apply, pure_apply] at hflow hsilent hlater
  obtain rfl := Option.some.inj hflow
  cases value with
  | none => cases hid
  | some value =>
      rw [expr?, map_eq_pure_bind, bind_apply, pure_apply] at hid hsilent hlater
      cases hid with
      | Return =>
          cases hwritten with
          | Return hvalue =>
              exact covers_of_visits (hvalue value rfl) (fun _ _ => .Return) hsound hsilent hlater

theorem covered_If {condition : Expr} {yes : Statement} {no : Option Statement}
    (ihyes : Covered source yes) (ihno : ∀ other ∈ no, Covered source other) :
    Covered source (.If condition yes no) := by
  intro state later hwritten hsound hsilent hlater flow hflow id hid
  obtain ⟨hconditionWritten, hyesWritten, hnoWritten⟩ : condition.AllWritten ∧ yes.AllWritten ∧
      ∀ other ∈ no, other.AllWritten := by
    cases hwritten with
    | If hcondition hyes hno => exact ⟨hcondition, hyes, hno⟩
  have hcondition := expr_runs source condition hsound
  have hyes : RunsAt (inScope (statement source yes)) (fun _ _ => True)
      (expr source condition state).2 :=
    .inScope hcondition.sound fun _ _ => statement_runs source yes
  rw [statement, bind_apply, bind_apply] at hflow hsilent hlater
  cases no with
  | none =>
      simp only [bind_apply, pure_apply] at hflow hsilent hlater
      obtain rfl := Option.some.inj hflow
      cases hid with
      | Condition =>
          exact covers_of_visits hconditionWritten (fun _ _ => .Condition) hsound (hyes.after.silent hsilent)
            (hyes.after.grows.trans hlater)
      | Yes hvalue =>
          exact (ihyes.inScope hyesWritten hcondition.sound hsilent hlater id hvalue).imp fun _ _ => .Yes
  | some other =>
      have hno : RunsAt (inScope (statement source other)) (fun _ _ => True)
          (inScope (statement source yes) (expr source condition state).2).2 :=
        .inScope hyes.sound fun _ _ => statement_runs source other
      simp only [bind_apply, pure_apply] at hflow hsilent hlater
      obtain rfl := Option.some.inj hflow
      cases hid with
      | Condition =>
          have hafter := hyes.after.trans hno.after
          exact covers_of_visits hconditionWritten (fun _ _ => .Condition) hsound (hafter.silent hsilent)
            (hafter.grows.trans hlater)
      | Yes hvalue =>
          exact (ihyes.inScope hyesWritten hcondition.sound (hno.after.silent hsilent)
            (hno.after.grows.trans hlater) id hvalue).imp fun _ _ => .Yes
      | No hvalue =>
          exact ((ihno other rfl).inScope (hnoWritten other rfl) hyes.sound hsilent hlater id hvalue).imp
            fun _ _ => .No

theorem covered_While {condition : Expr} {body : Statement} (ih : Covered source body) :
    Covered source (.While condition body) := by
  intro state later hwritten hsound hsilent hlater flow hflow id hid
  obtain ⟨hconditionWritten, hbodyWritten⟩ : condition.AllWritten ∧ body.AllWritten := by
    cases hwritten with
    | While hcondition hbody => exact ⟨hcondition, hbody⟩
  have hcondition := expr_runs source condition hsound
  have hbody : RunsAt (inScope (statement source body)) (fun _ _ => True)
      (expr source condition state).2 :=
    .inScope hcondition.sound fun _ _ => statement_runs source body
  simp only [statement, bind_apply, pure_apply] at hflow hsilent hlater
  obtain rfl := Option.some.inj hflow
  cases hid with
  | WhileCondition =>
      exact covers_of_visits hconditionWritten (fun _ _ => .WhileCondition) hsound
        (hbody.after.silent hsilent)
        (hbody.after.grows.trans hlater)
  | WhileBody hvalue =>
      exact (ih.inScope hbodyWritten hcondition.sound hsilent hlater id hvalue).imp fun _ _ => .WhileBody

theorem covered_Block {span : Span} {written : List Statement}
    (ih : ∀ one ∈ written, Covered source one) : Covered source (.Block span written) := by
  intro state later hwritten hsound hsilent hlater flow hflow id hid
  rw [statement, bind_apply, pure_apply, inScope_apply] at hflow hsilent hlater
  obtain rfl := Option.some.inj hflow
  have hinner : (statements source written (pushScope state).2).2.Silent :=
    ⟨hsilent.1, hsilent.2⟩
  have hpushed : (pushScope state).2.Sound := Program.Sound.push hsound
  cases hid with
  | Block hmem hvalue =>
      have hwritten : ∀ one ∈ written, one.AllWritten := by
        cases hwritten with
        | Block hwritten => exact hwritten
      exact (covered_statements ih hwritten hpushed hinner hlater _ hmem id hvalue).imp fun _ _ => .Block

theorem expr?_apply (written : Expr) (state : LoweringState) :
    expr? source (some written) state =
      (some (expr source written state).1, (expr source written state).2) :=
  rfl

theorem expr?_none (state : LoweringState) : expr? source none state = (none, state) :=
  rfl

theorem statement_For_eq (first : Option Statement) (condition step : Option Expr)
    (body : Statement) :
    statement source (.For first condition step body) = inScope (do
      let first ← first? source first
      let condition ← expr? source condition
      let step ← expr? source step
      let body ← inScope (statement source body)
      return some (.For first condition step (body.getD (.Block [])))) := by
  rw [statement]
  cases first with
  | none => simp only [first?, pure_bind]
  | some one => simp only [first?]

theorem covered_For {first : Option Statement} {condition step : Option Expr} {body : Statement}
    (ihfirst : ∀ one ∈ first, Covered source one) (ihbody : Covered source body) :
    Covered source (.For first condition step body) := by
  intro state later hwritten hsound hsilent hlater flow hflow id hid
  obtain ⟨hfirstWritten, hconditionWritten, hstepWritten, hbodyWritten⟩ :
      (∀ one ∈ first, one.AllWritten) ∧ (∀ written ∈ condition, written.AllWritten) ∧
        (∀ written ∈ step, written.AllWritten) ∧ body.AllWritten := by
    cases hwritten with
    | For hfirst hcondition hstep hbody => exact ⟨hfirst, hcondition, hstep, hbody⟩
  have hpushed : (pushScope state).2.Sound := Program.Sound.push hsound
  have hfirst : RunsAt (first? source first) (fun _ _ => True) (pushScope state).2 := by
    cases first with
    | none => exact .pure hpushed trivial
    | some one => exact statement_runs source one hpushed
  have hcondition := expr?_runs source condition hfirst.sound
  have hstep := expr?_runs source step hcondition.sound
  have hbody : RunsAt (inScope (statement source body)) (fun _ _ => True)
      (expr? source step (expr? source condition (first? source first (pushScope state).2).2).2).2 :=
    .inScope hstep.sound fun _ _ => statement_runs source body
  rw [statement_For_eq, inScope_apply] at hflow hsilent hlater
  simp only [bind_apply, pure_apply] at hflow hsilent hlater
  obtain rfl := Option.some.inj hflow
  have hsilent : (inScope (statement source body) (expr? source step (expr? source condition
      (first? source first (pushScope state).2).2).2).2).2.Silent := ⟨hsilent.1, hsilent.2⟩
  have hbehind := hstep.after.trans hbody.after
  rcases hid.of_For with ⟨one, hone, hvalue⟩ | hvalue | hvalue | hvalue
  · cases first with
    | none => cases hone
    | some first =>
        have hafter := hcondition.after.trans hbehind
        exact (ihfirst first rfl _ later (hfirstWritten first rfl) hpushed (hafter.silent hsilent)
          (hafter.grows.trans hlater) one hone id hvalue).imp fun _ _ => .First
  · cases condition with
    | none => cases hvalue
    | some condition =>
        rw [expr?_apply] at hvalue hbehind hsilent hlater
        obtain rfl := Option.some.inj hvalue
        exact covers_of_visits (hconditionWritten condition rfl) (fun _ _ => .ForCondition)
          hfirst.sound (hbehind.silent hsilent) (hbehind.grows.trans hlater)
  · cases step with
    | none => cases hvalue
    | some step =>
        obtain rfl := Option.some.inj hvalue
        exact covers_of_visits (hstepWritten step rfl) (fun _ _ => .Step) hcondition.sound
          (hbody.after.silent hsilent) (hbody.after.grows.trans hlater)
  · exact (ihbody.inScope hbodyWritten hstep.sound hsilent hlater id hvalue).imp fun _ _ => .ForBody

theorem localVariable_apply (declared : VariableTree) :
    localVariable source declared state =
      declareNode (localDeclared source declared state).1 declared.name declared.span
        (expr? source declared.value (type declared.type state).2).1
        (localDeclared source declared state).2 := by
  simp only [localVariable, localDeclared, bind_apply]

theorem localDeclared_runs (declared : VariableTree) (hsound : state.Sound) :
    (localDeclared source declared state).2.Sound ∧ (localDeclared source declared state).2.From
      (expr? source declared.value (type declared.type state).2).2 := by
  have htype := type_runs declared.type hsound
  have hvalue := expr?_runs source declared.value htype.sound
  have hdeclare := RunsAt.declareVariable hvalue.sound declared.name false
    (TypeTable.Known.keeps hvalue.after.grows.types htype.answer)
  exact ⟨hdeclare.sound, hdeclare.after⟩

theorem covered_Local (declared : VariableTree) : Covered source (.Local declared) := by
  intro state later hwritten hsound hsilent hlater flow hflow value hid id hbelow hkind
  rw [statement, bind_apply, pure_apply] at hflow hsilent hlater
  obtain rfl := Option.some.inj hflow
  obtain ⟨_, hnameWritten, hvalueWritten⟩ : declared.AllWritten := by
    cases hwritten with
    | Local hdeclared => exact hdeclared
  obtain ⟨hpoint, hafter⟩ := @localDeclared_runs source state declared hsound
  have htype := type_runs declared.type hsound
  cases hid with
  | Evaluate =>
      rw [localVariable_apply] at hbelow hsilent hlater
      have hquiet := (RunsAt.declareNode hpoint _ declared.name declared.span _).after.silent hsilent
      cases hvalue : declared.value with
      | none =>
          -- a declaration without a value has nothing below it
          rw [hvalue, expr?_none] at hbelow hlater
          have hroot : later.arena.kind (declareNode (localDeclared source declared state).1
              declared.name declared.span none (localDeclared source declared state).2).1 =
                .Declare (localDeclared source declared state).1 none := kind_leaf hlater
          have hid := below_leaf hbelow (by rw [Arena.operands, hroot]; rfl)
          rw [hid] at hkind
          exact absurd (hkind.symm.trans (congrArg NodeKind.declares hroot)) (by simp [NodeKind.declares])
      | some value =>
          rw [hvalue, expr?_apply] at hafter hbelow hlater hsilent
          have hvalueSilent := hafter.silent hquiet
          have hfine := expr_fine (hvalueWritten value hvalue) htype.sound hvalueSilent
          have hnode := (expr_runs source value htype.sound).answer
          have hkindValue := (hnode.kind_eq hafter.grows).trans_ne hfine
          have hbound : (localDeclared source declared state).2.program.binding?
              (localDeclared source declared state).2.scopes declared.name.text =
                some (.Variable (localDeclared source declared state).1) :=
            binding?_of_declareVariable hquiet
          have hbehind : (later.Extends (expr source value (type declared.type state).2).2.program) := by
            refine hafter.grows.trans (.trans ?_ hlater)
            exact (RunsAt.declareNode hpoint _ declared.name declared.span _).after.grows
          rw [@declareNode_apply source _ _ _ _ _ hkindValue hbound] at hbelow hlater hsilent
          rcases below_construct hpoint hbound hlater hbelow hkind with hid | hbelow
          · have hexpr := expr_runs source (.Identifier declared.name.span declared.name.text) hpoint
            have htype := Program.Sound.variableType_known hpoint (localDeclared source declared state).1
            have hrest := constructNode_runs hexpr.sound (localDeclared source declared state).1
              declared.name declared.span (htype.keeps hexpr.after.grows.types)
              (expr source value (type declared.type state).2).1
              (expr source (.Identifier declared.name.span declared.name.text)
                (localDeclared source declared state).2).1
            rw [bind_apply] at hlater hsilent
            have hname : (Expr.Identifier declared.name.span declared.name.text).AllWritten :=
              .of_parts hnameWritten (List.forall_mem_nil _)
            exact ⟨_, _, .LocalName hvalue hfine hbound, hname, hpoint, hrest.after.silent hsilent,
              hrest.after.grows.trans hlater, hid⟩
          · exact covers_of_visits (hvalueWritten value hvalue) (fun _ _ => .Local hvalue) htype.sound
              hvalueSilent hbehind id hbelow hkind

theorem covered (source : List Char) (written : Statement) : Covered source written := by
  induction written with
  | Evaluate value => exact covered_Evaluate value
  | Local declared => exact covered_Local declared
  | Return span value => exact covered_Return span value
  | If condition yes no ihyes ihno => exact covered_If ihyes ihno
  | While condition body ih => exact covered_While ih
  | For first condition step body ihfirst ihbody => exact covered_For ihfirst ihbody
  | Block span written ih => exact covered_Block ih
  | Empty span =>
      intro state later hwritten hsound hsilent hlater flow hflow
      rw [statement] at hflow
      cases hflow

end Lower

end EffectLint
