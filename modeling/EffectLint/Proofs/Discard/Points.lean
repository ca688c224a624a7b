import EffectLint.Proofs.Discard.WorkStack
import EffectLint.Proofs.Lowering.Stages
import EffectLint.Proofs.Lowering.Roots
import EffectLint.Proofs.Scoping.Module

/-!
What stands in the bodies of functions, thrown away or kept, and where lowering comes to it. A
lowered body throws away the nodes that are made of what is thrown away in the text, one for each
place where something is thrown away and nothing else.
-/

namespace EffectLint

-- A statement, or the step of a loop, whose value is thrown away.
inductive Thrown where
  | Value (value : Expr)
  | Variable (declared : VariableTree)
  | Step (step : Expr)

namespace Thrown

-- Where it starts in the source.
def start : Thrown → Nat
  | .Value value | .Step value => value.span.start
  | .Variable declared => declared.span.start

def site : Thrown → DiscardSite
  | .Value _ | .Variable _ => .Statement
  | .Step _ => .ForStep

def lowered (source : List Char) : Thrown → Lower NodeId
  | .Value value | .Step value => Lower.expr source value
  | .Variable declared => Lower.localVariable source declared

end Thrown

-- What stands in a statement with a value of its own.
inductive Standing where
  | Thrown (thrown : Thrown)
  -- a condition, or what is returned
  | Kept (value : Expr)

namespace Standing

def thrown? : Standing → Option EffectLint.Thrown
  | .Thrown thrown => some thrown
  | .Kept _ => none

def lowered (source : List Char) : Standing → Lower NodeId
  | .Thrown thrown => thrown.lowered source
  | .Kept value => Lower.expr source value

end Standing

-- Where lowering comes to something that stands in a statement.
structure Point where
  standing : Standing
  state : LoweringState

namespace Point

variable (source : List Char) (point : Point)

-- The node that is made of it.
def value : NodeId :=
  (point.standing.lowered source point.state).1

-- The program behind it.
def behind : Program :=
  (point.standing.lowered source point.state).2.program

def discard? : Option Discard :=
  point.standing.thrown?.map fun thrown => ⟨point.value source, thrown.site⟩

end Point

namespace Statement

mutual

-- What a statement throws away, in the order in which it is listed.
def thrown : Statement → List Thrown
  | .Evaluate value => [.Value value]
  | .Local declared => [.Variable declared]
  | .Return _ _ | .Empty _ => []
  | .If _ yes no =>
      yes.thrown ++
        match no with
        | some no => no.thrown
        | none => []
  | .While _ body => body.thrown
  | .For first _ step body =>
      let header := match first with
        | some first => first.thrown
        | none => []
      header ++ body.thrown ++ step.toList.map .Step
  | .Block _ statements => thrownAll statements

def thrownAll : List Statement → List Thrown
  | [] => []
  | first :: rest => first.thrown ++ thrownAll rest

end

mutual

-- All that stands in a statement, at any depth.
def standing : Statement → List Standing
  | .Evaluate value => [.Thrown (.Value value)]
  | .Local declared => [.Thrown (.Variable declared)]
  | .Return _ value => value.toList.map .Kept
  | .If condition yes no =>
      .Kept condition :: yes.standing ++
        match no with
        | some no => no.standing
        | none => []
  | .While condition body => .Kept condition :: body.standing
  | .For first condition step body =>
      let header := match first with
        | some first => first.standing
        | none => []
      header ++ condition.toList.map .Kept ++ body.standing ++
        step.toList.map fun step => .Thrown (.Step step)
  | .Block _ statements => standingAll statements
  | .Empty _ => []

def standingAll : List Statement → List Standing
  | [] => []
  | first :: rest => first.standing ++ standingAll rest

end

variable (source : List Char)

open Lower in
mutual

-- Where lowering a statement from a state comes to what stands in it. The step of a loop is lowered
-- before the body and listed behind it.
def points : Statement → LoweringState → List Point
  | .Evaluate value, state => [⟨.Thrown (.Value value), state⟩]
  | .Local declared, state => [⟨.Thrown (.Variable declared), state⟩]
  | .Return _ value, state => value.toList.map (⟨.Kept ·, state⟩)
  | .If condition yes no, state =>
      let asked := (expr source condition state).2
      let otherwise := (inScope (statement source yes) asked).2
      ⟨.Kept condition, state⟩ :: yes.points (pushScope asked).2 ++
        match no with
        | some no => no.points (pushScope otherwise).2
        | none => []
  | .While condition body, state =>
      let asked := (expr source condition state).2
      ⟨.Kept condition, state⟩ :: body.points (pushScope asked).2
  | .For first condition step body, state =>
      let opened := (pushScope state).2
      let begun := (Lower.first? source first opened).2
      let asked := (expr? source condition begun).2
      let stepped := (expr? source step asked).2
      let header := match first with
        | some first => first.points opened
        | none => []
      header ++ condition.toList.map (⟨.Kept ·, begun⟩) ++ body.points (pushScope stepped).2 ++
        step.toList.map fun step => ⟨.Thrown (.Step step), asked⟩
  | .Block _ statements, state => pointsAll statements (pushScope state).2
  | .Empty _, _ => []

def pointsAll : List Statement → LoweringState → List Point
  | [], _ => []
  | first :: rest, state => first.points state ++ pointsAll rest (statement source first state).2

end

end Statement

namespace FunctionTree

-- Parameters and body share a scope.
def points (source : List Char) (declared : FunctionTree) (state : LoweringState) : List Point :=
  match declared.body with
  | some block =>
      Statement.pointsAll source block.statements
        (Lower.parameterVariables declared.parameters (Lower.pushScope state).2).2
  | none => []

def thrown (declared : FunctionTree) : List Thrown :=
  Statement.thrownAll (declared.body.toList.flatMap Block.statements)

def standing (declared : FunctionTree) : List Standing :=
  Statement.standingAll (declared.body.toList.flatMap Block.statements)

end FunctionTree

-- Functions with the states from which their bodies are lowered, one behind the other.
def Lower.entries (source : List Char) :
    List (FunctionId × FunctionTree) → LoweringState → List (FunctionTree × LoweringState)
  | [], _ => []
  | (function, declared) :: rest, state =>
      (declared, state) :: entries source rest (Lower.body source function declared state).2

def lowerEntries (source : List Char) (items : List Item) (reporter : Reporter) :
    List (FunctionTree × LoweringState) :=
  let outside := Lower.outside source items (.start reporter)
  Lower.entries source outside.1 outside.2

-- Where lowering a module comes to what stands in the bodies of its functions.
def lowerPoints (source : List Char) (items : List Item) (reporter : Reporter) : List Point :=
  (lowerEntries source items reporter).flatMap fun (declared, state) => declared.points source state

namespace Flow

theorem valuesAll_some (flow : Flow) : valuesAll (some flow).toList = flow.values :=
  List.append_nil _

theorem values_If (condition : NodeId) (yes : Flow) (no : Option Flow) :
    values (.If condition yes no) = [condition] ++ (yes.values ++ valuesAll no.toList) := by
  cases no <;> simp [values, valuesAll]

theorem values_For (first : Option Flow) (condition step : Option NodeId) (body : Flow) :
    values (.For first condition step body) =
      valuesAll first.toList ++ (condition.toList ++ (step.toList ++ body.values)) := by
  cases first <;> simp [values, valuesAll]

end Flow

open Lower

namespace Statement

variable {source : List Char}

theorem thrown_If (condition : Expr) (yes : Statement) (no : Option Statement) :
    thrown (.If condition yes no) = thrownAll (yes :: no.toList) := by
  cases no <;> simp [thrown, thrownAll]

theorem thrown_For (first : Option Statement) (condition step : Option Expr) (body : Statement) :
    thrown (.For first condition step body) =
      thrownAll first.toList ++ (body.thrown ++ step.toList.map .Step) := by
  cases first <;> simp [thrown, thrownAll]

theorem standing_If (condition : Expr) (yes : Statement) (no : Option Statement) :
    standing (.If condition yes no) = .Kept condition :: standingAll (yes :: no.toList) := by
  cases no <;> simp [standing, standingAll]

theorem standing_For (first : Option Statement) (condition step : Option Expr) (body : Statement) :
    standing (.For first condition step body) =
      standingAll first.toList ++ (condition.toList.map .Kept ++
        (body.standing ++ step.toList.map fun step => .Thrown (.Step step))) := by
  cases first <;> simp [standing, standingAll]

theorem thrownAll_eq {written : List Statement}
    (h : ∀ one ∈ written, one.standing.filterMap Standing.thrown? = one.thrown) :
    (standingAll written).filterMap Standing.thrown? = thrownAll written := by
  induction written with
  | nil => rfl
  | cons first rest ih =>
      obtain ⟨hfirst, hrest⟩ := List.forall_mem_cons.mp h
      rw [standingAll, List.filterMap_append, hfirst, ih hrest, thrownAll]

theorem filterMap_kept (written : List Expr) :
    (written.map Standing.Kept).filterMap Standing.thrown? = [] := by
  simp [List.filterMap_map, Standing.thrown?, Function.comp_def]

theorem thrown_eq (written : Statement) :
    written.standing.filterMap Standing.thrown? = written.thrown := by
  induction written with
  | Evaluate value => rfl
  | Local declared => rfl
  | Return span value => exact filterMap_kept _
  | If condition yes no ihyes ihno =>
      rw [standing_If, thrown_If, List.filterMap_cons_none rfl]
      exact thrownAll_eq (List.forall_mem_cons.mpr
        ⟨ihyes, fun one hmem => ihno one (Option.mem_toList.mp hmem)⟩)
  | While condition body ih => exact ih
  | For first condition step body ihfirst ihbody =>
      have hfirst := thrownAll_eq fun one hmem => ihfirst one (Option.mem_toList.mp hmem)
      have hstep : (step.toList.map fun step => Standing.Thrown (.Step step)).filterMap
          Standing.thrown? = step.toList.map .Step := by
        cases step <;> rfl
      rw [standing_For, thrown_For, List.filterMap_append, List.filterMap_append,
        List.filterMap_append, hfirst, filterMap_kept, ihbody, hstep, List.nil_append]
  | Block span written ih => exact thrownAll_eq ih
  | Empty span => rfl

theorem points_If (source : List Char) (condition : Expr) (yes : Statement) (no : Option Statement)
    (state : LoweringState) :
    points source (.If condition yes no) state =
      ⟨.Kept condition, state⟩ :: (yes.points source (pushScope (expr source condition state).2).2 ++
        pointsAll source no.toList (pushScope
          (inScope (statement source yes) (expr source condition state).2).2).2) := by
  cases no <;> simp [points, pointsAll]

theorem points_For (source : List Char) (first : Option Statement) (condition step : Option Expr)
    (body : Statement) (state : LoweringState) :
    let begun := (Lower.first? source first (pushScope state).2).2
    let asked := (expr? source condition begun).2
    points source (.For first condition step body) state =
      pointsAll source first.toList (pushScope state).2 ++
        (condition.toList.map (⟨.Kept ·, begun⟩) ++
          (body.points source (pushScope (expr? source step asked).2).2 ++
            step.toList.map fun step => ⟨.Thrown (.Step step), asked⟩)) := by
  cases first <;> simp [points, pointsAll]

theorem standingAll_eq {written : List Statement}
    (h : ∀ one ∈ written, ∀ state, (one.points source state).map Point.standing = one.standing)
    (state : LoweringState) :
    (pointsAll source written state).map Point.standing = standingAll written := by
  induction written generalizing state with
  | nil => rfl
  | cons first rest ih =>
      obtain ⟨hfirst, hrest⟩ := List.forall_mem_cons.mp h
      rw [pointsAll, List.map_append, hfirst, ih hrest, standingAll]

theorem map_standing_kept (written : List Expr) (state : LoweringState) :
    (written.map fun value => (⟨.Kept value, state⟩ : Point)).map Point.standing =
      written.map .Kept := by
  simp [Function.comp_def]

-- Lowering comes to everything that stands in a statement, and to each of it once.
theorem standing_eq (source : List Char) (written : Statement) (state : LoweringState) :
    (written.points source state).map Point.standing = written.standing := by
  induction written generalizing state with
  | Evaluate value => rfl
  | Local declared => rfl
  | Return span value => exact map_standing_kept _ _
  | If condition yes no ihyes ihno =>
      have hno := standingAll_eq fun one hmem => ihno one (Option.mem_toList.mp hmem)
      rw [points_If, standing_If, List.map_cons, List.map_append, ihyes, hno, standingAll]
  | While condition body ih =>
      rw [points, List.map_cons, ih, standing]
  | For first condition step body ihfirst ihbody =>
      have hfirst := standingAll_eq fun one hmem => ihfirst one (Option.mem_toList.mp hmem)
      rw [points_For, standing_For, List.map_append, List.map_append, List.map_append, hfirst,
        map_standing_kept, ihbody, List.map_map]
      rfl
  | Block span written ih => exact standingAll_eq ih _
  | Empty span => rfl

end Statement

-- What is thrown away and what has a value at all, counted at points on the way to a program.
structure Tallied (source : List Char) (later : Program) (points : List Point)
    (discards : List Discard) (values : List NodeId) : Prop where
  discards_eq : discards = points.filterMap (Point.discard? source)
  values_perm : values.Perm (points.map (Point.value source))
  reached : ∀ point ∈ points, later.Extends (point.behind source)

namespace Tallied

variable {source : List Char} {later : Program} {state : LoweringState} {front back : List Point}
  {discards discards' : List Discard} {values values' : List NodeId}

theorem nil : Tallied source later [] [] [] :=
  ⟨rfl, .nil, nofun⟩

theorem append (hfront : Tallied source later front discards values)
    (hback : Tallied source later back discards' values') :
    Tallied source later (front ++ back) (discards ++ discards') (values ++ values') where
  discards_eq := by rw [List.filterMap_append, ← hfront.discards_eq, ← hback.discards_eq]
  values_perm := by
    rw [List.map_append]
    exact hfront.values_perm.append hback.values_perm
  reached := List.forall_mem_append.mpr ⟨hfront.reached, hback.reached⟩

theorem perm (h : Tallied source later front discards values) (hperm : values'.Perm values) :
    Tallied source later front discards values' :=
  ⟨h.discards_eq, hperm.trans h.values_perm, h.reached⟩

theorem kept {value : Expr} (h : later.Extends (expr source value state).2.program) :
    Tallied source later [⟨.Kept value, state⟩] [] [(expr source value state).1] :=
  ⟨rfl, .refl _, List.forall_mem_singleton.mpr h⟩

theorem thrown (thrown : Thrown) (h : later.Extends (thrown.lowered source state).2.program) :
    Tallied source later [⟨.Thrown thrown, state⟩] [⟨(thrown.lowered source state).1, thrown.site⟩]
      [(thrown.lowered source state).1] :=
  ⟨rfl, .refl _, List.forall_mem_singleton.mpr h⟩

theorem kept? {value : Option Expr} (h : later.Extends (expr? source value state).2.program) :
    Tallied source later (value.toList.map (⟨.Kept ·, state⟩)) []
      (expr? source value state).1.toList := by
  cases value with
  | none => exact nil
  | some value => exact kept h

theorem step? {step : Option Expr} (h : later.Extends (expr? source step state).2.program) :
    Tallied source later (step.toList.map fun step => ⟨.Thrown (.Step step), state⟩)
      ((expr? source step state).1.toList.map (⟨·, .ForStep⟩))
      (expr? source step state).1.toList := by
  cases step with
  | none => exact nil
  | some step => exact thrown (.Step step) h

end Tallied

namespace Lower

variable {source : List Char} {later : Program}

theorem branch_grows (written : Statement) : Grows (inScope (statement source written)) :=
  stepwise_grows.inScope (statement_grows source written)

theorem otherwise?_grows (written : Option Statement) : Grows (otherwise? source written) := by
  cases written with
  | none => exact stepwise_grows.pure _
  | some other => exact stepwise_grows.bind (branch_grows other) fun _ => stepwise_grows.pure _

-- What is made of a statement against what stands in it.
def Tallies (source : List Char) (written : Statement) : Prop :=
  ∀ state later, later.Extends (statement source written state).2.program →
    Tallied source later (written.points source state)
      (Flow.discardsAll (statement source written state).1.toList)
      (Flow.valuesAll (statement source written state).1.toList)

theorem Tallies.all {written : List Statement} (h : ∀ one ∈ written, Tallies source one)
    (state : LoweringState) (hlater : later.Extends (statements source written state).2.program) :
    Tallied source later (Statement.pointsAll source written state)
      (Flow.discardsAll (statements source written state).1)
      (Flow.valuesAll (statements source written state).1) := by
  induction written generalizing state with
  | nil => exact .nil
  | cons first rest ih =>
      obtain ⟨hfirst, hrest⟩ := List.forall_mem_cons.mp h
      rw [statements, bind_apply, bind_apply, pure_apply] at hlater ⊢
      have hgrows := (statements_grows source rest (statement source first state).2).trans hlater
      rw [Statement.pointsAll, Flow.discardsAll_append, Flow.valuesAll_append]
      exact (hfirst state later hgrows).append (ih hrest _ hlater)

-- A scope around a statement does not show.
theorem Tallies.branch {written : Statement} (h : Tallies source written) (state : LoweringState)
    (hlater : later.Extends (inScope (statement source written) state).2.program) :
    Tallied source later (written.points source (pushScope state).2)
      ((inScope (statement source written) state).1.getD (.Block [])).discards
      ((inScope (statement source written) state).1.getD (.Block [])).values := by
  rw [Flow.discards_getD, Flow.values_getD]
  exact h (pushScope state).2 later hlater

theorem Tallies.otherwise? {written : Option Statement}
    (h : ∀ other ∈ written, Tallies source other) (state : LoweringState)
    (hlater : later.Extends (otherwise? source written state).2.program) :
    Tallied source later (Statement.pointsAll source written.toList (pushScope state).2)
      (Flow.discardsAll (Lower.otherwise? source written state).1.toList)
      (Flow.valuesAll (Lower.otherwise? source written state).1.toList) := by
  cases written with
  | none => exact .nil
  | some other =>
      have hother := (h other rfl).branch state hlater
      simpa [Statement.pointsAll, Flow.valuesAll, Lower.otherwise?, bind_apply, pure_apply] using hother

theorem Tallies.first? {written : Option Statement}
    (h : ∀ one ∈ written, Tallies source one) (state : LoweringState)
    (hlater : later.Extends (first? source written state).2.program) :
    Tallied source later (Statement.pointsAll source written.toList state)
      (Flow.discardsAll (Lower.first? source written state).1.toList)
      (Flow.valuesAll (Lower.first? source written state).1.toList) := by
  cases written with
  | none => exact .nil
  | some one => simpa [Statement.pointsAll, Lower.first?] using h one rfl state later hlater

theorem tallies_If {condition : Expr} {yes : Statement} {no : Option Statement}
    (hyes : Tallies source yes) (hno : ∀ other ∈ no, Tallies source other) :
    Tallies source (.If condition yes no) := by
  intro state later hlater
  rw [statement_If_eq] at hlater ⊢
  simp only [bind_apply, pure_apply] at hlater ⊢
  have hbehind := (otherwise?_grows no _).trans hlater
  have hcondition := Tallied.kept ((branch_grows yes _).trans hbehind)
  rw [Statement.points_If, Flow.discardsAll_some, Flow.valuesAll_some, Flow.discards_If,
    Flow.values_If]
  exact hcondition.append ((hyes.branch _ hbehind).append (Tallies.otherwise? hno _ hlater))

theorem tallies_For {first : Option Statement} {condition step : Option Expr} {body : Statement}
    (hfirst : ∀ one ∈ first, Tallies source one) (hbody : Tallies source body) :
    Tallies source (.For first condition step body) := by
  intro state later hlater
  rw [statement_For_eq, inScope_apply] at hlater ⊢
  simp only [bind_apply, pure_apply] at hlater ⊢
  have hstepped := (branch_grows body _).trans hlater
  have hasked := (expr?_grows source step _).trans hstepped
  have hbegun := (expr?_grows source condition _).trans hasked
  have hall := (Tallies.first? hfirst _ hbegun).append
    ((Tallied.kept? hasked).append ((hbody.branch _ hlater).append (Tallied.step? hstepped)))
  rw [Statement.points_For, Flow.discardsAll_some, Flow.valuesAll_some, Flow.discards_For,
    Flow.values_For]
  -- the node of the step stands before those of the body, which are listed first
  exact hall.perm ((List.perm_append_comm.append_left _).append_left _)

theorem tallies (source : List Char) (written : Statement) : Tallies source written := by
  induction written with
  | Evaluate value =>
      intro state later hlater
      exact .thrown (.Value value) hlater
  | Local declared =>
      intro state later hlater
      exact .thrown (.Variable declared) hlater
  | Return span value =>
      intro state later hlater
      rw [statement, bind_apply, pure_apply] at hlater ⊢
      rw [Flow.discardsAll_some, Flow.valuesAll_some]
      exact .kept? hlater
  | If condition yes no ihyes ihno => exact tallies_If ihyes ihno
  | While condition body ih =>
      intro state later hlater
      rw [statement, bind_apply, bind_apply, pure_apply] at hlater ⊢
      rw [Flow.discardsAll_some, Flow.valuesAll_some]
      exact (Tallied.kept ((branch_grows body _).trans hlater)).append (ih.branch _ hlater)
  | For first condition step body ihfirst ihbody => exact tallies_For ihfirst ihbody
  | Block span written ih =>
      intro state later hlater
      rw [statement, bind_apply, pure_apply, inScope_apply] at hlater ⊢
      rw [Flow.discardsAll_some, Flow.valuesAll_some]
      exact Tallies.all ih (pushScope state).2 hlater
  | Empty span => exact fun _ _ _ => .nil

-- What is made of the body of a function against what stands in it.
def BodyTallied (source : List Char) (later : Program) (entry : FunctionTree × LoweringState)
    (body : FunctionBody) : Prop :=
  Tallied source later (entry.1.points source entry.2) body.discards body.values

theorem body_tallied {function : FunctionId} {declared : FunctionTree} {state : LoweringState}
    (hlater : later.Extends (body source function declared state).2.program) :
    ∃ added, (body source function declared state).2.program.bodies.toList =
        state.program.bodies.toList ++ [added] ∧
      BodyTallied source later (declared, state) added := by
  rw [body_eq] at hlater ⊢
  cases hbody : declared.body with
  | none =>
      refine ⟨⟨function, none⟩, Array.toList_push, ?_⟩
      rw [BodyTallied, FunctionTree.points, hbody]
      exact .nil
  | some written =>
      rw [hbody] at hlater
      let entered := (parameterVariables declared.parameters (pushScope state).2).2
      have hkept : (inScope (block source declared.parameters written.statements)
          state).2.program.bodies = state.program.bodies :=
        stepwise_keepsBodies.inScope (block_keepsBodies _ _) state
      have hblock : later.Extends (statements source written.statements entered).2.program :=
        (Program.Extends.addBody _).trans hlater
      refine ⟨⟨function, some (statements source written.statements entered).1⟩, ?_, ?_⟩
      · simp only [bind_apply, addBody, Array.toList_push, hkept]
        rfl
      · rw [BodyTallied, FunctionTree.points, hbody]
        exact Tallies.all (fun one _ => tallies source one) entered hblock

theorem bodies_tallied {functions : List (FunctionId × FunctionTree)} {state : LoweringState}
    (hlater : later.Extends (bodies source functions state).2.program) :
    ∃ added, (bodies source functions state).2.program.bodies.toList =
        state.program.bodies.toList ++ added ∧
      List.Forall₂ (BodyTallied source later) (entries source functions state) added := by
  induction functions generalizing state with
  | nil => exact ⟨[], (List.append_nil _).symm, .nil⟩
  | cons first rest ih =>
      rw [bodies_cons, bind_apply] at hlater ⊢
      obtain ⟨added, hadded, hall⟩ := ih hlater
      obtain ⟨one, hone, hfirst⟩ := body_tallied ((bodies_grows source rest _).trans hlater)
      refine ⟨one :: added, ?_, .cons hfirst hall⟩
      rw [hadded, hone, List.append_assoc, List.singleton_append]

theorem entries_functions (source : List Char) (functions : List (FunctionId × FunctionTree))
    (state : LoweringState) :
    (entries source functions state).map Prod.fst = functions.map Prod.snd := by
  induction functions generalizing state with
  | nil => rfl
  | cons first rest ih => rw [entries, List.map_cons, ih, List.map_cons]

end Lower

theorem lowerEntries_functions (source : List Char) (items : List Item) (reporter : Reporter) :
    (lowerEntries source items reporter).map Prod.fst = items.filterMap Item.function? := by
  rw [lowerEntries, entries_functions]
  exact functionsAndGlobals_functions source items
    (items.forM typeAlias (items.forM importOrClass (.start reporter)).2).2

theorem FunctionTree.standing_eq (source : List Char) (declared : FunctionTree)
    (state : LoweringState) :
    (declared.points source state).map Point.standing = declared.standing := by
  rw [points, standing]
  cases declared.body with
  | none => rfl
  | some written =>
      simpa using Statement.standingAll_eq (fun one _ => one.standing_eq source) _

theorem lower_tallied (source : List Char) (items : List Item) (reporter : Reporter) :
    List.Forall₂ (BodyTallied source (lower source items reporter).program)
      (lowerEntries source items reporter)
      (lower source items reporter).program.bodies.toList := by
  have hkept : (outside source items (.start reporter)).2.program.bodies = #[] :=
    outside_keepsBodies items (.start reporter)
  rw [lower_eq]
  obtain ⟨added, hadded, hall⟩ := bodies_tallied (.refl (bodies source
    (outside source items (.start reporter)).1 (outside source items (.start reporter)).2).2.program)
  rw [hadded, hkept, List.nil_append]
  exact hall

theorem Point.discard?_eq_some {source : List Char} {point : Point} {discard : Discard}
    (h : point.discard? source = some discard) :
    point.value source = discard.value ∧ point.standing.thrown? ≠ none := by
  obtain ⟨thrown, hthrown, rfl⟩ := Option.map_eq_some_iff.mp h
  exact ⟨rfl, by simp [hthrown]⟩

theorem Point.discards_sublist (source : List Char) (points : List Point) :
    ((points.filterMap (discard? source)).map Discard.value).Sublist
      (points.map (Point.value source)) := by
  induction points with
  | nil => exact .slnil
  | cons first rest ih =>
      cases hfirst : first.discard? source with
      | none =>
          rw [List.filterMap_cons_none hfirst]
          exact ih.cons _
      | some discard =>
          rw [List.filterMap_cons_some hfirst, List.map_cons, List.map_cons,
            (Point.discard?_eq_some hfirst).1]
          exact ih.cons_cons _

theorem Tallied.flatMap {source : List Char} {later : Program}
    {entries : List (FunctionTree × LoweringState)} {bodies : List FunctionBody}
    (h : List.Forall₂ (BodyTallied source later) entries bodies) :
    Tallied source later (entries.flatMap fun (declared, state) => declared.points source state)
      (bodies.flatMap FunctionBody.discards) (bodies.flatMap FunctionBody.values) := by
  induction h with
  | nil => exact .nil
  | cons hfirst _ ih => exact hfirst.append ih

theorem lowerPoints_standing (source : List Char) (items : List Item) (reporter : Reporter) :
    (lowerPoints source items reporter).map Point.standing =
      (items.filterMap Item.function?).flatMap FunctionTree.standing := by
  rw [← lowerEntries_functions source items reporter, lowerPoints, List.map_flatMap, List.flatMap_map]
  exact congrArg (List.flatMap · _) (funext fun (declared, state) => declared.standing_eq source state)

-- Neither the points nor the values of global variables share a node with one another.
theorem lower_values_nodup (source : List Char) (items : List Item) (reporter : Reporter) :
    ((lower source items reporter).program.globals.toList.flatMap (·.value.toList) ++
      (lowerPoints source items reporter).map (Point.value source)).Nodup := by
  have htallied := Tallied.flatMap (lower_tallied source items reporter)
  refine (List.Perm.nodup_iff ?_).mp (lower_forest source items reporter).distinct
  exact htallied.values_perm.append_left _

-- The nodes that the bodies of a module throw away are those that are made, on the way to the program,
-- of what is thrown away in the text. Each such place gives a node of its own, and nothing that is
-- kept gives one of them. They are what comes out when the statements are taken from a stack.
theorem discards_each_once (source : List Char) (items : List Item) (reporter : Reporter) :
    let program := (lower source items reporter).program
    let points := lowerPoints source items reporter
    let discarded := program.discards.map Discard.value
    points.map Point.standing = (items.filterMap Item.function?).flatMap FunctionTree.standing ∧
      (∀ point ∈ points, program.Extends (point.behind source)) ∧
      program.discards = points.filterMap (Point.discard? source) ∧
      discarded.Nodup ∧
      (∀ point ∈ points, point.standing.thrown? = none → point.value source ∉ discarded) ∧
      (∀ entry ∈ program.globals.toList, ∀ value ∈ entry.value, value ∉ discarded) ∧
      ∀ body ∈ program.bodies.toList, ∀ flows ∈ body.body, ∀ out,
        Pending.Drains (flows.map .Statement) out ↔ out = body.discards := by
  intro program points discarded
  have htallied : Tallied source program points program.discards
      (program.bodies.toList.flatMap FunctionBody.values) :=
    .flatMap (lower_tallied source items reporter)
  obtain ⟨-, hpoints, hapart⟩ := List.nodup_append.mp (lower_values_nodup source items reporter)
  have hmade : ∀ value ∈ discarded, ∃ point ∈ points,
      point.value source = value ∧ point.standing.thrown? ≠ none := by
    intro value hmem
    obtain ⟨discard, hdiscard, rfl⟩ := List.mem_map.mp hmem
    rw [htallied.discards_eq] at hdiscard
    obtain ⟨point, hpoint, hsome⟩ := List.mem_filterMap.mp hdiscard
    exact ⟨point, hpoint, Point.discard?_eq_some hsome⟩
  refine ⟨lowerPoints_standing source items reporter, htallied.reached, htallied.discards_eq, ?_, ?_,
    ?_, ?_⟩
  · have hsublist := Point.discards_sublist source points
    rw [← htallied.discards_eq] at hsublist
    exact hsublist.nodup hpoints
  · intro point hpoint hkept hmem
    obtain ⟨other, hother, hvalue, hthrown⟩ := hmade _ hmem
    obtain rfl := List.inj_on_of_nodup_map hpoints hother hpoint hvalue
    exact hthrown hkept
  · intro entry hentry value hvalue hmem
    obtain ⟨point, hpoint, hsame, -⟩ := hmade _ hmem
    exact hapart value (List.mem_flatMap.mpr ⟨entry, hentry, Option.mem_toList.mpr hvalue⟩) _
      (List.mem_map_of_mem hpoint) hsame.symm
  · intro body _ flows hflows out
    rw [Pending.drains_iff, Pending.flatMap_discards_map, FunctionBody.discards, hflows]

end EffectLint
