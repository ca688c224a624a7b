import EffectLint.Lowering.Module
import EffectLint.Proofs.Lowering.Steps

/-!
Parentheses mean nothing once a module has been read. Trees that are the same but for the parentheses
in them, wherever these stand and however many there are, are lowered alike: to the same program with
the same numbers, and with the same reports.
-/

namespace EffectLint

namespace Expr

mutual

-- The same expression without its parentheses. All other nodes keep their places.
def ungrouped : Expr → Expr
  | .Identifier span name => .Identifier span name
  | .Integer span value => .Integer span value
  | .Text span text => .Text span text
  | .Boolean span value => .Boolean span value
  | .Null span => .Null span
  | .Paren _ inner => inner.ungrouped
  | .Binary span op left right => .Binary span op left.ungrouped right.ungrouped
  | .Assign span op target value => .Assign span op target.ungrouped value.ungrouped
  | .Conditional span condition yes no =>
      .Conditional span condition.ungrouped yes.ungrouped no.ungrouped
  | .Comma span first second => .Comma span first.ungrouped second.ungrouped
  | .Leading span op operand => .Leading span op operand.ungrouped
  | .Step span op operand => .Step span op operand.ungrouped
  | .Cast span type operand => .Cast span type operand.ungrouped
  | .New span name => .New span name
  | .NewAnonymous span => .NewAnonymous span
  | .Call span callee arguments => .Call span callee.ungrouped (ungroupedList arguments)
  | .Index span base index => .Index span base.ungrouped index.ungrouped
  | .Remove span container key => .Remove span container.ungrouped key.ungrouped
  | .Tuple span elements => .Tuple span (ungroupedList elements)
  | .Assert span condition message =>
      .Assert span condition.ungrouped (ungroupedOption message)
  | .Declare span name value => .Declare span name value.ungrouped
  | .Compiles span operand => .Compiles span operand.ungrouped
  | .Error span => .Error span

def ungroupedList : List Expr → List Expr
  | [] => []
  | first :: rest => first.ungrouped :: ungroupedList rest

def ungroupedOption : Option Expr → Option Expr
  | none => none
  | some written => some written.ungrouped

end

theorem ungroupedList_eq (exprs : List Expr) : ungroupedList exprs = exprs.map ungrouped := by
  induction exprs with
  | nil => rfl
  | cons first rest ih => rw [ungroupedList, ih, List.map_cons]

-- The test for a literal looks through parentheses by itself.
theorem isFalseLiteral_ungrouped (written : Expr) :
    written.ungrouped.isFalseLiteral = written.isFalseLiteral := by
  induction written using Expr.induction with
  | step whole ih =>
      cases whole with
      | Paren span inner => exact ih inner (List.mem_singleton_self inner)
      | _ => rfl

end Expr

def VariableTree.ungrouped (declared : VariableTree) : VariableTree :=
  { declared with value := declared.value.map Expr.ungrouped }

namespace Statement

mutual

def ungrouped : Statement → Statement
  | .Evaluate value => .Evaluate value.ungrouped
  | .Local declared => .Local declared.ungrouped
  | .Return span value => .Return span (value.map Expr.ungrouped)
  | .If condition yes no => .If condition.ungrouped yes.ungrouped (ungroupedOption no)
  | .While condition body => .While condition.ungrouped body.ungrouped
  | .For first condition step body =>
      .For (ungroupedOption first) (condition.map Expr.ungrouped) (step.map Expr.ungrouped)
        body.ungrouped
  | .Block span statements => .Block span (ungroupedList statements)
  | .Empty span => .Empty span

def ungroupedList : List Statement → List Statement
  | [] => []
  | first :: rest => first.ungrouped :: ungroupedList rest

def ungroupedOption : Option Statement → Option Statement
  | none => none
  | some written => some written.ungrouped

end

theorem ungroupedList_eq (statements : List Statement) :
    ungroupedList statements = statements.map ungrouped := by
  induction statements with
  | nil => rfl
  | cons first rest ih => rw [ungroupedList, ih, List.map_cons]

end Statement

def Block.ungrouped (block : Block) : Block :=
  { block with statements := block.statements.map Statement.ungrouped }

def FunctionTree.ungrouped (declared : FunctionTree) : FunctionTree :=
  { declared with body := declared.body.map Block.ungrouped }

def Item.ungrouped : Item → Item
  | .Function declared => .Function declared.ungrouped
  | .Global declared => .Global declared.ungrouped
  | .Import name => .Import name
  | .Alias name target => .Alias name target
  | .Class name => .Class name

namespace Lower

variable (source : List Char)

theorem mapM_ungrouped {exprs : List Expr}
    (h : ∀ part ∈ exprs, expr source part.ungrouped = expr source part) :
    (exprs.map Expr.ungrouped).mapM (expr source) = exprs.mapM (expr source) := by
  induction exprs with
  | nil => rfl
  | cons first rest ih =>
      rw [List.forall_mem_cons] at h
      rw [List.map_cons, List.mapM_cons, List.mapM_cons, h.1, ih h.2]

theorem expr_ungrouped (written : Expr) : expr source written.ungrouped = expr source written := by
  induction written using Expr.induction with
  | step whole ih =>
      cases whole with
      | Identifier | Integer | Text | Boolean | Null | New | NewAnonymous | Error => rfl
      | Paren span inner =>
          rw [expr_eq source (.Paren span inner)]
          exact ih inner (List.mem_singleton_self inner)
      | Call span callee arguments =>
          rw [Expr.parts, List.forall_mem_cons] at ih
          rw [Expr.ungrouped, Expr.ungroupedList_eq, expr_eq, expr_eq source (.Call _ _ _)]
          simp only [ih.1, mapM_ungrouped source ih.2]
      | Tuple span elements =>
          rw [Expr.parts] at ih
          rw [Expr.ungrouped, Expr.ungroupedList_eq, expr_eq, expr_eq source (.Tuple _ _)]
          simp only [mapM_ungrouped source ih]
      | Assert span condition message =>
          rw [Expr.parts, List.forall_mem_cons] at ih
          rw [Expr.ungrouped, expr_eq, expr_eq source (.Assert _ _ _)]
          cases message with
          | none => simp only [ih.1, Expr.isFalseLiteral_ungrouped, Expr.ungroupedOption]
          | some message =>
              have hmessage := ih.2 message (List.mem_singleton_self message)
              simp only [ih.1, Expr.isFalseLiteral_ungrouped, Expr.ungroupedOption, Option.mapM_some,
                hmessage]
      | _ =>
          simp only [Expr.parts, List.forall_mem_cons] at ih
          rw [Expr.ungrouped, expr_eq, expr_eq source]
          simp only [ih]

theorem expr?_ungrouped (written : Option Expr) :
    expr? source (written.map Expr.ungrouped) = expr? source written := by
  cases written with
  | none => rfl
  | some written => rw [Option.map_some, expr?, expr?, expr_ungrouped]

theorem localVariable_ungrouped (declared : VariableTree) :
    localVariable source declared.ungrouped = localVariable source declared := by
  rw [localVariable, VariableTree.ungrouped, expr?_ungrouped, localVariable]

theorem statements_ungrouped {written : List Statement}
    (h : ∀ one ∈ written, statement source one.ungrouped = statement source one) :
    statements source (written.map Statement.ungrouped) = statements source written := by
  induction written with
  | nil => rfl
  | cons first rest ih =>
      rw [List.forall_mem_cons] at h
      rw [List.map_cons, statements, statements, h.1, ih h.2]

theorem statement_ungrouped (written : Statement) :
    statement source written.ungrouped = statement source written := by
  induction written with
  | Evaluate value => rw [Statement.ungrouped, statement, statement, expr_ungrouped]
  | Local declared => rw [Statement.ungrouped, statement, statement, localVariable_ungrouped]
  | Return span value => rw [Statement.ungrouped, statement, statement, expr?_ungrouped]
  | If condition yes no ihyes ihno =>
      rw [Statement.ungrouped, statement, statement, expr_ungrouped, ihyes]
      cases no with
      | none => rfl
      | some other => simp only [Statement.ungroupedOption, ihno other rfl]
  | While condition body ih => rw [Statement.ungrouped, statement, statement, expr_ungrouped, ih]
  | For first condition step body ihfirst ihbody =>
      rw [Statement.ungrouped, statement, statement, expr?_ungrouped, expr?_ungrouped, ihbody]
      cases first with
      | none => rfl
      | some first => simp only [Statement.ungroupedOption, ihfirst first rfl]
  | Block span written ih =>
      rw [Statement.ungrouped, Statement.ungroupedList_eq, statement, statement,
        statements_ungrouped source ih]
  | Empty span => rfl

theorem body_ungrouped (function : FunctionId) (declared : FunctionTree) :
    body source function declared.ungrouped = body source function declared := by
  rw [body, body, FunctionTree.ungrouped]
  cases declared.body with
  | none => rfl
  | some block =>
      simp only [Option.map_some, Block.ungrouped,
        statements_ungrouped source fun one _ => statement_ungrouped source one]

theorem globalVariable_ungrouped (declared : VariableTree) :
    globalVariable source declared.ungrouped = globalVariable source declared := by
  simp only [globalVariable, VariableTree.ungrouped, expr?_ungrouped]

theorem functionOrGlobal_ungrouped (item : Item) :
    functionOrGlobal source item.ungrouped =
      List.map (Prod.map id FunctionTree.ungrouped) <$> functionOrGlobal source item := by
  cases item with
  | Import | Class | Alias => rfl
  | Function declared => rfl
  | Global declared =>
      simp only [Item.ungrouped, functionOrGlobal, globalVariable_ungrouped, map_bind, map_pure,
        List.map_nil]

-- The functions whose bodies are still to come are the same but for parentheses.
theorem functionsAndGlobals_ungrouped (items : List Item) :
    functionsAndGlobals source (items.map Item.ungrouped) =
      List.map (Prod.map id FunctionTree.ungrouped) <$> functionsAndGlobals source items := by
  induction items with
  | nil => rfl
  | cons first rest ih =>
      rw [List.map_cons, functionsAndGlobals, functionsAndGlobals, ih, functionOrGlobal_ungrouped]
      simp only [map_eq_pure_bind, bind_assoc, pure_bind, List.map_append]

theorem forM_ungrouped {declare : Item → Lower Unit} (items : List Item)
    (h : ∀ item, declare item.ungrouped = declare item) :
    (items.map Item.ungrouped).forM declare = items.forM declare := by
  simp only [List.forM_eq_forM, List.forM_map, h]

theorem bodies_ungrouped (functions : List (FunctionId × FunctionTree)) :
    ((functions.map (Prod.map id FunctionTree.ungrouped)).forM fun (function, declared) =>
        body source function declared) =
      functions.forM fun (function, declared) => body source function declared := by
  simp only [List.forM_eq_forM, List.forM_map, Prod.map_fst, Prod.map_snd, id, body_ungrouped]

theorem module_ungrouped (items : List Item) :
    Lower.module source (items.map Item.ungrouped) = Lower.module source items := by
  have himports := @forM_ungrouped importOrClass items fun item => by cases item <;> rfl
  have haliases := @forM_ungrouped typeAlias items fun item => by cases item <;> rfl
  rw [Lower.module, Lower.module, himports, haliases, functionsAndGlobals_ungrouped]
  simp only [map_eq_pure_bind, bind_assoc, pure_bind, bodies_ungrouped]

end Lower

-- However the items of two modules are grouped by parentheses, as long as they are the same without,
-- lowering leaves the same state: program, scopes, reports and the counts of gags.
theorem lower_of_ungrouped_eq (source : List Char) {items items' : List Item} (reporter : Reporter)
    (h : items.map Item.ungrouped = items'.map Item.ungrouped) :
    lower source items reporter = lower source items' reporter := by
  rw [lower, lower, ← Lower.module_ungrouped, h, Lower.module_ungrouped]

-- An assertion of `0` is a trap and a function is called by its name, in parentheses or not.
theorem lower_of_ungrouped_eq_trap : ∃ plain grouped : List Item, plain ≠ grouped ∧
    plain.map Item.ungrouped = grouped.map Item.ungrouped ∧
    let source := "void f() { assert(((0))); (f)(); }".toList
    let lowered := lower source grouped (.start .Informational #[])
    lowered.program.arena.kind ⟨1⟩ = .Halt ∧
      lowered.program.arena.kind ⟨3⟩ = .Call ⟨2⟩ [] (some ⟨0⟩) ∧
      lower source plain (.start .Informational #[]) = lowered := by
  let items (condition callee : Expr) : List Item := [.Function ⟨⟨0, 34⟩, ⟨"f", ⟨5, 6⟩⟩, .none,
    .Basic ⟨0, 4⟩ .Void, [], some ⟨⟨9, 34⟩, [.Evaluate (.Assert ⟨11, 24⟩ condition none),
      .Evaluate (.Call ⟨26, 31⟩ callee [])]⟩⟩]
  let plain := items (.Integer ⟨20, 21⟩ 0) (.Identifier ⟨27, 28⟩ "f")
  let grouped := items (.Paren ⟨18, 23⟩ (.Paren ⟨19, 22⟩ (.Integer ⟨20, 21⟩ 0)))
    (.Paren ⟨26, 29⟩ (.Identifier ⟨27, 28⟩ "f"))
  have hungrouped : plain.map Item.ungrouped = grouped.map Item.ungrouped := rfl
  have hdiffer : plain ≠ grouped := by simp [plain, grouped, items]
  exact ⟨plain, grouped, hdiffer, hungrouped, by decide +kernel, by decide +kernel,
    lower_of_ungrouped_eq _ _ hungrouped⟩

end EffectLint
