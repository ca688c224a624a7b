import EffectLint.Proofs.Display.Type
import EffectLint.Proofs.Arena.Forest
import EffectLint.Proofs.Grammar.RoundTrip

/-!
The written form of a node as a tree. It is neat, and its lexemes are the ones in the text of the
node, unless two signs in it run into one.
-/

namespace EffectLint

open Lexeme

namespace Store

def written? : Store → Option AssignOp
  | .Plain | .Construct | .Blit => none
  | .Compound op => some op

end Store

namespace LogicalOp

def connective : LogicalOp → Connective
  | .And => .AndAnd
  | .Or => .OrOr

end LogicalOp

namespace Expr

-- An operand in parentheses where its place asks for them.
def placed (level : Nat) (whole : Expr) : Expr :=
  if whole.level < level then .Paren ⟨0, 0⟩ whole else whole

end Expr

namespace Program

variable (program : Program)

def typeTree (type : TypeId) : TypeTree :=
  program.types.treeWithin program.names (type.index + 1) type

-- The expression that the text of a node is read as, with `tree` for an operand in a place of a
-- given level.
def kindTree (tree : Nat → NodeId → Expr) (kind : NodeKind) : Expr :=
  let level := kind.level
  match kind with
  | .Assign store target value =>
      .Assign ⟨0, 0⟩ store.written? (tree (level + 1) target) (tree level value)
  | .Step op .Before operand => .Leading ⟨0, 0⟩ (.Step op) (tree Level.power operand)
  | .Step op .After operand => .Step ⟨0, 0⟩ op (tree Level.attached operand)
  | .In key container => .Binary ⟨0, 0⟩ .In (tree level key) (tree (level + 1) container)
  | .Remove container key =>
      .Remove ⟨0, 0⟩ (tree Level.attached container) (tree Level.assign key)
  | .Assert condition message =>
      .Assert ⟨0, 0⟩ (tree Level.assign condition) (message.map (tree Level.assign))
  | .Halt => .Assert ⟨0, 0⟩ (.Integer ⟨0, 0⟩ 0) none
  | .Delete operand => .Leading ⟨0, 0⟩ .Delete (tree Level.power operand)
  | .New type => .New ⟨0, 0⟩ ⟨program.typeText type, ⟨0, 0⟩⟩
  | .NewAnonymous => .NewAnonymous ⟨0, 0⟩
  | .Call callee arguments _ =>
      .Call ⟨0, 0⟩ (tree Level.attached callee) (arguments.map (tree Level.assign))
  | .Cast type operand => .Cast ⟨0, 0⟩ (program.typeTree type) (tree Level.power operand)
  | .Logical op left right =>
      .Binary ⟨0, 0⟩ op.connective (tree level left) (tree (level + 1) right)
  | .Conditional condition yes no =>
      .Conditional ⟨0, 0⟩ (tree Level.orOr condition) (tree Level.comma yes)
        (tree Level.conditional no)
  | .Comma first second => .Comma ⟨0, 0⟩ (tree Level.comma first) (tree Level.assign second)
  | .Variable id => .Identifier ⟨0, 0⟩ (program.variableName id)
  | .Function id => .Identifier ⟨0, 0⟩ (program.functionName id)
  | .Tuple elements => .Tuple ⟨0, 0⟩ (elements.map (tree Level.assign))
  | .Module id => .Identifier ⟨0, 0⟩ (program.moduleName id)
  | .Binary op left right =>
      if op.groupsRight then
        .Binary ⟨0, 0⟩ (.Value op) (tree Level.attached left) (tree level right)
      else .Binary ⟨0, 0⟩ (.Value op) (tree level left) (tree (level + 1) right)
  | .Unary op operand => .Leading ⟨0, 0⟩ (.Value op) (tree Level.power operand)
  | .Deref operand => .Leading ⟨0, 0⟩ .Deref (tree Level.power operand)
  | .AddressOf operand => .Leading ⟨0, 0⟩ .AddressOf (tree Level.power operand)
  | .Index base index => .Index ⟨0, 0⟩ (tree Level.attached base) (tree Level.assign index)
  | .Integer value => .Integer ⟨0, 0⟩ value.toNat
  | .Boolean value => .Boolean ⟨0, 0⟩ value
  | .Text text => .Text ⟨0, 0⟩ text
  | .Null => .Null ⟨0, 0⟩
  | .Declare _ _ | .Error => .Error ⟨0, 0⟩

def treeWithin : Nat → Nat → NodeId → Expr
  | 0, _, _ => .Error ⟨0, 0⟩
  | depth + 1, level, id =>
      (program.kindTree (treeWithin depth) (program.arena.kind id)).placed level

end Program

section

variable {program : Program} {scopes : Scopes} {type : Option TypeId} {kind : NodeKind}
  {tree : Nat → NodeId → Expr}

theorem Program.Makes.level_kindTree (h : program.Makes scopes type kind) :
    (program.kindTree tree kind).level = kind.level := by
  cases kind with
  | Declare declared value => exact h.elim
  | Error => exact h.elim
  | Step op fixity operand => cases fixity <;> rfl
  | Logical op left right => cases op <;> rfl
  | Binary op left right =>
      rw [Program.kindTree]
      split <;> rfl
  | _ => rfl

-- A place that holds the tree of an operand as it stands there.
def Holds (tree : Nat → NodeId → Expr) (place : Nat × Expr) (operand : NodeId) : Prop :=
  place.1 ≤ Level.primary ∧ place.2 = tree place.1 operand

theorem holds {level : Nat} (operand : NodeId) (hlevel : Nat.ble level Level.primary = true) :
    Holds tree (level, tree level operand) operand :=
  ⟨Nat.le_of_ble_eq_true hlevel, rfl⟩

theorem holds_each {level : Nat} (operands : List NodeId)
    (hlevel : Nat.ble level Level.primary = true) :
    List.Forall₂ (Holds tree) ((operands.map (tree level)).map fun part => (level, part)) operands := by
  rw [List.map_map, List.forall₂_map_left_iff]
  exact List.forall₂_same.mpr fun operand _ => holds operand hlevel

-- The places in a tree hold the operands in their order.
theorem Program.Makes.places_kindTree (h : program.Makes scopes type kind) (hkind : kind ≠ .Halt) :
    List.Forall₂ (Holds tree) (program.kindTree tree kind).places kind.operands := by
  cases kind with
  | Declare declared value => exact h.elim
  | Error => exact h.elim
  | Halt => exact absurd rfl hkind
  | Step op fixity operand => cases fixity <;> exact .cons (holds _ rfl) .nil
  | Logical op left right => cases op <;> exact .cons (holds _ rfl) (.cons (holds _ rfl) .nil)
  | Binary op left right => cases op <;> exact .cons (holds _ rfl) (.cons (holds _ rfl) .nil)
  | Assert condition message =>
      cases message with
      | none => exact .cons (holds _ rfl) .nil
      | some message => exact .cons (holds _ rfl) (.cons (holds _ rfl) .nil)
  | Call callee arguments named => exact .cons (holds _ rfl) (holds_each arguments rfl)
  | Tuple elements => exact holds_each elements rfl
  | Assign _ _ _ | In _ _ | Remove _ _ | Comma _ _ | Index _ _ =>
      exact .cons (holds _ rfl) (.cons (holds _ rfl) .nil)
  | Conditional _ _ _ =>
      exact .cons (holds _ rfl) (.cons (holds _ rfl) (.cons (holds _ rfl) .nil))
  | Delete _ | Cast _ _ | Unary _ _ | Deref _ | AddressOf _ => exact .cons (holds _ rfl) .nil
  | New _ | NewAnonymous | Variable _ | Function _ | Module _ | Integer _ | Boolean _ | Text _
  | Null => exact .nil

theorem Expr.map_places (whole : Expr) : whole.places.map Prod.snd = whole.parts := by
  cases whole with
  | Binary span op left right =>
      rw [Expr.places]
      split <;> rfl
  | Assert span condition message => cases message <;> rfl
  | Call span callee arguments => simp [Expr.places, Expr.parts, Function.comp_def]
  | Tuple span elements => simp [Expr.places, Expr.parts, Function.comp_def]
  | _ => rfl

theorem Program.typeText_of_named {symbol : Symbol} {name : String} {type : TypeId}
    (hname : program.names.get? symbol = some name) (hnamed : program.Named symbol (.Type type)) :
    program.typeText type = name := by
  rw [Program.typeText, TypeTable.text, TypeTable.textWithin]
  rcases hnamed with hclass | ⟨target, halias⟩
  · rw [TypeTable.shape_eq hclass]
    exact NameTable.text_of_get? hname
  · rw [TypeTable.shape_eq halias]
    exact NameTable.text_of_get? hname

theorem Program.spellsType (hclosed : program.types.Closed) {type : TypeId}
    (h : program.Writable scopes type) :
    program.SpellsType scopes type (program.typeText type) (program.typeTree type) :=
  spellsType_of_writable hclosed h _ (Nat.lt_succ_self _)

-- A name in a tree stands for what the node does.
theorem Program.Makes.name {kind : NodeKind} (h : program.Makes scopes type kind) :
    (∀ id, kind = .Variable id → (Lexeme.name (program.variableName id)).Valid ∧
      program.binding? scopes (program.variableName id) = some (.Variable id)) ∧
    (∀ id, kind = .Function id → (Lexeme.name (program.functionName id)).Valid ∧
      program.binding? scopes (program.functionName id) = some (.Function id)) ∧
    (∀ id, kind = .Module id → (Lexeme.name (program.moduleName id)).Valid ∧
      program.binding? scopes (program.moduleName id) = some (.Module id)) ∧
    ∀ target, kind = .New target → (Lexeme.name (program.typeText target)).Valid ∧
      program.binding? scopes (program.typeText target) = some (.Type target) := by
  refine ⟨?_, ?_, ?_, ?_⟩
  · rintro id rfl
    obtain ⟨entry, name, hentry, hname, hvalid, hbinding, _⟩ := h
    rw [variableName, hentry]
    dsimp only
    rw [NameTable.text_of_get? hname]
    exact ⟨hvalid, hbinding⟩
  · rintro id rfl
    obtain ⟨entry, name, hentry, hname, hvalid, hbinding, _⟩ := h
    rw [functionName, hentry]
    dsimp only
    rw [NameTable.text_of_get? hname]
    exact ⟨hvalid, hbinding⟩
  · rintro id rfl
    obtain ⟨entry, name, hentry, hname, hvalid, hbinding, _⟩ := h
    rw [moduleName, hentry]
    dsimp only
    rw [NameTable.text_of_get? hname]
    exact ⟨hvalid, hbinding⟩
  · rintro target rfl
    obtain ⟨symbol, name, hname, hvalid, hnamed, hbinding, _⟩ := h
    rw [typeText_of_named hname hnamed]
    exact ⟨hvalid, hbinding⟩

theorem Program.Makes.written_kindTree (hclosed : program.types.Closed)
    (h : program.Makes scopes type kind) : (program.kindTree tree kind).WellWritten := by
  have hname := h.name
  cases kind with
  | Declare declared value => exact h.elim
  | Error => exact h.elim
  | Step op fixity operand => cases fixity <;> exact trivial
  | Binary op left right =>
      rw [Program.kindTree]
      split <;> exact trivial
  | Variable id => exact (hname.1 id rfl).1
  | Function id => exact (hname.2.1 id rfl).1
  | Module id => exact (hname.2.2.1 id rfl).1
  | New target => exact (hname.2.2.2 target rfl).1
  | Cast target operand => exact (spellsType hclosed h.1).written
  | Integer value =>
      obtain ⟨digits, rfl, hdigits, _⟩ := h
      exact hdigits
  | Text text => exact h.1
  | _ => exact trivial

theorem exists_of_forall₂ {α β : Type} {relation : α → β → Prop} {first : List α} {second : List β}
    (h : List.Forall₂ relation first second) :
    ∀ one ∈ first, ∃ other ∈ second, relation one other := by
  induction h with
  | nil => exact fun _ hmem => nomatch hmem
  | @cons head other _ _ hhead _ ih =>
      refine List.forall_mem_cons.mpr ⟨⟨other, List.mem_cons_self, hhead⟩, fun one hmem => ?_⟩
      obtain ⟨other, hother, hone⟩ := ih one hmem
      exact ⟨other, List.mem_cons_of_mem _ hother, hone⟩

-- A tree is neat where the trees of the operands are, and hold together as their places ask.
theorem Program.Makes.neat_kindTree (hclosed : program.types.Closed)
    (h : program.Makes scopes type kind)
    (htree : ∀ level ≤ Level.primary, ∀ operand ∈ kind.operands,
      (tree level operand).Neat ∧ level ≤ (tree level operand).level) :
    (program.kindTree tree kind).Neat := by
  have hwritten := @written_kindTree _ _ _ _ tree hclosed h
  by_cases hkind : kind = .Halt
  · subst hkind
    have hzero : (Expr.Integer ⟨0, 0⟩ 0).Neat := by
      refine .intro ?_ (fun _ hmem => nomatch hmem) fun _ hmem => nomatch hmem
      simp [Expr.WellWritten, Grammar.integerBound]
    refine .intro trivial ?_ ?_ <;> simp only [kindTree, Expr.places, Option.toList, List.map_nil,
      List.forall_mem_singleton]
    · decide
    · exact hzero
  · have hplaces := @places_kindTree _ _ _ _ tree h hkind
    have hplace : ∀ place ∈ (program.kindTree tree kind).places,
        place.2.Neat ∧ place.1 ≤ place.2.level := by
      intro place hmem
      obtain ⟨operand, hoperand, hlevel, heq⟩ := exists_of_forall₂ hplaces place hmem
      rw [heq]
      exact htree place.1 hlevel operand hoperand
    exact .intro hwritten (fun place hmem => (hplace place hmem).2) fun place hmem =>
      (hplace place hmem).1

end

theorem middle_binary (op : BinaryOp) : Middle op.lexemes op.spelling.toList := by
  cases op with
  | Identical => exact (valid_word .Is).middle
  | NotIdentical =>
      refine ⟨fun after => ?_, '!', ['i', 's'], rfl, by decide⟩
      have hword := @Writes.keyword (' ' :: after) .Is (stopped_cons (by decide))
      exact (@Writes.leading _ _ _ .Bang (by decide) hword fun h => absurd h (by decide)).spells
  | _ => exact (valid_sign _).middle

theorem middle_store (store : Store) : Middle [storeLexeme store.written?] store.spelling.toList := by
  cases store with
  | Compound op => exact (valid_assign op).middle
  | _ => exact (valid_sign .Equal).middle

theorem middle_logical (op : LogicalOp) : Middle op.connective.lexemes op.spelling.toList := by
  cases op <;> exact (valid_sign _).middle

theorem step_sign (op : StepOp) : ∃ value ∈ closedSigns, op.lexeme = sign value ∧
    op.spelling = value.spelling ∧ ∀ after, Stopped (value.spelling.toList ++ after) := by
  cases op with
  | Increment => exact ⟨.PlusPlus, by decide, rfl, rfl, fun _ => stopped_cons (by decide)⟩
  | Decrement => exact ⟨.MinusMinus, by decide, rfl, rfl, fun _ => stopped_cons (by decide)⟩

-- Where the sign of an operator does not run into the operand behind it.
def NodeKind.Apart (text : Nat → NodeId → String) : NodeKind → Prop
  | .Unary .Negate operand => ¬['-'] <+: (text Level.power operand).toList
  | .Unary .Plus operand => ¬['+'] <+: (text Level.power operand).toList
  | .AddressOf operand => ¬['&'] <+: (text Level.power operand).toList
  | _ => True

instance NodeKind.Apart.decidable (text : Nat → NodeId → String) :
    (kind : NodeKind) → Decidable (kind.Apart text)
  | .Unary .Negate operand => inferInstanceAs (Decidable ¬['-'] <+: (text Level.power operand).toList)
  | .Unary .Plus operand => inferInstanceAs (Decidable ¬['+'] <+: (text Level.power operand).toList)
  | .AddressOf operand => inferInstanceAs (Decidable ¬['&'] <+: (text Level.power operand).toList)
  | .Unary .Not _ | .Unary .Complement _ | .Assign _ _ _ | .Step _ _ _ | .Declare _ _ | .In _ _
  | .Remove _ _ | .Assert _ _ | .Halt | .Delete _ | .New _ | .NewAnonymous | .Call _ _ _ | .Cast _ _
  | .Logical _ _ _ | .Conditional _ _ _ | .Comma _ _ | .Variable _ | .Function _ | .Tuple _ | .Error
  | .Module _ | .Binary _ _ _ | .Deref _ | .Index _ _ | .Integer _ | .Boolean _ | .Text _ | .Null =>
      .isTrue trivial

section

variable {program : Program} {scopes : Scopes} {type : Option TypeId} {kind : NodeKind}
  {tree : Nat → NodeId → Expr} {text : Nat → NodeId → String} {after : List Char}

def WritesAt (tree : Nat → NodeId → Expr) (text : Nat → NodeId → String) (operand : NodeId) :
    Prop :=
  ∀ level ≤ Level.primary, ∀ after, Stopped after →
    Writes after (tree level operand).lexemes (text level operand).toList

theorem writes_between {middle : List Lexeme} {op : String} (hop : Middle middle op.toList)
    {first second : Nat} {left right : NodeId} (hlevels : first ≤ Level.primary ∧ second ≤ Level.primary)
    (hleft : WritesAt tree text left) (hright : WritesAt tree text right) (hafter : Stopped after) :
    Writes after ((tree first left).lexemes ++ (middle ++ (tree second right).lexemes))
      (NodeKind.betweenText text op first second left right).toList := by
  have hback := hright second hlevels.2 after hafter
  have hall := Writes.between (hleft first hlevels.1 _ (stopped_cons (by decide))) hop hback
  simpa [NodeKind.betweenText] using hall

theorem listLexemes_eq (elements : List NodeId) (level : Nat) :
    Expr.listLexemes (elements.map (tree level)) =
      listed (fun element => (tree level element).lexemes) elements := by
  induction elements with
  | nil => rfl
  | cons first rest ih =>
      have hseparator : separator (rest.map (tree level)) = separator rest := by
        cases rest <;> rfl
      rw [List.map_cons, Expr.listLexemes, hseparator, ih, listed]

theorem spells_list {elements : List NodeId} (helements : ∀ element ∈ elements, WritesAt tree text element) :
    Spells after (sign .ParenOpen ::
        (Expr.listLexemes (elements.map (tree Level.assign)) ++ [sign .ParenClose]))
      (NodeKind.listText text elements).toList := by
  have hinside := spells_listed (fun element hmem _ hafter =>
    helements element hmem Level.assign (by decide) _ hafter) (@stopped_cons ')' after (by decide))
  have hclose : Spells after [sign .ParenClose] [')'] := .last (by decide)
  have hall := @Spells.closed _ _ _ .ParenOpen (by decide) (Spells.append hinside hclose)
  rw [listLexemes_eq]
  simpa [NodeKind.listText, Sign.spelling] using hall

theorem writes_leading {op : LeadingOp} {value : Sign} {spelling : String} {operand : NodeId}
    (hvalue : value ∈ prefixSigns) (hlexeme : op.lexeme = sign value)
    (hspelling : spelling = value.spelling) (hoperand : WritesAt tree text operand)
    (hapart : value ∈ [Sign.Minus, .Plus, .Ampersand] →
      ¬value.spelling.toList <+: (text Level.power operand).toList) (hafter : Stopped after) :
    Writes after (op.lexeme :: (tree Level.power operand).lexemes)
      (spelling ++ text Level.power operand).toList := by
  rw [hlexeme, hspelling, String.toList_append]
  exact .leading hvalue (hoperand Level.power (by decide) after hafter) hapart

theorem Program.Makes.writes_kindTree (hclosed : program.types.Closed)
    (h : program.Makes scopes type kind) (hapart : kind.Apart text)
    (hoperands : ∀ operand ∈ kind.operands, WritesAt tree text operand) (hafter : Stopped after) :
    Writes after (program.kindTree tree kind).lexemes (program.kindText text kind).toList := by
  have hname := h.name
  cases kind with
  | Declare declared value => exact h.elim
  | Error => exact h.elim
  | Assign store target value =>
      have htarget := hoperands target (by simp [NodeKind.operands])
      have hvalue := hoperands value (by simp [NodeKind.operands])
      exact writes_between (middle_store store) (by decide : Level.conditional ≤ Level.primary ∧
        Level.assign ≤ Level.primary) htarget hvalue hafter
  | Step op fixity operand =>
      have hoperand := hoperands operand (by simp [NodeKind.operands])
      obtain ⟨value, hclosed, hlexeme, hspelling, hstopped⟩ := step_sign op
      cases fixity with
      | Before =>
          have hinside := hoperand Level.power (by decide) after hafter
          have hall : Writes after (op.lexeme :: (tree Level.power operand).lexemes)
              (op.spelling ++ text Level.power operand).toList := by
            rw [hlexeme, hspelling, String.toList_append]
            exact .enclosed hclosed hinside.spells
          exact hall
      | After =>
          have hinside := hoperand Level.attached (by decide) _ (hstopped after)
          have hall : Writes after ((tree Level.attached operand).lexemes ++ [op.lexeme])
              (text Level.attached operand ++ op.spelling).toList := by
            rw [hlexeme, hspelling, String.toList_append]
            exact Writes.append hinside (.last hclosed)
          exact hall
  | In key container =>
      have hkey := hoperands key (by simp [NodeKind.operands])
      have hcontainer := hoperands container (by simp [NodeKind.operands])
      exact writes_between (valid_word .In).middle (by decide : Level.compare ≤ Level.primary ∧
        Level.compare + 1 ≤ Level.primary) hkey hcontainer hafter
  | Remove container key =>
      have hcontainer := hoperands container (by simp [NodeKind.operands])
      have hkey := hoperands key (by simp [NodeKind.operands])
      have hinside := hkey Level.assign (by decide) (')' :: after) (stopped_cons (by decide))
      have hclose : Spells after [sign .ParenClose] [')'] := .last (by decide)
      have hlist := @Spells.closed _ _ _ .ParenOpen (by decide) (Writes.append hinside hclose).spells
      have hremove : (Lexeme.name "remove").Valid := by decide +kernel
      have hword := Writes.append (.name hremove (stopped_cons (by decide))) hlist
      have hdot := @Spells.closed _ _ _ .Dot (by decide) hword.spells
      have hall := Writes.append (hcontainer Level.attached (by decide) _ (stopped_cons (by decide)))
        hdot
      rw [kindTree, kindText, Expr.lexemes]
      simpa [Sign.spelling] using hall
  | Logical op left right =>
      have hleft := hoperands left (by simp [NodeKind.operands])
      have hright := hoperands right (by simp [NodeKind.operands])
      cases op with
      | And =>
          exact writes_between (middle_logical .And) (by decide : Level.andAnd ≤ Level.primary ∧
            Level.andAnd + 1 ≤ Level.primary) hleft hright hafter
      | Or =>
          exact writes_between (middle_logical .Or) (by decide : Level.orOr ≤ Level.primary ∧
            Level.orOr + 1 ≤ Level.primary) hleft hright hafter
  | Binary op left right =>
      have hleft := hoperands left (by simp [NodeKind.operands])
      have hright := hoperands right (by simp [NodeKind.operands])
      have hlevels : op.level + 1 ≤ Level.primary := by cases op <;> decide
      have hop : Middle (Connective.Value op).lexemes op.spelling.toList := middle_binary op
      rw [kindTree, kindText]
      split
      · exact writes_between hop ⟨by decide, Nat.le_of_succ_le hlevels⟩ hleft hright hafter
      · exact writes_between hop ⟨Nat.le_of_succ_le hlevels, hlevels⟩ hleft hright hafter
  | Unary op operand =>
      have hoperand := hoperands operand (by simp [NodeKind.operands])
      have hnone : ∀ {value : Sign} {claim : Prop}, value = .Bang ∨ value = .Tilde →
          value ∈ [Sign.Minus, .Plus, .Ampersand] → claim := by
        rintro value claim (rfl | rfl) hmem <;> exact absurd hmem (by decide)
      cases op with
      | Negate => exact writes_leading (by decide) rfl rfl hoperand (fun _ => hapart) hafter
      | Plus => exact writes_leading (by decide) rfl rfl hoperand (fun _ => hapart) hafter
      | Not => exact writes_leading (by decide) rfl rfl hoperand (hnone (.inl rfl)) hafter
      | Complement => exact writes_leading (by decide) rfl rfl hoperand (hnone (.inr rfl)) hafter
  | Deref operand =>
      have hoperand := hoperands operand (by simp [NodeKind.operands])
      exact writes_leading (by decide) rfl rfl hoperand (fun hmem => absurd hmem (by decide)) hafter
  | AddressOf operand =>
      have hoperand := hoperands operand (by simp [NodeKind.operands])
      exact writes_leading (by decide) rfl rfl hoperand (fun _ => hapart) hafter
  | Assert condition message =>
      have hcondition := hoperands condition (by simp [NodeKind.operands])
      have hclose : Spells after [sign .ParenClose] [')'] := .last (by decide)
      cases message with
      | none =>
          have hinside := hcondition Level.assign (by decide) (')' :: after) (stopped_cons (by decide))
          have hall := Writes.opening .Assert (Writes.append hinside hclose).spells
          simpa [kindTree, kindText, Expr.lexemes, Keyword.spelling] using hall
      | some message =>
          have hmessage := hoperands message (by simp [NodeKind.operands])
          have hinside := hmessage Level.assign (by decide) (')' :: after) (stopped_cons (by decide))
          have hcomma := @Spells.closed _ _ _ .Comma (by decide) (Writes.append hinside hclose).space
          have hfront := Writes.append
            (hcondition Level.assign (by decide) _ (stopped_cons (by decide))) hcomma
          have hall := Writes.opening .Assert hfront.spells
          simpa [kindTree, kindText, Expr.lexemes, Keyword.spelling, Sign.spelling] using hall
  | Halt =>
      have hclose : Spells after [sign .ParenClose] [')'] := .last (by decide)
      have hzero := @Writes.integer (')' :: after) 0 (stopped_cons (by decide))
      have hall := Writes.opening .Assert (Writes.append hzero hclose).spells
      simpa [kindTree, kindText, Expr.lexemes, Keyword.spelling] using hall
  | Delete operand =>
      have hoperand := hoperands operand (by simp [NodeKind.operands]) Level.power (by decide) after hafter
      have hword := Writes.append (.keyword .Delete (stopped_cons (by decide))) hoperand.space
      simpa [kindTree, kindText, Expr.lexemes, LeadingOp.lexeme, Keyword.spelling] using hword
  | New target =>
      have hclass := Writes.name (hname.2.2.2 target rfl).1 hafter
      have hword := Writes.append (.keyword .New (stopped_cons (by decide))) hclass.space
      simpa [kindTree, kindText, Expr.lexemes, Keyword.spelling] using hword
  | NewAnonymous =>
      have hclose : Spells after [sign .BraceClose] ['\x7d'] := .last (by decide)
      have hbraces := @Writes.enclosed _ _ _ .BraceOpen (by decide) hclose
      have hclass := Writes.append (.keyword .Class (stopped_cons (by decide))) hbraces.space
      have hword := Writes.append (.keyword .New (stopped_cons (by decide))) hclass.space
      simpa [kindTree, kindText, Expr.lexemes, Keyword.spelling, Sign.spelling] using hword
  | Call callee arguments named =>
      have hcallee := hoperands callee (by simp [NodeKind.operands])
      have hlist := @spells_list tree text after arguments fun argument hmem =>
        hoperands argument (by simp [NodeKind.operands, hmem])
      have hstopped : Stopped ((NodeKind.listText text arguments).toList ++ after) := by
        simpa [NodeKind.listText] using stopped_cons (by decide)
      have hall := Writes.append (hcallee Level.attached (by decide) _ hstopped) hlist
      simpa [kindTree, kindText, Expr.lexemes] using hall
  | Cast target operand =>
      have htarget := (spellsType hclosed h.1).writes
      have hoperand := hoperands operand (by simp [NodeKind.operands]) Level.power (by decide) after hafter
      have hclose := @Spells.closed _ _ _ .ParenClose (by decide) hoperand.space
      have hall := Writes.opening .Cast
        (Writes.append (htarget _ (stopped_cons (by decide))) hclose).spells
      simpa [kindTree, kindText, Expr.lexemes, Keyword.spelling, Sign.spelling] using hall
  | Conditional condition yes no =>
      have hcondition := hoperands condition (by simp [NodeKind.operands])
      have hyes := hoperands yes (by simp [NodeKind.operands])
      have hno := hoperands no (by simp [NodeKind.operands]) Level.conditional (by decide) after hafter
      have hbranches := Writes.between (hyes Level.comma (by decide) _ (stopped_cons (by decide)))
        (valid_sign .Colon).middle hno
      have hall := Writes.between
        (hcondition Level.orOr (by decide) _ (stopped_cons (by decide)))
        (valid_sign .Question).middle hbranches
      simpa [kindTree, kindText, Expr.lexemes, Sign.spelling, sign] using hall
  | Comma first second =>
      have hfirst := hoperands first (by simp [NodeKind.operands])
      have hsecond := hoperands second (by simp [NodeKind.operands]) Level.assign (by decide) after hafter
      have hcomma := @Spells.closed _ _ _ .Comma (by decide) hsecond.space
      have hall := Writes.append (hfirst Level.comma (by decide) _ (stopped_cons (by decide))) hcomma
      simpa [kindTree, kindText, Expr.lexemes, Sign.spelling] using hall
  | Index base index =>
      have hbase := hoperands base (by simp [NodeKind.operands])
      have hindex := hoperands index (by simp [NodeKind.operands])
      have hclose : Spells after [sign .BracketClose] [']'] := .last (by decide)
      have hinside := hindex Level.assign (by decide) (']' :: after) (stopped_cons (by decide))
      have hbrackets := @Spells.closed _ _ _ .BracketOpen (by decide)
        (Writes.append hinside hclose).spells
      have hall := Writes.append (hbase Level.attached (by decide) _ (stopped_cons (by decide))) hbrackets
      simpa [kindTree, kindText, Expr.lexemes, Sign.spelling] using hall
  | Tuple elements =>
      have hlist := @spells_list tree text after elements fun element hmem =>
        hoperands element hmem
      have hstopped : Stopped ((NodeKind.listText text elements).toList ++ after) := by
        simpa [NodeKind.listText] using stopped_cons (by decide)
      have hall := Writes.append (.keyword .Tuple hstopped) hlist
      simpa [kindTree, kindText, Expr.lexemes, Keyword.spelling] using hall
  | Variable id => exact .name (hname.1 id rfl).1 hafter
  | Function id => exact .name (hname.2.1 id rfl).1 hafter
  | Module id => exact .name (hname.2.2.1 id rfl).1 hafter
  | Integer value =>
      obtain ⟨digits, rfl, _⟩ := h
      exact .integer digits hafter
  | Boolean value => cases value <;> exact .keyword _ hafter
  | Text text => exact .quoted h.1 hafter
  | Null => exact .keyword .Null hafter

theorem NodeKind.apart_congr {other : Nat → NodeId → String}
    (htext : ∀ operand ∈ kind.operands, ∀ level, text level operand = other level operand)
    (h : kind.Apart text) : kind.Apart other := by
  cases kind with
  | Unary op operand =>
      have hoperand := htext operand (by simp [operands])
      cases op with
      | Negate => simpa [Apart, hoperand] using h
      | Plus => simpa [Apart, hoperand] using h
      | Not => exact trivial
      | Complement => exact trivial
  | AddressOf operand =>
      have hoperand := htext operand (by simp [operands])
      simpa [Apart, hoperand] using h
  | _ => exact trivial

-- Only the texts of the operands matter.
theorem Program.Makes.kindText_congr (h : program.Makes scopes type kind)
    {other : Nat → NodeId → String}
    (htext : ∀ operand ∈ kind.operands, ∀ level, text level operand = other level operand) :
    program.kindText text kind = program.kindText other kind := by
  have hlist : ∀ elements : List NodeId, (∀ element ∈ elements, element ∈ kind.operands) →
      NodeKind.listText text elements = NodeKind.listText other elements := by
    intro elements hmem
    have hmap : elements.map (text Level.assign) = elements.map (other Level.assign) :=
      List.map_congr_left fun element helement => htext element (hmem element helement) _
    rw [NodeKind.listText, NodeKind.listText, hmap]
  cases kind with
  | Declare declared value => exact h.elim
  | Step op fixity operand =>
      have hoperand := htext operand (by simp [NodeKind.operands])
      cases fixity <;> simp [kindText, hoperand]
  | Assert condition message =>
      have hcondition := htext condition (by simp [NodeKind.operands])
      cases message with
      | none => simp [kindText, hcondition]
      | some message =>
          have hmessage := htext message (by simp [NodeKind.operands])
          simp [kindText, hcondition, hmessage]
  | Call callee arguments named =>
      have hcallee := htext callee (by simp [NodeKind.operands])
      have harguments := hlist arguments fun _ hmem => List.mem_cons_of_mem _ hmem
      simp [kindText, hcallee, harguments]
  | Tuple elements =>
      have helements := hlist elements (by simp [NodeKind.operands])
      simp [kindText, helements]
  | _ =>
      simp only [NodeKind.operands, List.forall_mem_cons, List.not_mem_nil, false_imp_iff,
        implies_true, and_true] at htext
      simp [kindText, NodeKind.betweenText, htext]

end

namespace Program

variable {program : Program} {scopes : Scopes}

-- Deep enough is deep enough.
theorem Made.textWithin_eq {id : NodeId} (h : program.Made scopes id) :
    ∀ depth deeper level, id.index < depth → id.index < deeper →
      program.textWithin depth level id = program.textWithin deeper level id := by
  induction h with
  | @intro id node hnode hmakes holder _ ih =>
      intro depth deeper level hdepth hdeeper
      have hkind := Arena.kind_of_node? hnode
      cases depth with
      | zero => omega
      | succ depth =>
          cases deeper with
          | zero => omega
          | succ deeper =>
              have htext := hmakes.kindText_congr fun operand hmem level => by
                have hlt := holder operand hmem
                exact ih operand hmem depth deeper level (by omega) (by omega)
              rw [textWithin, textWithin, hkind, htext]

-- Nowhere in a tree the sign of an operator runs into the operand behind it.
def SignsApart (program : Program) (root : NodeId) : Prop :=
  ∀ id, program.arena.Below root id →
    (program.arena.kind id).Apart fun level operand =>
      program.textWithin (operand.index + 1) level operand

theorem SignsApart.operand {root operand : NodeId} (h : program.SignsApart root)
    (hoperand : operand ∈ program.arena.operands root) : program.SignsApart operand :=
  fun id hbelow => h id (.head hoperand hbelow)

theorem level_placed {level : Nat} (whole : Expr) (hlevel : level ≤ Level.primary) :
    level ≤ (whole.placed level).level := by
  rw [Expr.placed]
  split
  · exact hlevel
  · omega

theorem comma_le (whole : Expr) : Level.comma ≤ whole.level := by
  cases whole with
  | Binary span op left right => exact Nat.le_trans (by decide) (Grammar.level_pos op)
  | _ => exact Nat.le_of_ble_eq_true rfl

theorem neat_placed {level : Nat} {whole : Expr} (h : whole.Neat) : (whole.placed level).Neat := by
  rw [Expr.placed]
  split
  · refine .intro trivial ?_ ?_ <;> simp only [Expr.places, List.forall_mem_singleton]
    · exact comma_le whole
    · exact h
  · exact h

theorem Made.neat (hclosed : program.types.Closed) {id : NodeId} (h : program.Made scopes id) :
    ∀ depth level, id.index < depth → (program.treeWithin depth level id).Neat := by
  induction h with
  | @intro id node hnode hmakes holder _ ih =>
      intro depth level hdepth
      have hkind := Arena.kind_of_node? hnode
      cases depth with
      | zero => omega
      | succ depth =>
          rw [treeWithin, hkind]
          refine neat_placed (hmakes.neat_kindTree hclosed fun level hlevel operand hmem => ?_)
          have hlt := holder operand hmem
          refine ⟨ih operand hmem depth level (by omega), ?_⟩
          cases depth with
          | zero => omega
          | succ depth =>
              rw [treeWithin]
              exact level_placed _ hlevel

-- The text of a node is the text of its tree.
theorem Made.writes (hclosed : program.types.Closed) {id : NodeId} (h : program.Made scopes id)
    (hapart : program.SignsApart id) : ∀ depth, id.index < depth →
    WritesAt (program.treeWithin depth) (program.textWithin depth) id := by
  induction h with
  | @intro id node hnode hmakes holder hmade ih =>
      intro depth hdepth level hlevel after hafter
      have hkind := Arena.kind_of_node? hnode
      cases depth with
      | zero => omega
      | succ depth =>
          have hoperands : ∀ operand ∈ node.kind.operands,
              WritesAt (program.treeWithin depth) (program.textWithin depth) operand := by
            intro operand hmem
            have hlt := holder operand hmem
            have hbelow : operand ∈ program.arena.operands id := by rwa [Arena.operands, hkind]
            exact ih operand hmem (hapart.operand hbelow) depth (by omega)
          have hsigns : node.kind.Apart (program.textWithin depth) := by
            have hhere := hapart id .refl
            rw [hkind] at hhere
            refine NodeKind.apart_congr (fun operand hmem level => ?_) hhere
            have hlt := holder operand hmem
            exact (hmade operand hmem).textWithin_eq _ _ level (Nat.lt_succ_self _) (by omega)
          have hwrites : ∀ {after}, Stopped after → Writes after
              (program.kindTree (program.treeWithin depth) node.kind).lexemes
              (program.kindText (program.textWithin depth) node.kind).toList :=
            fun hafter => hmakes.writes_kindTree hclosed hsigns hoperands hafter
          rw [treeWithin, textWithin, hkind, Expr.placed, hmakes.level_kindTree]
          split
          · rw [Expr.lexemes]
            simpa using Writes.parens (hwrites (stopped_cons (by decide)))
          · exact hwrites hafter

end Program

end EffectLint
