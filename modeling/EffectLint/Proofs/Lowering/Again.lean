import EffectLint.Proofs.Lowering.Fine

/-!
Making a node again. What was made right is made again in silence from operands that are alike,
and nothing is entered for it but the node itself.
-/

namespace EffectLint

namespace NodeKind

-- The kind without its operands, of which only the number stays.
def bare : NodeKind → NodeKind
  | .Assign store _ _ => .Assign store ⟨0⟩ ⟨0⟩
  | .Step op fixity _ => .Step op fixity ⟨0⟩
  | .Declare declared value => .Declare declared (value.map fun _ => ⟨0⟩)
  | .In _ _ => .In ⟨0⟩ ⟨0⟩
  | .Remove _ _ => .Remove ⟨0⟩ ⟨0⟩
  | .Assert _ message => .Assert ⟨0⟩ (message.map fun _ => ⟨0⟩)
  | .Halt => .Halt
  | .Delete _ => .Delete ⟨0⟩
  | .New type => .New type
  | .NewAnonymous => .NewAnonymous
  | .Call _ arguments function => .Call ⟨0⟩ (arguments.map fun _ => ⟨0⟩) function
  | .Cast type _ => .Cast type ⟨0⟩
  | .Logical op _ _ => .Logical op ⟨0⟩ ⟨0⟩
  | .Conditional _ _ _ => .Conditional ⟨0⟩ ⟨0⟩ ⟨0⟩
  | .Comma _ _ => .Comma ⟨0⟩ ⟨0⟩
  | .Variable id => .Variable id
  | .Function id => .Function id
  | .Tuple elements => .Tuple (elements.map fun _ => ⟨0⟩)
  | .Error => .Error
  | .Module id => .Module id
  | .Binary op _ _ => .Binary op ⟨0⟩ ⟨0⟩
  | .Unary op _ => .Unary op ⟨0⟩
  | .Deref _ => .Deref ⟨0⟩
  | .AddressOf _ => .AddressOf ⟨0⟩
  | .Index _ _ => .Index ⟨0⟩ ⟨0⟩
  | .Integer value => .Integer value
  | .Boolean value => .Boolean value
  | .Text text => .Text text
  | .Null => .Null

theorem isFalse_bare (kind : NodeKind) : kind.bare.isFalse = kind.isFalse := by
  cases kind <;> rfl

theorem functionNamed_bare (kind : NodeKind) : kind.bare.functionNamed = kind.functionNamed := by
  cases kind <;> rfl

theorem bare_eq_error {kind : NodeKind} (h : kind.bare = .Error) : kind = .Error := by
  cases kind <;> first | rfl | cases h

end NodeKind

-- Two trees in an arena that differ in their numbers and their places in the source only.
inductive Arena.Alike (arena : Arena) : NodeId → NodeId → Prop where
  | intro {id id' node node'} : arena.node? id = some node → arena.node? id' = some node' →
      node'.kind.bare = node.kind.bare → node'.type = node.type →
      (∀ pair ∈ node.kind.operands.zip node'.kind.operands, Alike arena pair.1 pair.2) →
      Alike arena id id'

namespace Lower

-- What making a node looks at in an operand.
structure Like (program : Program) (id id' : NodeId) : Prop where
  type : program.arena.type? id' = program.arena.type? id
  isFalse : (program.arena.kind id').isFalse = (program.arena.kind id).isFalse
  functionNamed : (program.arena.kind id').functionNamed = (program.arena.kind id).functionNamed
  fine : program.arena.kind id' ≠ .Error

def connectiveKind (left right : NodeId) : Connective → NodeKind
  | .Value op => .Binary op left right
  | .AndAnd => .Logical .And left right
  | .OrOr => .Logical .Or left right
  | .In => .In left right

def leadingKind (operand : NodeId) : LeadingOp → NodeKind
  | .Value op => .Unary op operand
  | .Deref => .Deref operand
  | .AddressOf => .AddressOf operand
  | .Delete => .Delete operand
  | .Step op => .Step op .Before operand

def storeOf : Option AssignOp → Store
  | none => .Plain
  | some op => .Compound op

def bindingKind? : Option Binding → Option NodeKind
  | some (.Variable id) => some (.Variable id)
  | some (.Function id) => some (.Function id)
  | some (.Module id) => some (.Module id)
  | _ => none

def classKind? : Option Binding → Option NodeKind
  | some (.Type id) => some (.New id)
  | _ => none

def one? (kind : NodeId → NodeKind) : List NodeId → Option NodeKind
  | [operand] => some (kind operand)
  | _ => none

def two? (kind : NodeId → NodeId → NodeKind) : List NodeId → Option NodeKind
  | [left, right] => some (kind left right)
  | _ => none

def three? (kind : NodeId → NodeId → NodeId → NodeKind) : List NodeId → Option NodeKind
  | [first, second, third] => some (kind first second third)
  | _ => none

-- The kind of node that an expression makes of its operands, where nothing is said.
def expected (program : Program) (scopes : Scopes) (whole : Expr) (target : TypeId)
    (ids : List NodeId) : Option NodeKind :=
  match whole with
  | .Identifier _ name => bindingKind? (program.binding? scopes name)
  | .Integer _ value => some (.Integer value)
  | .Text _ text => some (.Text text)
  | .Boolean _ value => some (.Boolean value)
  | .Null _ => some .Null
  | .Binary _ op _ _ => two? (connectiveKind · · op) ids
  | .Assign _ op _ _ => two? (.Assign (storeOf op)) ids
  | .Conditional _ _ _ _ => three? .Conditional ids
  | .Comma _ _ _ => two? .Comma ids
  | .Leading _ op _ => one? (leadingKind · op) ids
  | .Step _ op _ => one? (.Step op .After) ids
  | .Cast _ _ _ => one? (.Cast target) ids
  | .New _ name => classKind? (program.binding? scopes name.text)
  | .NewAnonymous _ => some .NewAnonymous
  | .Call _ _ _ =>
      match ids with
      | callee :: arguments =>
          some (.Call callee arguments (program.arena.kind callee).functionNamed)
      | [] => none
  | .Index _ _ _ => two? .Index ids
  | .Remove _ _ _ => two? .Remove ids
  | .Tuple _ _ => some (.Tuple ids)
  | .Assert _ condition none =>
      if condition.isFalseLiteral then none else one? (.Assert · none) ids
  | .Assert _ condition (some _) =>
      if condition.isFalseLiteral then none else two? (.Assert · <| some ·) ids
  | .Paren _ _ | .Declare _ _ _ | .Compiles _ _ | .Error _ => none

-- A computation that adds one node and says nothing.
def Adds (body : Lower NodeId) (program : Program) (scopes : Scopes) (node : Node) : Prop :=
  ∀ reporter, body ⟨program, scopes, reporter⟩ =
    (⟨program.arena.size⟩, ⟨program.addNode node, scopes, reporter⟩)

namespace Adds

variable {program : Program} {scopes : Scopes} {node : Node}

theorem leaf {kind : NodeKind} {type : TypeId} {span : Span} :
    Adds (leaf kind type span) program scopes ⟨kind, some type, span⟩ :=
  fun _ => rfl

theorem unlessError {span : Span} {operands : List NodeId} {build : Lower NodeId}
    (hoperands : Right program operands) (h : Adds build program scopes node) :
    Adds (unlessError span operands build) program scopes node :=
  fun reporter => (unlessError_fine hoperands).trans (h reporter)

-- A look at what is known changes nothing.
theorem typeOf (id : NodeId) {next : Option TypeId → Lower NodeId}
    (h : Adds (next (program.arena.type? id)) program scopes node) :
    Adds (typeOf id >>= next) program scopes node :=
  h

theorem nodeOf (id : NodeId) {next : Node → Lower NodeId}
    (h : Adds (next (program.arena.node id)) program scopes node) :
    Adds (Lower.node id >>= next) program scopes node :=
  h

theorem types {next : TypeTable → Lower NodeId}
    (h : Adds (next program.types) program scopes node) :
    Adds (types >>= next) program scopes node :=
  h

theorem lookup (name : String) {next : Option Binding → Lower NodeId}
    (h : Adds (next (program.binding? scopes name)) program scopes node) :
    Adds (lookup name >>= next) program scopes node :=
  h

theorem typesOf (elements : List NodeId) {next : List TypeId → Lower NodeId}
    (h : Adds (next (elements.map fun id => (program.arena.type? id).getD .error)) program scopes
      node) :
    Adds (typesOf elements >>= next) program scopes node := by
  intro reporter
  rw [bind_apply, typesOf_apply]
  exact h reporter

theorem added {kind : NodeKind} {type : Option TypeId} {span : Span} :
    Adds (addNode ⟨kind, type, span⟩) program scopes ⟨kind, type, span⟩ :=
  fun _ => rfl

-- A shape that is known is not entered again.
theorem internType {shape : Shape} {type : TypeId} {next : TypeId → Lower NodeId}
    (hshape : program.types.shape? type = some shape) (h : Adds (next type) program scopes node) :
    Adds (internType shape >>= next) program scopes node := by
  intro reporter
  have hintern : Lower.internType shape ⟨program, scopes, reporter⟩ =
      (type, ⟨program, scopes, reporter⟩) := by
    have hinsert := TypeTable.insert_of_shape? hshape
    unfold Lower.internType
    simp only [hinsert]
  rw [bind_apply, hintern]
  exact h reporter

theorem symbol {name : String} {symbol : Symbol} {next : Symbol → Lower NodeId}
    (hname : program.names.get? symbol = some name) (h : Adds (next symbol) program scopes node) :
    Adds (Lower.symbol name >>= next) program scopes node := by
  intro reporter
  have hsymbol : Lower.symbol name ⟨program, scopes, reporter⟩ =
      (symbol, ⟨program, scopes, reporter⟩) := symbol_of_get? hname
  rw [bind_apply, hsymbol]
  exact h reporter

end Adds

theorem Like.right {program : Program} {ids ids' : List NodeId}
    (h : List.Forall₂ (Like program) ids ids') : Right program ids' := by
  induction h with
  | nil => exact fun _ hmem => nomatch hmem
  | cons hfirst _ ih => exact List.forall_mem_cons.mpr ⟨hfirst.fine, ih⟩

section

variable {source : List Char} {program : Program} {scopes : Scopes} {type : Option TypeId}
  {span : Span}

theorem nameNode_again {name : String} {kind : NodeKind}
    (hexpected : bindingKind? (program.binding? scopes name) = some kind)
    (hmakes : program.Makes scopes type kind) :
    Adds (nameNode name span) program scopes ⟨kind, type, span⟩ := by
  refine .lookup name ?_
  unfold bindingKind? at hexpected
  split at hexpected
  case h_1 id hbinding =>
    obtain rfl := Option.some.inj hexpected
    obtain ⟨entry, _, hentry, _, _, _, rfl⟩ := hmakes
    have htype : program.variableType id = entry.type := by rw [Program.variableType, hentry]
    rw [hbinding, ← htype]
    exact fun _ => rfl
  case h_2 id hbinding =>
    obtain rfl := Option.some.inj hexpected
    obtain ⟨entry, _, hentry, _, _, _, rfl⟩ := hmakes
    have htype : program.functionType id = entry.type := by rw [Program.functionType, hentry]
    rw [hbinding, ← htype]
    exact fun _ => rfl
  case h_3 id hbinding =>
    obtain rfl := Option.some.inj hexpected
    obtain ⟨_, _, _, _, _, _, rfl⟩ := hmakes
    rw [hbinding]
    exact .added
  case h_4 => cases hexpected

theorem integerNode_again {value : Nat} (hmakes : program.Makes scopes type (.Integer value)) :
    Adds (integerNode value span) program scopes ⟨.Integer value, type, span⟩ := by
  obtain ⟨digits, hdigits, _, rfl⟩ := hmakes
  obtain rfl : value = digits := by exact_mod_cast hdigits
  exact .leaf

theorem newNode_again {name : Name} {kind : NodeKind}
    (hexpected : classKind? (program.binding? scopes name.text) = some kind)
    (hmakes : program.Makes scopes type kind) :
    Adds (newNode name span) program scopes ⟨kind, type, span⟩ := by
  refine .types (.lookup name.text ?_)
  cases hbinding : program.binding? scopes name.text with
  | none =>
      rw [hbinding] at hexpected
      cases hexpected
  | some binding =>
      rw [hbinding] at hexpected
      cases binding with
      | «Type» target =>
          obtain rfl := Option.some.inj hexpected
          obtain ⟨_, _, _, _, _, _, hclass, rfl⟩ := hmakes
          dsimp only
          rw [if_pos hclass]
          exact .leaf
      | _ => cases hexpected

theorem newAnonymousNode_again (hmakes : program.Makes scopes type .NewAnonymous) :
    Adds (newAnonymousNode span) program scopes ⟨.NewAnonymous, type, span⟩ := by
  obtain ⟨symbol, anonymous, hname, hshape, rfl⟩ := hmakes
  exact .symbol hname (.internType hshape .leaf)

-- A node over other operands that are alike.
def Remakes (program : Program) (scopes : Scopes) (type : Option TypeId) (span : Span)
    (kind : NodeKind) (body : Lower NodeId) (ids : List NodeId) : Prop :=
  ∃ made : NodeKind, made.bare = kind.bare ∧ made.operands = ids ∧
    Adds body program scopes ⟨made, type, span⟩

variable {id id' left left' right right' : NodeId} {kind : NodeKind}

theorem connectiveNode_again {op : Connective}
    (hmakes : program.Makes scopes type (connectiveKind left right op))
    (hleft : Like program left left') (hright : Like program right right') :
    Remakes program scopes type span (connectiveKind left right op)
      (connectiveNode source op span left' right') [left', right'] := by
  have hfine : Right program [left', right'] := Like.right (.cons hleft (.cons hright .nil))
  cases op with
  | Value op =>
      have htype : type = some (binaryType program.types op (program.arena.type? left')
          (program.arena.type? right')) := by rw [hleft.type, hright.type, hmakes]
      rw [htype]
      exact ⟨.Binary op left' right', rfl, rfl, .unlessError hfine (.types (.typeOf left'
        (.typeOf right' .leaf)))⟩
  | AndAnd =>
      obtain rfl : type = some .bool := hmakes
      exact ⟨.Logical .And left' right', rfl, rfl, .unlessError hfine .leaf⟩
  | OrOr =>
      obtain rfl : type = some .bool := hmakes
      exact ⟨.Logical .Or left' right', rfl, rfl, .unlessError hfine .leaf⟩
  | In =>
      obtain ⟨value, pointer, hvalue, hshape, rfl⟩ := hmakes
      refine ⟨.In left' right', rfl, rfl, .unlessError hfine (.typeOf right' (.types ?_))⟩
      rw [hright.type, hvalue]
      exact .internType hshape .leaf

theorem assignNode_again {op : Option AssignOp}
    (hmakes : program.Makes scopes type (.Assign (storeOf op) left right))
    (hleft : Like program left left') (hright : Like program right right') :
    Remakes program scopes type span (.Assign (storeOf op) left right)
      (assignNode op span left' right') [left', right'] := by
  have hfine : Right program [left', right'] := Like.right (.cons hleft (.cons hright .nil))
  obtain ⟨_, rfl⟩ := hmakes
  rw [← hleft.type]
  refine ⟨.Assign (storeOf op) left' right', rfl, rfl, .unlessError hfine (.typeOf left' ?_)⟩
  cases op <;> exact .added

theorem conditionalNode_again {condition condition' yes yes' no no' : NodeId}
    (hmakes : program.Makes scopes type (.Conditional condition yes no))
    (hcondition : Like program condition condition') (hyes : Like program yes yes')
    (hno : Like program no no') :
    Remakes program scopes type span (.Conditional condition yes no)
      (conditionalNode span condition' yes' no') [condition', yes', no'] := by
  have hfine : Right program [condition', yes', no'] :=
    Like.right (.cons hcondition (.cons hyes (.cons hno .nil)))
  obtain rfl := hmakes
  refine ⟨.Conditional condition' yes' no', rfl, rfl, .unlessError hfine (.typeOf yes' ?_)⟩
  rw [← hyes.type, ← hno.type]
  split
  · exact .typeOf no' .added
  · exact .added

theorem commaNode_again (hmakes : program.Makes scopes type (.Comma left right))
    (hleft : Like program left left') (hright : Like program right right') :
    Remakes program scopes type span (.Comma left right) (commaNode span left' right')
      [left', right'] := by
  have hfine : Right program [left', right'] := Like.right (.cons hleft (.cons hright .nil))
  obtain rfl := hmakes
  rw [← hright.type]
  exact ⟨.Comma left' right', rfl, rfl, .unlessError hfine (.typeOf right' .added)⟩

theorem leadingNode_again {op : LeadingOp}
    (hmakes : program.Makes scopes type (leadingKind id op)) (hid : Like program id id') :
    Remakes program scopes type span (leadingKind id op) (leadingNode source op span id') [id'] := by
  have hfine : Right program [id'] := Like.right (.cons hid .nil)
  cases op with
  | Value op =>
      obtain rfl := hmakes
      refine ⟨.Unary op id', rfl, rfl, .unlessError hfine (.typeOf id' ?_)⟩
      rw [← hid.type]
      cases op with
      | Not => exact .leaf
      | Negate => exact .added
      | Plus => exact .added
      | Complement => exact .added
  | Deref =>
      obtain ⟨pointed, hpointed, rfl⟩ := hmakes
      refine ⟨.Deref id', rfl, rfl, .unlessError hfine (.typeOf id' (.types ?_))⟩
      rw [hid.type, hpointed]
      exact .leaf
  | AddressOf =>
      obtain ⟨pointed, pointer, hpointed, hshape, rfl⟩ := hmakes
      refine ⟨.AddressOf id', rfl, rfl, .unlessError hfine (.typeOf id' ?_)⟩
      rw [hid.type, hpointed]
      exact .internType hshape .leaf
  | Delete =>
      obtain rfl := hmakes
      exact ⟨.Delete id', rfl, rfl, .unlessError hfine (.typeOf id' .leaf)⟩
  | Step op =>
      obtain rfl := hmakes
      rw [← hid.type]
      exact ⟨.Step op .Before id', rfl, rfl, .unlessError hfine (.typeOf id' .added)⟩

theorem stepNode_again {op : StepOp} (hmakes : program.Makes scopes type (.Step op .After id))
    (hid : Like program id id') :
    Remakes program scopes type span (.Step op .After id) (stepNode op span id') [id'] := by
  have hfine : Right program [id'] := Like.right (.cons hid .nil)
  obtain rfl := hmakes
  rw [← hid.type]
  exact ⟨.Step op .After id', rfl, rfl, .unlessError hfine (.typeOf id' .added)⟩

theorem castNode_again {target : TypeId} (hmakes : program.Makes scopes type (.Cast target id))
    (htarget : target ≠ .error) (hid : Like program id id') :
    Remakes program scopes type span (.Cast target id) (castNode target span id') [id'] := by
  have hfine : Right program [id'] := Like.right (.cons hid .nil)
  obtain ⟨_, rfl⟩ := hmakes
  refine ⟨.Cast target id', rfl, rfl, ?_⟩
  rw [castNode, if_neg htarget]
  exact .unlessError hfine .leaf

theorem callNode_again {callee callee' : NodeId} {arguments arguments' : List NodeId}
    {named : Option FunctionId} (hmakes : program.Makes scopes type (.Call callee arguments named))
    (hcallee : Like program callee callee')
    (harguments : List.Forall₂ (Like program) arguments arguments') :
    Remakes program scopes type span (.Call callee arguments named)
      (callNode source span callee' arguments') (callee' :: arguments') := by
  have hfine : Right program (callee' :: arguments') := Like.right (.cons hcallee harguments)
  have hlength := harguments.length_eq
  obtain ⟨function, hfunction, hcount, rfl, rfl⟩ := hmakes
  refine ⟨.Call callee' arguments' (program.arena.kind callee).functionNamed, ?_, rfl, ?_⟩
  · simp only [NodeKind.bare, List.map_const', hlength]
  · refine .unlessError hfine (.typeOf callee' (.types ?_))
    rw [hcallee.type, hfunction]
    refine .nodeOf callee' ?_
    rw [if_pos (hcount.trans hlength), ← hcallee.functionNamed]
    exact .leaf

theorem indexNode_again (hmakes : program.Makes scopes type (.Index left right))
    (hleft : Like program left left') (hright : Like program right right') :
    Remakes program scopes type span (.Index left right) (indexNode source span left' right')
      [left', right'] := by
  have hfine : Right program [left', right'] := Like.right (.cons hleft (.cons hright .nil))
  obtain ⟨element, helement, rfl⟩ := hmakes
  refine ⟨.Index left' right', rfl, rfl, .unlessError hfine (.typeOf left' (.types ?_))⟩
  rw [hleft.type, helement]
  exact .leaf

theorem removeNode_again (hmakes : program.Makes scopes type (.Remove left right))
    (hleft : Like program left left') (hright : Like program right right') :
    Remakes program scopes type span (.Remove left right) (removeNode source span left' right')
      [left', right'] := by
  have hfine : Right program [left', right'] := Like.right (.cons hleft (.cons hright .nil))
  obtain ⟨⟨value, hvalue⟩, rfl⟩ := hmakes
  refine ⟨.Remove left' right', rfl, rfl, .unlessError hfine (.typeOf left' (.types ?_))⟩
  rw [hleft.type, hvalue]
  exact .leaf

theorem tupleNode_again {ids ids' : List NodeId} (hmakes : program.Makes scopes type (.Tuple ids))
    (hids : List.Forall₂ (Like program) ids ids') :
    Remakes program scopes type span (.Tuple ids) (tupleNode span ids') ids' := by
  have hfine : Right program ids' := Like.right hids
  obtain ⟨tuple, hshape, rfl⟩ := hmakes
  have htypes : ids'.map (fun id => (program.arena.type? id).getD .error) =
      ids.map fun id => (program.arena.type? id).getD .error := by
    clear hshape hfine
    induction hids with
    | nil => rfl
    | cons hfirst _ ih => rw [List.map_cons, List.map_cons, hfirst.type, ih]
  rw [← htypes] at hshape
  refine ⟨.Tuple ids', ?_, rfl, .unlessError hfine (.typesOf ids' (.internType hshape .leaf))⟩
  simp only [NodeKind.bare, List.map_const', hids.length_eq]

theorem assertNode_again {condition : NodeId} {message message' : Option NodeId}
    (hmakes : program.Makes scopes type (.Assert condition message))
    (hoperands : List.Forall₂ (Like program) (condition :: message.toList)
      (id' :: message'.toList)) :
    Remakes program scopes type span (.Assert condition message)
      (assertNode false span id' message') (id' :: message'.toList) := by
  have hfine : Right program (id' :: message'.toList) := Like.right hoperands
  have hlength := hoperands.length_eq
  obtain ⟨_, rfl⟩ := hmakes
  refine ⟨.Assert id' message', ?_, rfl, .unlessError hfine .leaf⟩
  cases message with
  | none =>
      cases message' with
      | none => rfl
      | some _ => cases hlength
  | some _ =>
      cases message' with
      | none => cases hlength
      | some _ => rfl

-- Every kind but a trap, which is made of an operand that it does not keep.
theorem make_again {whole : Expr} {target : TypeId}
    (htarget : ∀ span written operand, whole = .Cast span written operand → target ≠ .error)
    {ids ids' : List NodeId} (hlength : ids.length = whole.parts.length)
    (hexpected : expected program scopes whole target ids = some kind)
    (hmakes : program.Makes scopes type kind) (hids : List.Forall₂ (Like program) ids ids') :
    Remakes program scopes type whole.span kind (make source whole target ids') ids' := by
  cases whole with
  | Identifier span name =>
      obtain rfl := List.eq_nil_of_length_eq_zero hlength
      obtain rfl := List.forall₂_nil_left_iff.mp hids
      refine ⟨kind, rfl, ?_, nameNode_again hexpected hmakes⟩
      rw [expected] at hexpected
      unfold bindingKind? at hexpected
      split at hexpected
      all_goals cases hexpected
      all_goals rfl
  | Integer span value =>
      obtain rfl := List.eq_nil_of_length_eq_zero hlength
      obtain rfl := List.forall₂_nil_left_iff.mp hids
      obtain rfl := Option.some.inj hexpected
      exact ⟨.Integer value, rfl, rfl, integerNode_again hmakes⟩
  | Text span text =>
      obtain rfl := List.eq_nil_of_length_eq_zero hlength
      obtain rfl := List.forall₂_nil_left_iff.mp hids
      obtain rfl := Option.some.inj hexpected
      obtain ⟨_, rfl⟩ := hmakes
      exact ⟨.Text text, rfl, rfl, .leaf⟩
  | Boolean span value =>
      obtain rfl := List.eq_nil_of_length_eq_zero hlength
      obtain rfl := List.forall₂_nil_left_iff.mp hids
      obtain rfl := Option.some.inj hexpected
      obtain rfl := hmakes
      exact ⟨.Boolean value, rfl, rfl, .leaf⟩
  | Null span =>
      obtain rfl := List.eq_nil_of_length_eq_zero hlength
      obtain rfl := List.forall₂_nil_left_iff.mp hids
      obtain rfl := Option.some.inj hexpected
      obtain rfl := hmakes
      exact ⟨.Null, rfl, rfl, .leaf⟩
  | New span name =>
      obtain rfl := List.eq_nil_of_length_eq_zero hlength
      obtain rfl := List.forall₂_nil_left_iff.mp hids
      refine ⟨kind, rfl, ?_, newNode_again hexpected hmakes⟩
      rw [expected] at hexpected
      unfold classKind? at hexpected
      split at hexpected
      · cases hexpected
        rfl
      · cases hexpected
  | NewAnonymous span =>
      obtain rfl := List.eq_nil_of_length_eq_zero hlength
      obtain rfl := List.forall₂_nil_left_iff.mp hids
      obtain rfl := Option.some.inj hexpected
      exact ⟨.NewAnonymous, rfl, rfl, newAnonymousNode_again hmakes⟩
  | Binary span op first second =>
      obtain ⟨left, right, rfl⟩ := List.length_eq_two.mp hlength
      obtain rfl := Option.some.inj hexpected
      obtain _ | ⟨hleft, _ | ⟨hright, ⟨⟩⟩⟩ := hids
      exact connectiveNode_again hmakes hleft hright
  | Assign span op first second =>
      obtain ⟨left, right, rfl⟩ := List.length_eq_two.mp hlength
      obtain rfl := Option.some.inj hexpected
      obtain _ | ⟨hleft, _ | ⟨hright, ⟨⟩⟩⟩ := hids
      exact assignNode_again hmakes hleft hright
  | Conditional span first second third =>
      obtain ⟨condition, yes, no, rfl⟩ := List.length_eq_three.mp hlength
      obtain rfl := Option.some.inj hexpected
      obtain _ | ⟨hcondition, _ | ⟨hyes, _ | ⟨hno, ⟨⟩⟩⟩⟩ := hids
      exact conditionalNode_again hmakes hcondition hyes hno
  | Comma span first second =>
      obtain ⟨left, right, rfl⟩ := List.length_eq_two.mp hlength
      obtain rfl := Option.some.inj hexpected
      obtain _ | ⟨hleft, _ | ⟨hright, ⟨⟩⟩⟩ := hids
      exact commaNode_again hmakes hleft hright
  | Leading span op operand =>
      obtain ⟨id, rfl⟩ := List.length_eq_one_iff.mp hlength
      obtain rfl := Option.some.inj hexpected
      obtain _ | ⟨hid, ⟨⟩⟩ := hids
      exact leadingNode_again hmakes hid
  | Step span op operand =>
      obtain ⟨id, rfl⟩ := List.length_eq_one_iff.mp hlength
      obtain rfl := Option.some.inj hexpected
      obtain _ | ⟨hid, ⟨⟩⟩ := hids
      exact stepNode_again hmakes hid
  | Cast span written operand =>
      obtain ⟨id, rfl⟩ := List.length_eq_one_iff.mp hlength
      obtain rfl := Option.some.inj hexpected
      obtain _ | ⟨hid, ⟨⟩⟩ := hids
      exact castNode_again hmakes (htarget span written operand rfl) hid
  | Call span callee arguments =>
      obtain ⟨callee, arguments, rfl⟩ := List.exists_cons_of_length_eq_add_one hlength
      obtain rfl := Option.some.inj hexpected
      obtain _ | ⟨hcallee, harguments⟩ := hids
      exact callNode_again hmakes hcallee harguments
  | Index span base index =>
      obtain ⟨left, right, rfl⟩ := List.length_eq_two.mp hlength
      obtain rfl := Option.some.inj hexpected
      obtain _ | ⟨hleft, _ | ⟨hright, ⟨⟩⟩⟩ := hids
      exact indexNode_again hmakes hleft hright
  | Remove span container key =>
      obtain ⟨left, right, rfl⟩ := List.length_eq_two.mp hlength
      obtain rfl := Option.some.inj hexpected
      obtain _ | ⟨hleft, _ | ⟨hright, ⟨⟩⟩⟩ := hids
      exact removeNode_again hmakes hleft hright
  | Tuple span elements =>
      obtain rfl : NodeKind.Tuple ids = kind := Option.some.inj hexpected
      exact tupleNode_again hmakes hids
  | Assert span condition message =>
      have hnot : condition.isFalseLiteral = false := by
        cases message with
        | none =>
            obtain ⟨id, rfl⟩ := List.length_eq_one_iff.mp hlength
            by_contra hfalse
            simp [expected, hfalse] at hexpected
        | some message =>
            obtain ⟨id, message, rfl⟩ := List.length_eq_two.mp hlength
            by_contra hfalse
            simp [expected, hfalse] at hexpected
      cases message with
      | none =>
          obtain ⟨id, rfl⟩ := List.length_eq_one_iff.mp hlength
          obtain rfl : NodeKind.Assert id none = kind := by simpa [expected, hnot, one?, two?] using hexpected
          obtain _ | ⟨hid, ⟨⟩⟩ := hids
          have hagain := @assertNode_again _ _ _ span _ id none none hmakes (.cons hid .nil)
          rw [make, hnot]
          exact hagain
      | some message =>
          obtain ⟨id, message, rfl⟩ := List.length_eq_two.mp hlength
          obtain rfl : NodeKind.Assert id (some message) = kind := by
            simpa [expected, hnot, one?, two?] using hexpected
          obtain _ | ⟨hid, _ | ⟨hmessage, ⟨⟩⟩⟩ := hids
          have hagain := @assertNode_again _ _ _ span _ id (some message) (some _)
            hmakes (.cons hid (.cons hmessage .nil))
          rw [make, hnot]
          exact hagain
  | _ => cases hexpected

end

end Lower

end EffectLint
