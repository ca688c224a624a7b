import EffectLint.Grammar.Expression
import EffectLint.Proofs.Token.Lexeme
import EffectLint.Proofs.Tree.Induction

/-!
How types and expressions are written: the lexemes of each, and the level that each place for an
operand asks for. A tree is neat where every operand holds together as tightly as its place asks.
All of a tree is written where its names are read as names, its numbers and quoted texts are read as
they are, and there is nothing in it that could not be read.
-/

namespace EffectLint

namespace Lexeme

def sign (sign : Sign) : Lexeme :=
  ⟨.Sign sign, sign.spelling⟩

def assign (op : AssignOp) : Lexeme :=
  ⟨.Assign op, op.spelling⟩

def word (word : Keyword) : Lexeme :=
  ⟨.Word word, word.spelling⟩

def basic (type : BasicType) : Lexeme :=
  ⟨.Basic type, type.name⟩

def name (text : String) : Lexeme :=
  ⟨.Identifier, text⟩

def integer (value : Nat) : Lexeme :=
  ⟨.Integer, toString value⟩

def quoted (text : String) : Lexeme :=
  ⟨.Text, "\"" ++ text ++ "\""⟩

-- A comma where more follows.
def separator {α : Type} : List α → List Lexeme
  | [] => []
  | _ :: _ => [sign .Comma]

end Lexeme

open Lexeme

def Promises.lexemes (promises : Promises) : List Lexeme :=
  (if promises.isPure then [word .Pure] else []) ++
    (if promises.isNothrow then [word .Nothrow] else [])

namespace TypeTree

mutual

def lexemes : TypeTree → List Lexeme
  | .Basic _ type => [basic type]
  | .Named _ name => [Lexeme.name name.text]
  | .Pointer _ target => target.lexemes ++ [sign .Star]
  | .Array _ element => element.lexemes ++ [sign .BracketOpen, sign .BracketClose]
  | .AssocArray _ value key =>
      value.lexemes ++ sign .BracketOpen :: (key.lexemes ++ [sign .BracketClose])
  | .Callable _ isDelegate promises result parameters =>
      result.lexemes ++ word (if isDelegate then .Delegate else .Function) :: sign .ParenOpen ::
        (parameterLexemes parameters ++ sign .ParenClose :: promises.lexemes)
  | .Error _ => []

def parameterLexemes : List (Parameter TypeTree) → List Lexeme
  | [] => []
  | ⟨isRef, type, name⟩ :: rest =>
      (if isRef then [word .Ref] else []) ++
        (type.lexemes ++ (name.toList.map (Lexeme.name ·.text) ++
          (separator rest ++ parameterLexemes rest)))

end

mutual

-- The type without its places in the source.
def bare : TypeTree → TypeTree
  | .Basic _ type => .Basic ⟨0, 0⟩ type
  | .Named _ name => .Named ⟨0, 0⟩ ⟨name.text, ⟨0, 0⟩⟩
  | .Pointer _ target => .Pointer ⟨0, 0⟩ target.bare
  | .Array _ element => .Array ⟨0, 0⟩ element.bare
  | .AssocArray _ value key => .AssocArray ⟨0, 0⟩ value.bare key.bare
  | .Callable _ isDelegate promises result parameters =>
      .Callable ⟨0, 0⟩ isDelegate promises result.bare (bareParameters parameters)
  | .Error _ => .Error ⟨0, 0⟩

def bareParameters : List (Parameter TypeTree) → List (Parameter TypeTree)
  | [] => []
  | ⟨isRef, type, name⟩ :: rest =>
      ⟨isRef, type.bare, name.map fun name => ⟨name.text, ⟨0, 0⟩⟩⟩ :: bareParameters rest

end

theorem bareParameters_eq (parameters : List (Parameter TypeTree)) :
    bareParameters parameters = parameters.map fun parameter =>
      ⟨parameter.isRef, parameter.type.bare, parameter.name.map fun name => ⟨name.text, ⟨0, 0⟩⟩⟩ := by
  induction parameters with
  | nil => simp only [bareParameters, List.map_nil]
  | cons first rest ih => simp only [bareParameters, List.map_cons, ih]

-- Every name in the type is read as a name, and nothing in it is wrong.
inductive WellWritten : TypeTree → Prop where
  | Basic {span type} : WellWritten (.Basic span type)
  | Named {span name} : (Lexeme.name name.text).Valid → WellWritten (.Named span name)
  | Pointer {span target} : WellWritten target → WellWritten (.Pointer span target)
  | Array {span element} : WellWritten element → WellWritten (.Array span element)
  | AssocArray {span value key} : WellWritten value → WellWritten key →
      WellWritten (.AssocArray span value key)
  | Callable {span isDelegate promises result parameters} : WellWritten result →
      (∀ parameter ∈ parameters, WellWritten parameter.type) →
      (∀ parameter ∈ parameters, ∀ name ∈ parameter.name, (Lexeme.name name.text).Valid) →
      WellWritten (.Callable span isDelegate promises result parameters)

end TypeTree

def BinaryOp.lexemes : BinaryOp → List Lexeme
  | .Add => [sign .Plus]
  | .Sub => [sign .Minus]
  | .Concat => [sign .Tilde]
  | .Mul => [sign .Star]
  | .Div => [sign .Slash]
  | .Mod => [sign .Percent]
  | .Pow => [sign .Power]
  | .Shl => [sign .ShiftLeft]
  | .Shr => [sign .ShiftRight]
  | .Ushr => [sign .ShiftRightUnsigned]
  | .BitAnd => [sign .Ampersand]
  | .BitOr => [sign .Bar]
  | .BitXor => [sign .Caret]
  | .Eq => [sign .EqualEqual]
  | .Ne => [sign .NotEqual]
  | .Lt => [sign .Less]
  | .Le => [sign .LessEqual]
  | .Gt => [sign .Greater]
  | .Ge => [sign .GreaterEqual]
  | .Identical => [word .Is]
  | .NotIdentical => [sign .Bang, word .Is]

def Connective.lexemes : Connective → List Lexeme
  | .Value op => op.lexemes
  | .AndAnd => [sign .AndAnd]
  | .OrOr => [sign .OrOr]
  | .In => [word .In]

def StepOp.lexeme : StepOp → Lexeme
  | .Increment => sign .PlusPlus
  | .Decrement => sign .MinusMinus

def LeadingOp.lexeme : LeadingOp → Lexeme
  | .Value .Negate => sign .Minus
  | .Value .Plus => sign .Plus
  | .Value .Not => sign .Bang
  | .Value .Complement => sign .Tilde
  | .Deref => sign .Star
  | .AddressOf => sign .Ampersand
  | .Delete => word .Delete
  | .Step op => op.lexeme

def storeLexeme : Option AssignOp → Lexeme
  | none => sign .Equal
  | some op => assign op

namespace Expr

mutual

def lexemes : Expr → List Lexeme
  | .Identifier _ text => [name text]
  | .Integer _ value => [integer value]
  | .Text _ text => [quoted text]
  | .Boolean _ value => [word (if value then .True else .False)]
  | .Null _ => [word .Null]
  | .Paren _ inner => sign .ParenOpen :: (inner.lexemes ++ [sign .ParenClose])
  | .Binary _ op left right => left.lexemes ++ (op.lexemes ++ right.lexemes)
  | .Assign _ op target value => target.lexemes ++ storeLexeme op :: value.lexemes
  | .Conditional _ condition yes no =>
      condition.lexemes ++ sign .Question :: (yes.lexemes ++ sign .Colon :: no.lexemes)
  | .Comma _ first second => first.lexemes ++ sign .Comma :: second.lexemes
  | .Leading _ op operand => op.lexeme :: operand.lexemes
  | .Step _ op operand => operand.lexemes ++ [op.lexeme]
  | .Cast _ type operand =>
      word .Cast :: sign .ParenOpen :: (type.lexemes ++ sign .ParenClose :: operand.lexemes)
  | .New _ target => [word .New, name target.text]
  | .NewAnonymous _ => [word .New, word .Class, sign .BraceOpen, sign .BraceClose]
  | .Call _ callee arguments =>
      callee.lexemes ++ sign .ParenOpen :: (listLexemes arguments ++ [sign .ParenClose])
  | .Index _ base index =>
      base.lexemes ++ sign .BracketOpen :: (index.lexemes ++ [sign .BracketClose])
  | .Remove _ container key =>
      container.lexemes ++ sign .Dot :: name "remove" :: sign .ParenOpen ::
        (key.lexemes ++ [sign .ParenClose])
  | .Tuple _ elements =>
      word .Tuple :: sign .ParenOpen :: (listLexemes elements ++ [sign .ParenClose])
  | .Assert _ condition none =>
      word .Assert :: sign .ParenOpen :: (condition.lexemes ++ [sign .ParenClose])
  | .Assert _ condition (some message) =>
      word .Assert :: sign .ParenOpen ::
        (condition.lexemes ++ sign .Comma :: (message.lexemes ++ [sign .ParenClose]))
  | .Declare _ declared value =>
      word .Auto :: name declared.text :: sign .Equal :: value.lexemes
  | .Compiles _ operand =>
      word .Traits :: sign .ParenOpen :: name "compiles" :: sign .Comma ::
        (operand.lexemes ++ [sign .ParenClose])
  | .Error _ => []

def listLexemes : List Expr → List Lexeme
  | [] => []
  | first :: rest => first.lexemes ++ (separator rest ++ listLexemes rest)

end

mutual

-- The expression without its places in the source.
def bare : Expr → Expr
  | .Identifier _ text => .Identifier ⟨0, 0⟩ text
  | .Integer _ value => .Integer ⟨0, 0⟩ value
  | .Text _ text => .Text ⟨0, 0⟩ text
  | .Boolean _ value => .Boolean ⟨0, 0⟩ value
  | .Null _ => .Null ⟨0, 0⟩
  | .Paren _ inner => .Paren ⟨0, 0⟩ inner.bare
  | .Binary _ op left right => .Binary ⟨0, 0⟩ op left.bare right.bare
  | .Assign _ op target value => .Assign ⟨0, 0⟩ op target.bare value.bare
  | .Conditional _ condition yes no => .Conditional ⟨0, 0⟩ condition.bare yes.bare no.bare
  | .Comma _ first second => .Comma ⟨0, 0⟩ first.bare second.bare
  | .Leading _ op operand => .Leading ⟨0, 0⟩ op operand.bare
  | .Step _ op operand => .Step ⟨0, 0⟩ op operand.bare
  | .Cast _ type operand => .Cast ⟨0, 0⟩ type.bare operand.bare
  | .New _ target => .New ⟨0, 0⟩ ⟨target.text, ⟨0, 0⟩⟩
  | .NewAnonymous _ => .NewAnonymous ⟨0, 0⟩
  | .Call _ callee arguments => .Call ⟨0, 0⟩ callee.bare (bareList arguments)
  | .Index _ base index => .Index ⟨0, 0⟩ base.bare index.bare
  | .Remove _ container key => .Remove ⟨0, 0⟩ container.bare key.bare
  | .Tuple _ elements => .Tuple ⟨0, 0⟩ (bareList elements)
  | .Assert _ condition none => .Assert ⟨0, 0⟩ condition.bare none
  | .Assert _ condition (some message) => .Assert ⟨0, 0⟩ condition.bare (some message.bare)
  | .Declare _ declared value => .Declare ⟨0, 0⟩ ⟨declared.text, ⟨0, 0⟩⟩ value.bare
  | .Compiles _ operand => .Compiles ⟨0, 0⟩ operand.bare
  | .Error _ => .Error ⟨0, 0⟩

def bareList : List Expr → List Expr
  | [] => []
  | first :: rest => first.bare :: bareList rest

end

theorem bareList_eq (exprs : List Expr) : bareList exprs = exprs.map bare := by
  induction exprs with
  | nil => simp only [bareList, List.map_nil]
  | cons first rest ih => simp only [bareList, List.map_cons, ih]

theorem parts_bare (whole : Expr) : whole.bare.parts = whole.parts.map bare := by
  cases whole with
  | Call span callee arguments => simp only [bare, parts, bareList_eq, List.map_cons]
  | Tuple span elements => simp only [bare, parts, bareList_eq]
  | Assert span condition message => cases message <;> rfl
  | _ => rfl

-- How tightly the written form holds together.
def level : Expr → Nat
  | .Comma _ _ _ => Level.comma
  | .Assign _ _ _ _ | .Declare _ _ _ => Level.assign
  | .Conditional _ _ _ _ => Level.conditional
  | .Binary _ op _ _ => op.level
  | .Leading _ _ _ | .Cast _ _ _ | .New _ _ | .NewAnonymous _ => Level.unary
  | .Step _ _ _ | .Call _ _ _ | .Index _ _ _ | .Remove _ _ _ => Level.attached
  | .Identifier _ _ | .Integer _ _ | .Text _ _ | .Boolean _ _ | .Null _ | .Paren _ _ | .Tuple _ _
  | .Assert _ _ _ | .Compiles _ _ | .Error _ => Level.primary

-- The parts of an expression with the levels that their places ask for.
def places : Expr → List (Nat × Expr)
  | .Paren _ inner => [(Level.comma, inner)]
  | .Binary _ op left right =>
      if op = .Value .Pow then [(Level.attached, left), (Level.power, right)]
      else [(op.level, left), (op.level + 1, right)]
  | .Assign _ _ target value => [(Level.conditional, target), (Level.assign, value)]
  | .Conditional _ condition yes no =>
      [(Level.orOr, condition), (Level.comma, yes), (Level.conditional, no)]
  | .Comma _ first second => [(Level.comma, first), (Level.assign, second)]
  | .Leading _ _ operand | .Cast _ _ operand => [(Level.power, operand)]
  | .Step _ _ operand => [(Level.attached, operand)]
  | .Call _ callee arguments =>
      (Level.attached, callee) :: arguments.map fun argument => (Level.assign, argument)
  | .Index _ base index => [(Level.attached, base), (Level.assign, index)]
  | .Remove _ container key => [(Level.attached, container), (Level.assign, key)]
  | .Tuple _ elements => elements.map fun element => (Level.assign, element)
  | .Assert _ condition message =>
      (Level.assign, condition) :: message.toList.map fun message => (Level.assign, message)
  | .Declare _ _ value => [(Level.assign, value)]
  | .Compiles _ operand => [(Level.assign, operand)]
  | .Identifier _ _ | .Integer _ _ | .Text _ _ | .Boolean _ _ | .Null _ | .New _ _
  | .NewAnonymous _ | .Error _ => []

-- What stands in an expression besides its parts is read as what it is.
def WellWritten : Expr → Prop
  | .Identifier _ text => (name text).Valid
  | .Integer _ value => value < Grammar.integerBound
  | .Text _ text => (quoted text).Valid
  | .Cast _ type _ => type.WellWritten
  | .New _ target => (name target.text).Valid
  | .Declare _ declared _ => (name declared.text).Valid
  | .Error _ => False
  | _ => True

inductive Neat : Expr → Prop where
  | intro {whole} : whole.WellWritten → (∀ place ∈ whole.places, place.1 ≤ place.2.level) →
      (∀ place ∈ whole.places, Neat place.2) → Neat whole

end Expr

namespace Expr

-- Whether a variable is declared somewhere in an expression.
def Declares (whole : Expr) : Prop :=
  ∃ span name value, Within (.Declare span name value) whole

theorem Declares.of_part {part whole : Expr} (hdeclares : part.Declares)
    (hpart : part ∈ whole.parts) : whole.Declares := by
  obtain ⟨span, name, value, hwithin⟩ := hdeclares
  exact ⟨span, name, value, hwithin.tail hpart⟩

theorem declares_Declare (span : Span) (name : Name) (value : Expr) :
    (Declare span name value).Declares :=
  ⟨span, name, value, .refl⟩

theorem lexemes_mem_list {part : Expr} {exprs : List Expr} (h : part ∈ exprs) :
    part.lexemes ⊆ listLexemes exprs := by
  induction exprs with
  | nil => cases h
  | cons first rest ih =>
      rw [listLexemes]
      rcases List.mem_cons.mp h with rfl | hrest
      · exact List.subset_append_left _ _
      · exact List.subset_append_of_subset_right _ (List.subset_append_of_subset_right _ (ih hrest))

-- The lexemes of a part stand among those of the whole.
theorem lexemes_part {part whole : Expr} (hpart : part ∈ whole.parts) :
    part.lexemes ⊆ whole.lexemes := by
  intro lexeme hmem
  cases whole with
  | Call span callee arguments =>
      rcases List.mem_cons.mp hpart with rfl | hpart
      · simp [lexemes, hmem]
      · simp [lexemes, lexemes_mem_list hpart hmem]
  | Tuple span elements =>
      have hlexeme := @lexemes_mem_list part elements hpart _ hmem
      simp [lexemes, hlexeme]
  | Assert span condition message =>
      cases message <;> simp [parts] at hpart <;> rcases hpart with rfl | rfl <;>
        simp [lexemes, hmem]
  | _ => simp [parts] at hpart <;> rcases hpart with rfl | rfl | rfl <;> simp [lexemes, hmem]

theorem lexemes_within {inner whole : Expr} (h : Within inner whole) :
    inner.lexemes ⊆ whole.lexemes := by
  induction h with
  | refl => exact fun _ hmem => hmem
  | tail _ hpart ih => exact fun _ hmem => lexemes_part hpart (ih hmem)

theorem Asks.mem_lexemes {whole : Expr} (h : whole.Asks) : .word .Traits ∈ whole.lexemes := by
  obtain ⟨span, operand, hwithin⟩ := h
  refine lexemes_within hwithin ?_
  rw [lexemes]
  exact List.mem_cons_self

theorem Declares.mem_lexemes {whole : Expr} (h : whole.Declares) : .word .Auto ∈ whole.lexemes := by
  obtain ⟨span, name, value, hwithin⟩ := h
  refine lexemes_within hwithin ?_
  rw [lexemes]
  exact List.mem_cons_self

-- Whatever stands in an expression is read as what it is.
def AllWritten (whole : Expr) : Prop :=
  ∀ inner, Within inner whole → inner.WellWritten

theorem AllWritten.here {whole : Expr} (h : whole.AllWritten) : whole.WellWritten :=
  h whole .refl

theorem AllWritten.not_error {whole : Expr} (h : whole.AllWritten) (span : Span) :
    whole ≠ .Error span := by
  rintro rfl
  exact h.here

theorem AllWritten.part {part whole : Expr} (h : whole.AllWritten) (hpart : part ∈ whole.parts) :
    part.AllWritten :=
  fun inner hwithin => h inner (hwithin.tail hpart)

theorem AllWritten.of_parts {whole : Expr} (hwritten : whole.WellWritten)
    (hparts : ∀ part ∈ whole.parts, part.AllWritten) : whole.AllWritten := by
  intro inner hwithin
  rcases Relation.ReflTransGen.cases_tail hwithin with rfl | ⟨part, hinner, hpart⟩
  · exact hwritten
  · exact hparts part hpart inner hinner

end Expr

def VariableTree.AllWritten (declared : VariableTree) : Prop :=
  declared.type.WellWritten ∧ (Lexeme.name declared.name.text).Valid ∧
    ∀ value ∈ declared.value, value.AllWritten

inductive Statement.AllWritten : Statement → Prop where
  | Evaluate {value} : value.AllWritten → AllWritten (.Evaluate value)
  | Local {declared} : declared.AllWritten → AllWritten (.Local declared)
  | Return {span value} : (∀ written ∈ value, written.AllWritten) →
      AllWritten (.Return span value)
  | If {condition yes no} : condition.AllWritten → AllWritten yes →
      (∀ other ∈ no, AllWritten other) → AllWritten (.If condition yes no)
  | While {condition body} : condition.AllWritten → AllWritten body →
      AllWritten (.While condition body)
  | For {first condition step body} : (∀ one ∈ first, AllWritten one) →
      (∀ written ∈ condition, written.AllWritten) → (∀ written ∈ step, written.AllWritten) →
      AllWritten body → AllWritten (.For first condition step body)
  | Block {span statements} : (∀ one ∈ statements, AllWritten one) →
      AllWritten (.Block span statements)
  | Empty {span} : AllWritten (.Empty span)

def FunctionTree.AllWritten (declared : FunctionTree) : Prop :=
  (Lexeme.name declared.name.text).Valid ∧ declared.result.WellWritten ∧
    (∀ parameter ∈ declared.parameters, parameter.type.WellWritten) ∧
    (∀ parameter ∈ declared.parameters, ∀ name ∈ parameter.name, (Lexeme.name name.text).Valid) ∧
    ∀ written ∈ declared.body, ∀ one ∈ written.statements, one.AllWritten

def Item.AllWritten : Item → Prop
  | .Import name | .Class name => (Lexeme.name name.text).Valid
  | .Alias name target => (Lexeme.name name.text).Valid ∧ target.WellWritten
  | .Function declared => declared.AllWritten
  | .Global declared => declared.AllWritten

end EffectLint
