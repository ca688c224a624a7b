import EffectLint.Proofs.Grammar.Placed
import EffectLint.Proofs.Grammar.Written
import EffectLint.Proofs.Tree.Phrase

/-!
Which tokens and which parts each phrase is read from, and in what order. A phrase is whole where
all of them are there. Where something is wrong with the text, some may be missing and others may
stand between them, and what only stands for a missing part need not be read from anything.
-/

namespace EffectLint

inductive Slot where
  -- a token without which the phrase would not have been begun or gone on with
  | Token (kind : TokenKind)
  -- a token that is complained about where it is missing
  | Expected (kind : TokenKind)
  -- a token of any kind
  | Any
  | Part (phrase : Phrase)

namespace Slot

def phrase? : Slot → Option Phrase
  | .Part phrase => some phrase
  | _ => none

def Takes : Slot → EffectLint.Token → Prop
  | .Token kind, token | .Expected kind, token => token.kind = kind
  | .Any, _ => True
  | .Part _, _ => False

def mayMiss : Slot → Bool
  | .Expected _ | .Any => true
  | .Token _ | .Part _ => false

def isToken : Slot → Bool
  | .Token _ => true
  | _ => false

-- A value that is there only behind a token of its own.
def given (kind : TokenKind) : Option Expr → List Slot
  | some value => [.Token kind, .Part (.Expr value)]
  | none => []

-- The words in front of a declaration or behind a list of parameters.
def Promising (slots : List Slot) : Prop :=
  ∀ slot ∈ slots, slot = .Token (.Word .Pure) ∨ slot = .Token (.Word .Nothrow)

-- Phrases with a comma behind each of them.
def separated (phrases : List Phrase) : List Slot :=
  phrases.flatMap fun phrase => [.Part phrase, .Token (.Sign .Comma)]

-- A comma may stand behind the last phrase of a list as well.
inductive CommaList : List Phrase → List Slot → Prop where
  | Trailing (phrases) : CommaList phrases (separated phrases)
  | Plain (phrases) (last) : CommaList (phrases ++ [last]) (separated phrases ++ [.Part last])

end Slot

open Slot in
inductive Phrase.Form : Phrase → List Slot → Prop where
  -- between items a semicolon stands for nothing
  | Module {items slots} : slots.filterMap phrase? = items.map .Item →
      (∀ slot ∈ slots, slot.phrase? = none → slot = .Token (.Sign .Semicolon)) →
      Form (.Module items) slots
  | Import {name} : Form (.Item (.Import name))
      [.Token (.Word .Import), .Part (.Name name), .Expected (.Sign .Semicolon)]
  | Alias {name target} : Form (.Item (.Alias name target))
      [.Token (.Word .Alias), .Part (.Name name), .Expected (.Sign .Equal),
        .Part (.Type target), .Expected (.Sign .Semicolon)]
  | Class {name} : Form (.Item (.Class name))
      [.Token (.Word .Class), .Part (.Name name), .Expected (.Sign .Semicolon)]
  | Function {declared leading listed trailing} : Promising leading →
      CommaList (declared.parameters.map .Parameter) listed → Promising trailing →
      Form (.Item (.Function declared))
        (leading ++ (.Part (.Type declared.result) :: .Part (.Name declared.name) ::
          .Expected (.Sign .ParenOpen) :: (listed ++ (.Expected (.Sign .ParenClose) ::
            (trailing ++ declared.body.elim [.Expected (.Sign .Semicolon)]
              fun block => [.Part (.Block block)])))))
  | Global {declared} : Form (.Item (.Global declared)) [.Part (.Variable declared)]
  -- a global variable may be promised something, to no effect
  | Variable {declared leading} : Promising leading → Form (.Variable declared)
      (leading ++ (.Part (.Type declared.type) :: .Part (.Name declared.name) ::
        (given (.Sign .Equal) declared.value ++ [.Expected (.Sign .Semicolon)])))
  | Parameter {parameter} : Form (.Parameter parameter)
      ((if parameter.isRef then [.Token (.Word .Ref)] else []) ++
        (.Part (.Type parameter.type) ::
          parameter.name.toList.map fun name => .Part (.Name name)))
  | Block {block} : Form (.Block block)
      (.Token (.Sign .BraceOpen) :: (block.statements.map (fun one => .Part (.Statement one)) ++
        [.Expected (.Sign .BraceClose)]))
  | Evaluate {value} : Form (.Statement (.Evaluate value))
      [.Part (.Expr value), .Expected (.Sign .Semicolon)]
  | Local {declared} : Form (.Statement (.Local declared)) [.Part (.Variable declared)]
  | Return {span value} : Form (.Statement (.Return span value))
      (.Token (.Word .Return) :: (value.toList.map (fun one => .Part (.Expr one)) ++
        [.Expected (.Sign .Semicolon)]))
  | If {condition yes no} : Form (.Statement (.If condition yes no))
      (.Token (.Word .If) :: .Expected (.Sign .ParenOpen) :: .Part (.Expr condition) ::
        .Expected (.Sign .ParenClose) :: .Part (.Statement yes) ::
        no.elim [] fun other => [.Token (.Word .Else), .Part (.Statement other)])
  | While {condition body} : Form (.Statement (.While condition body))
      [.Token (.Word .While), .Expected (.Sign .ParenOpen), .Part (.Expr condition),
        .Expected (.Sign .ParenClose), .Part (.Statement body)]
  | For {first condition step body} : Form (.Statement (.For first condition step body))
      (.Token (.Word .For) :: .Expected (.Sign .ParenOpen) ::
        (first.elim [.Token (.Sign .Semicolon)] (fun one => [.Part (.Statement one)]) ++
        (condition.toList.map (fun one => .Part (.Expr one)) ++
        (.Expected (.Sign .Semicolon) :: (step.toList.map (fun one => .Part (.Expr one)) ++
        [.Expected (.Sign .ParenClose), .Part (.Statement body)])))))
  | Nested {span statements} : Form (.Statement (.Block span statements))
      [.Part (.Block ⟨span, statements⟩)]
  | Empty {span} : Form (.Statement (.Empty span)) [.Token (.Sign .Semicolon)]
  | Identifier {span name} : Form (.Expr (.Identifier span name)) [.Token .Identifier]
  | Integer {span value} : Form (.Expr (.Integer span value)) [.Token .Integer]
  | Text {span text} : Form (.Expr (.Text span text)) [.Token .Text]
  | Boolean {span value} : Form (.Expr (.Boolean span value))
      [.Token (.Word (if value then .True else .False))]
  | Null {span} : Form (.Expr (.Null span)) [.Token (.Word .Null)]
  | Paren {span whole} : Form (.Expr (.Paren span whole))
      [.Token (.Sign .ParenOpen), .Part (.Expr whole), .Expected (.Sign .ParenClose)]
  | Binary {span op left right} : Form (.Expr (.Binary span op left right))
      (.Part (.Expr left) ::
        (op.lexemes.map (fun lexeme => .Token lexeme.kind) ++ [.Part (.Expr right)]))
  | Assign {span op target value} : Form (.Expr (.Assign span op target value))
      [.Part (.Expr target), .Token (storeLexeme op).kind, .Part (.Expr value)]
  | Conditional {span condition yes no} : Form (.Expr (.Conditional span condition yes no))
      [.Part (.Expr condition), .Token (.Sign .Question), .Part (.Expr yes),
        .Expected (.Sign .Colon), .Part (.Expr no)]
  | Comma {span first second} : Form (.Expr (.Comma span first second))
      [.Part (.Expr first), .Token (.Sign .Comma), .Part (.Expr second)]
  | Leading {span op operand} : Form (.Expr (.Leading span op operand))
      [.Token op.lexeme.kind, .Part (.Expr operand)]
  | Step {span op operand} : Form (.Expr (.Step span op operand))
      [.Part (.Expr operand), .Token op.lexeme.kind]
  | Cast {span type operand} : Form (.Expr (.Cast span type operand))
      [.Token (.Word .Cast), .Expected (.Sign .ParenOpen), .Part (.Type type),
        .Expected (.Sign .ParenClose), .Part (.Expr operand)]
  | New {span name} : Form (.Expr (.New span name)) [.Token (.Word .New), .Part (.Name name)]
  | NewAnonymous {span} : Form (.Expr (.NewAnonymous span))
      [.Token (.Word .New), .Token (.Word .Class), .Expected (.Sign .BraceOpen),
        .Expected (.Sign .BraceClose)]
  | Call {span callee arguments listed} : CommaList (arguments.map .Expr) listed →
      Form (.Expr (.Call span callee arguments))
        (.Part (.Expr callee) :: .Token (.Sign .ParenOpen) ::
          (listed ++ [.Expected (.Sign .ParenClose)]))
  | Index {span base index} : Form (.Expr (.Index span base index))
      [.Part (.Expr base), .Token (.Sign .BracketOpen), .Part (.Expr index),
        .Expected (.Sign .BracketClose)]
  | Remove {span container key listed} : CommaList [.Expr key] listed →
      Form (.Expr (.Remove span container key))
        (.Part (.Expr container) :: .Token (.Sign .Dot) :: .Token .Identifier ::
          .Token (.Sign .ParenOpen) :: (listed ++ [.Expected (.Sign .ParenClose)]))
  -- what opens the list of a tuple is not looked at
  | Tuple {span elements listed} : CommaList (elements.map .Expr) listed →
      Form (.Expr (.Tuple span elements))
        (.Token (.Word .Tuple) :: .Any :: (listed ++ [.Expected (.Sign .ParenClose)]))
  | Assert {span condition message} : Form (.Expr (.Assert span condition message))
      (.Token (.Word .Assert) :: .Expected (.Sign .ParenOpen) :: .Part (.Expr condition) ::
        (given (.Sign .Comma) message ++ [.Expected (.Sign .ParenClose)]))
  | Declare {span name value} : Form (.Expr (.Declare span name value))
      [.Token (.Word .Auto), .Part (.Name name), .Expected (.Sign .Equal), .Part (.Expr value)]
  | Compiles {span operand} : Form (.Expr (.Compiles span operand))
      [.Token (.Word .Traits), .Expected (.Sign .ParenOpen), .Token .Identifier,
        .Expected (.Sign .Comma), .Part (.Expr operand), .Expected (.Sign .ParenClose)]
  | Basic {span type} : Form (.Type (.Basic span type)) [.Token (.Basic type)]
  | Named {span name} : Form (.Type (.Named span name)) [.Part (.Name name)]
  | Pointer {span target} : Form (.Type (.Pointer span target))
      [.Part (.Type target), .Token (.Sign .Star)]
  | Array {span element} : Form (.Type (.Array span element))
      [.Part (.Type element), .Token (.Sign .BracketOpen), .Token (.Sign .BracketClose)]
  | AssocArray {span value key} : Form (.Type (.AssocArray span value key))
      [.Part (.Type value), .Token (.Sign .BracketOpen), .Part (.Type key),
        .Expected (.Sign .BracketClose)]
  | Callable {span isDelegate promises result parameters listed trailing} :
      CommaList (parameters.map .Parameter) listed → Promising trailing →
      Form (.Type (.Callable span isDelegate promises result parameters))
        (.Part (.Type result) :: .Token (.Word (if isDelegate then .Delegate else .Function)) ::
          .Expected (.Sign .ParenOpen) ::
          (listed ++ (.Expected (.Sign .ParenClose) :: trailing)))
  | Name {name} : Form (.Name name) [.Token .Identifier]

namespace Slot

theorem Promising.phrases {slots : List Slot} (h : Promising slots) :
    slots.filterMap phrase? = [] := by
  refine List.filterMap_eq_nil_iff.mpr fun slot hslot => ?_
  rcases h slot hslot with rfl | rfl <;> rfl

theorem phrases_separated (phrases : List Phrase) :
    (separated phrases).filterMap phrase? = phrases := by
  induction phrases with
  | nil => rfl
  | cons first rest ih => exact congrArg (first :: ·) ih

theorem CommaList.phrases {phrases : List Phrase} {slots : List Slot}
    (h : CommaList phrases slots) : slots.filterMap phrase? = phrases := by
  cases h with
  | Trailing => exact phrases_separated phrases
  | Plain front last => rw [List.filterMap_append, phrases_separated]; rfl

@[simp]
theorem filterMap_parts {α : Type} (make : α → Phrase) (parts : List α) :
    parts.filterMap (phrase? ∘ fun part => .Part (make part)) = parts.map make := by
  induction parts with
  | nil => rfl
  | cons first rest ih => exact congrArg (make first :: ·) ih

@[simp]
theorem filterMap_tokens {α : Type} (kind : α → TokenKind) (tokens : List α) :
    tokens.filterMap (phrase? ∘ fun token => .Token (kind token)) = [] := by
  induction tokens with
  | nil => rfl
  | cons first rest ih => exact ih

@[simp]
theorem filterMap_given (kind : TokenKind) (value : Option Expr) :
    (given kind value).filterMap phrase? = value.toList.map .Expr := by
  cases value <;> rfl

end Slot

-- The parts of a phrase are those that it is read from, in the same order.
theorem Phrase.Form.inner_eq {phrase : Phrase} {slots : List Slot} (h : phrase.Form slots) :
    slots.filterMap Slot.phrase? = phrase.inner := by
  cases h with
  | Module hitems _ => exact hitems
  | @Function declared _ _ _ hleading hlisted htrailing =>
      cases hbody : declared.body <;>
        simp [List.filterMap_cons, hleading.phrases, hlisted.phrases, htrailing.phrases,
          Slot.phrase?, Phrase.inner, Phrase.innerOfItem, hbody]
  | Variable hleading =>
      simp [List.filterMap_cons, hleading.phrases, Slot.phrase?, Phrase.inner]
  | @Parameter parameter =>
      obtain ⟨isRef, type, name⟩ := parameter
      cases isRef <;> cases name <;> rfl
  | Block => simp [List.filterMap_cons, Slot.phrase?, Phrase.inner]
  | @Return _ value => cases value <;> rfl
  | @If _ _ no => cases no <;> rfl
  | @For first condition step _ => cases first <;> cases condition <;> cases step <;> rfl
  | Binary => simp [Slot.phrase?, Phrase.inner, Phrase.innerOfExpr, Expr.parts]
  | Call hlisted | Tuple hlisted | Remove hlisted =>
      simp [List.filterMap_cons, hlisted.phrases, Slot.phrase?, Phrase.inner, Phrase.innerOfExpr,
        Expr.parts]
  | @Assert _ _ message => cases message <;> rfl
  | Callable hlisted htrailing =>
      simp [List.filterMap_cons, hlisted.phrases, htrailing.phrases, Slot.phrase?, Phrase.inner,
        Phrase.innerOfType]
  | _ => rfl

end EffectLint
