import EffectLint.Proofs.Tree.Induction

/-!
The parts of a module as they follow each other in the source, whatever sort they are of: items,
statements, expressions, types and names. Some of them know the range of the source that they
stand for.
-/

namespace EffectLint

inductive Phrase where
  | Module (items : List Item)
  | Item (item : EffectLint.Item)
  | Variable (declared : VariableTree)
  | Parameter (parameter : EffectLint.Parameter TypeTree)
  | Block (block : EffectLint.Block)
  | Statement (written : EffectLint.Statement)
  | Expr (whole : EffectLint.Expr)
  | Type (written : TypeTree)
  | Name (name : EffectLint.Name)

namespace Phrase

def innerOfType : TypeTree → List Phrase
  | .Basic _ _ | .Error _ => []
  | .Named _ name => [.Name name]
  | .Pointer _ part | .Array _ part => [.Type part]
  | .AssocArray _ value key => [.Type value, .Type key]
  | .Callable _ _ _ result parameters => .Type result :: parameters.map .Parameter

def innerOfExpr : EffectLint.Expr → List Phrase
  | .Cast _ type operand => [.Type type, .Expr operand]
  | .New _ name => [.Name name]
  | .Declare _ name value => [.Name name, .Expr value]
  | whole => whole.parts.map .Expr

def innerOfStatement : EffectLint.Statement → List Phrase
  | .Evaluate value => [.Expr value]
  | .Local declared => [.Variable declared]
  | .Return _ value => value.toList.map .Expr
  | .If condition yes no => .Expr condition :: .Statement yes :: no.toList.map .Statement
  | .While condition body => [.Expr condition, .Statement body]
  | .For first condition step body =>
      first.toList.map .Statement ++
        (condition.toList.map .Expr ++ (step.toList.map .Expr ++ [.Statement body]))
  | .Block span statements => [.Block ⟨span, statements⟩]
  | .Empty _ => []

def innerOfItem : EffectLint.Item → List Phrase
  | .Import name | .Class name => [.Name name]
  | .Alias name target => [.Name name, .Type target]
  | .Function declared =>
      .Type declared.result :: .Name declared.name ::
        (declared.parameters.map .Parameter ++ declared.body.toList.map .Block)
  | .Global declared => [.Variable declared]

-- The parts of a phrase, in the order in which the tree lists them.
def inner : Phrase → List Phrase
  | .Module items => items.map .Item
  | .Item item => innerOfItem item
  | .Variable declared =>
      .Type declared.type :: .Name declared.name :: declared.value.toList.map .Expr
  | .Parameter parameter => .Type parameter.type :: parameter.name.toList.map .Name
  | .Block block => block.statements.map .Statement
  | .Statement written => innerOfStatement written
  | .Expr whole => innerOfExpr whole
  | .Type written => innerOfType written
  | .Name _ => []

-- The range that a phrase carries. The range of a statement that is a block is the one of that
-- block, and the one of a local variable is that of the variable.
def span? : Phrase → Option Span
  | .Item (.Function declared) => some declared.span
  | .Variable declared => some declared.span
  | .Block block => some block.span
  | .Statement (.Return span _) | .Statement (.Empty span) => some span
  | .Expr whole => some whole.span
  | .Type written => some written.span
  | .Name name => some name.span
  | _ => none

-- The range of what only stands for a part that could not be read.
def missing? : Phrase → Option Span
  | .Expr (.Error span) | .Type (.Error span) => some span
  | .Name name => if name.text = "" then some name.span else none
  | _ => none

-- Whether a phrase is another one or a part of it at any depth.
def Within (part whole : Phrase) : Prop :=
  Relation.ReflTransGen (fun part whole => part ∈ whole.inner) part whole

theorem within_self (phrase : Phrase) : phrase.Within phrase :=
  .refl

theorem Within.of_inner {part middle whole : Phrase} (h : part.Within middle)
    (hinner : middle ∈ whole.inner) : part.Within whole :=
  h.tail hinner

theorem Within.trans {part middle whole : Phrase} (h : part.Within middle)
    (hmiddle : middle.Within whole) : part.Within whole :=
  Relation.ReflTransGen.trans h hmiddle

end Phrase

end EffectLint
