import EffectLint.Grammar.State

/-!
The nonterminals of the grammar that take part in its recursion. What each of them reads is
written over an arbitrary reading of all of them, which `Grammar.Production` then ties up.
-/

namespace EffectLint

inductive Nonterminal where
  -- with the comma operator
  | Expression
  -- what argument lists and initial values accept
  | Assignment
  | Conditional
  -- operators that bind at least as tightly as `level`
  | Binary (level : Nat)
  | Unary
  | Type
  | Statement

abbrev Nonterminal.Result : Nonterminal → Type
  | .Expression | .Assignment | .Conditional | .Binary _ | .Unary => Expr
  | .Type => TypeTree
  -- nothing where the text ends before the statement does
  | .Statement => Option EffectLint.Statement

abbrev Reading := (nonterminal : Nonterminal) → Parse nonterminal.Result

end EffectLint
