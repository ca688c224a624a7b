import EffectLint.Grammar.Statement

/-!
The recursion of the grammar. A nonterminal is read by its production, whose own nonterminals
are read one level deeper. From one look at a token to the next the nesting grows by a few
levels only, so the fuel bounds it.
-/

namespace EffectLint

namespace Grammar

open Parse

def production (self : Reading) : Reading
  | .Expression => readExpression self
  | .Assignment => readAssignment self
  | .Conditional => readConditional self
  | .Binary level => readBinary self level
  | .Unary => readUnary self
  | .Type => readType self
  | .Statement => readStatement self

def readWithin : Nat → Reading
  | 0 => fun _ _ _ => .error .Fuel
  | levels + 1 => production (readWithin levels)

-- No more nonterminals than this can be open at a time on the given fuel.
def nesting (fuel : Nat) : Nat :=
  8 * (fuel + 1)

def read : Reading := fun nonterminal limits state =>
  readWithin (nesting state.fuel) nonterminal limits state

end Grammar

end EffectLint
