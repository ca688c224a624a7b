import EffectLint.Program.Node

/-!
Lowered statements. Only the places of expressions matter, so control flow is plain nesting.
-/

namespace EffectLint

inductive Flow where
  | Evaluate (value : NodeId)
  | Return (value : Option NodeId)
  | If (condition : NodeId) (yes : Flow) (no : Option Flow)
  | While (condition : NodeId) (body : Flow)
  | For (first : Option Flow) (condition step : Option NodeId) (body : Flow)
  | Block (statements : List Flow)

-- Where a value is thrown away.
inductive DiscardSite where
  | Statement
  | ForStep
  deriving DecidableEq

structure Discard where
  value : NodeId
  site : DiscardSite
  deriving DecidableEq

namespace Flow

mutual

-- The values that are thrown away, in source order. The step of a loop counts as coming after
-- its body.
def discards : Flow → List Discard
  | .Evaluate value => [⟨value, .Statement⟩]
  | .Return _ => []
  | .If _ yes no =>
      yes.discards ++
        match no with
        | some no => no.discards
        | none => []
  | .While _ body => body.discards
  | .For first _ step body =>
      let header := match first with
        | some first => first.discards
        | none => []
      header ++ body.discards ++ step.toList.map (⟨·, .ForStep⟩)
  | .Block statements => discardsAll statements

def discardsAll : List Flow → List Discard
  | [] => []
  | first :: rest => first.discards ++ discardsAll rest

end

end Flow

end EffectLint
