import EffectLint.Lowering.Node

/-!
Lowering expressions. Most expressions start with an operand that may itself start with one, and
such a chain can be long. It is followed down to its first leaf, and what remains to be done for
each expression passed on the way is kept on a list: once its first operand is lowered, lower
the others and make the node.
-/

namespace EffectLint

namespace Lower

-- What remains of an expression whose first operand is given.
abbrev Rest := NodeId → Lower NodeId

-- Finish the expressions around a lowered one, from the innermost to the outermost.
def finish : List Rest → NodeId → Lower NodeId
  | [], id => return id
  | rest :: outer, id => do
      finish outer (← rest id)

-- Whether `body` is accepted. Nothing it reports or declares is kept.
def accepts (body : Lower NodeId) : Lower Bool := do
  let gag ← startGag
  let id ← inScope body
  let failed ← endGag gag
  return !failed && !(← isError id)

variable (source : List Char)

mutual

def along : Expr → List Rest → Lower NodeId
  | .Identifier span name, outer => do
      finish outer (← nameNode name span)
  | .Integer span value, outer => do
      finish outer (← integerNode value span)
  | .Text span text, outer => do
      finish outer (← leaf (.Text text) .string span)
  | .Boolean span value, outer => do
      finish outer (← leaf (.Boolean value) .bool span)
  | .Null span, outer => do
      finish outer (← leaf .Null .null span)
  | .Paren _ inner, outer => along inner outer
  | .Binary span op left right, outer =>
      along left ((fun left => do
        let right ← along right []
        connectiveNode source op span left right) :: outer)
  | .Assign span op target value, outer =>
      along target ((fun target => do
        let value ← along value []
        assignNode op span target value) :: outer)
  | .Conditional span condition yes no, outer =>
      along condition ((fun condition => do
        let yes ← along yes []
        let no ← along no []
        conditionalNode span condition yes no) :: outer)
  | .Comma span first second, outer =>
      along first ((fun first => do
        let second ← along second []
        commaNode span first second) :: outer)
  | .Leading span op operand, outer => along operand (leadingNode source op span :: outer)
  | .Step span op operand, outer => along operand (stepNode op span :: outer)
  | .Cast span written operand, outer => do
      let target ← type written
      let operand ← along operand []
      finish outer (← castNode target span operand)
  | .New span name, outer => do
      finish outer (← newNode name span)
  | .NewAnonymous span, outer => do
      finish outer (← newAnonymousNode span)
  | .Call span callee arguments, outer =>
      along callee ((fun callee => do
        let arguments ← alongEach arguments
        callNode source span callee arguments) :: outer)
  | .Index span base index, outer =>
      along base ((fun base => do
        let index ← along index []
        indexNode source span base index) :: outer)
  | .Remove span container key, outer =>
      along container ((fun container => do
        let key ← along key []
        removeNode source span container key) :: outer)
  | .Tuple span elements, outer => do
      let elements ← alongEach elements
      finish outer (← tupleNode span elements)
  | .Assert span condition none, outer => do
      let lowered ← along condition []
      finish outer (← assertNode condition.isFalseLiteral span lowered none)
  | .Assert span condition (some message), outer => do
      let lowered ← along condition []
      let message ← along message []
      finish outer (← assertNode condition.isFalseLiteral span lowered (some message))
  | .Declare span name value, outer => do
      let value ← along value []
      let type := (← typeOf value).getD .error
      let id ← declareVariable name type false
      finish outer (← declareNode id name span (some value))
  | .Compiles span operand, outer => do
      let compiles ← accepts (along operand [])
      finish outer (← leaf (.Boolean compiles) .bool span)
  | .Error span, outer => do
      finish outer (← errorNode span)

def alongEach : List Expr → Lower (List NodeId)
  | [] => return []
  | first :: rest => do
      let first ← along first []
      return first :: (← alongEach rest)

end

def expr (written : Expr) : Lower NodeId :=
  along source written []

end Lower

end EffectLint
