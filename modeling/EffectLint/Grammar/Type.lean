import EffectLint.Grammar.Nonterminal

/-!
Types: a base followed by any number of suffixes `*`, `[]`, `[K]`, `function(..)` and
`delegate(..)`.
-/

namespace EffectLint

namespace Grammar

open Parse

-- Any number of `pure` and `nothrow`.
def readPromises : Parse Promises :=
  rounds Promises.none fun promises => do
    if ← eat (.Word .Pure) then
      return .Again { promises with isPure := true }
    else if ← eat (.Word .Nothrow) then
      return .Again { promises with isNothrow := true }
    else
      return .Done promises

def readBaseType : Parse TypeTree := do
  let span ← here
  match ← inspect with
  | some (.Basic type) =>
      skip
      return .Basic span type
  | some .Identifier =>
      match ← expectName with
      | some name => return .Named span name
      | none => return .Error span
  | _ =>
      complain (.plain .ExpectedType span)
      return .Error span

variable (self : Reading)

-- `[ref] T [name]`
def readParameter : Parse (Parameter TypeTree) := do
  let isRef ← eat (.Word .Ref)
  let type ← self .Type
  let name ← if ← isAt .Identifier then expectName else pure none
  return ⟨isRef, type, name⟩

-- `( [parameter {, parameter}] )`
def readParameters : Parse (List (Parameter TypeTree)) := do
  let opened ← here
  if ← expect (.Sign .ParenOpen) .UnexpectedToken then
    let parameters ← rounds (#[] : Array (Parameter TypeTree)) fun parameters => do
      if ← isAt (.Sign .ParenClose) then
        return .Done parameters
      else if ← atEnd then
        return .Done parameters
      else
        let parameters := parameters.push (← readParameter self)
        if ← eat (.Sign .Comma) then
          return .Again parameters
        else
          return .Done parameters
    close .ParenClose .UnclosedParen "parameter list starts here" opened
    return parameters.toList
  else
    return []

-- What follows the `[` of an array type or of a map type.
def readBracketSuffix (start : Nat) (element : TypeTree) : Parse TypeTree := do
  let opened ← here
  skip
  if ← eat (.Sign .BracketClose) then
    return .Array (← since start) element
  else
    let key ← self .Type
    close .BracketClose .UnclosedBracket "key type starts here" opened
    return .AssocArray (← since start) element key

def readCallableSuffix (start : Nat) (isDelegate : Bool) (result : TypeTree) :
    Parse TypeTree := do
  skip
  let parameters ← readParameters self
  let promises ← readPromises
  return .Callable (← since start) isDelegate promises result parameters

def readTypeSuffix (start : Nat) (type : TypeTree) : Parse (Round TypeTree TypeTree) := do
  match ← inspect with
  | some (.Sign .Star) =>
      skip
      return .Again (.Pointer (← since start) type)
  | some (.Sign .BracketOpen) => return .Again (← readBracketSuffix self start type)
  | some (.Word .Function) => return .Again (← readCallableSuffix self start false type)
  | some (.Word .Delegate) => return .Again (← readCallableSuffix self start true type)
  | _ => return .Done type

def readType : Parse TypeTree := do
  let start := (← here).start
  let base ← readBaseType
  if base.isError then
    return base
  else
    rounds base (readTypeSuffix self start)

end Grammar

end EffectLint
