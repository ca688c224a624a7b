import EffectLint.Grammar.Type
import EffectLint.Grammar.Expression

/-!
Statements and blocks.
-/

namespace EffectLint

namespace Grammar

open Parse

-- Whether what follows an identifier at the start of a statement makes it the type of a
-- declaration: suffixes of a type and then a name that ends the statement or gets a value.
def declarationAhead : List Token → Bool
  | ⟨.Sign .Star, _, _⟩ :: rest => declarationAhead rest
  | ⟨.Word .Function, _, _⟩ :: _ => true
  | ⟨.Word .Delegate, _, _⟩ :: _ => true
  | ⟨.Sign .BracketOpen, _, _⟩ :: ⟨.Sign .BracketClose, _, _⟩ :: rest => declarationAhead rest
  | ⟨.Sign .BracketOpen, _, _⟩ :: ⟨.Identifier, _, _⟩ :: ⟨.Sign .BracketClose, _, _⟩ :: rest =>
      declarationAhead rest
  | ⟨.Sign .BracketOpen, _, _⟩ :: ⟨.Basic _, _, _⟩ :: ⟨.Sign .BracketClose, _, _⟩ :: rest =>
      declarationAhead rest
  | ⟨.Identifier, _, _⟩ :: ⟨.Sign .Semicolon, _, _⟩ :: _ => true
  | ⟨.Identifier, _, _⟩ :: ⟨.Sign .Equal, _, _⟩ :: _ => true
  | _ => false

-- `a * b;` declares `b` with the type `a*`.
def looksLikeDeclaration : Parse Bool := do
  match ← inspect with
  | some (.Basic _) => return true
  | some .Identifier => return declarationAhead (← beyond)
  | _ => return false

variable (self : Reading)

-- `= value` where there is one.
def readInitialValue : Parse (Option Expr) := do
  if ← eat (.Sign .Equal) then
    some <$> self .Assignment
  else
    return none

-- `T name [= value];`
def readLocal : Parse VariableTree := do
  let start := (← here).start
  let type ← self .Type
  let name ← match ← expectName with
    | some name => pure name
    | none => do pure ⟨"", ← here⟩
  let value ← readInitialValue self
  expectSemicolon
  return ⟨← since start, type, name, value⟩

def readEvaluate : Parse Statement := do
  let value ← self .Expression
  expectSemicolon
  return .Evaluate value

-- Round by round, the statements up to a closing brace. One that takes no token is passed over.
def readBlockRound (statements : Array Statement) :
    Parse (Round (Array Statement) (Array Statement)) := do
  if ← isAt (.Sign .BraceClose) then
    return .Done statements
  else if ← atEnd then
    return .Done statements
  else
    let before ← taken
    let statement ← self .Statement
    if (← taken) = before then
      skip
    match statement with
    | some statement => return .Again (statements.push statement)
    | none => return .Again statements

def readBlock : Parse Block := do
  let opened ← here
  let _ ← expect (.Sign .BraceOpen) .UnexpectedToken
  let statements ← rounds #[] (readBlockRound self)
  close .BraceClose .UnclosedBrace "block starts here" opened
  return ⟨← since opened.start, statements.toList⟩

-- `(condition)`
def readCondition : Parse Expr := do
  let opened ← here
  let _ ← expect (.Sign .ParenOpen) .UnexpectedToken
  let condition ← self .Expression
  closeParen opened
  return condition

def readReturn (start : Nat) : Parse Statement := do
  skip
  let value ←
    if ← isAt (.Sign .Semicolon) then
      pure none
    else
      some <$> self .Expression
  expectSemicolon
  return .Return (← since start) value

def readIf : Parse (Option Statement) := do
  skip
  let condition ← readCondition self
  match ← self .Statement with
  | none => return none
  | some yes =>
      if ← eat (.Word .Else) then
        match ← self .Statement with
        | none => return none
        | some no => return some (.If condition yes (some no))
      else
        return some (.If condition yes none)

def readWhile : Parse (Option Statement) := do
  skip
  let condition ← readCondition self
  match ← self .Statement with
  | none => return none
  | some body => return some (.While condition body)

-- The first part of a `for` header, with its semicolon.
def readForFirst : Parse (Option Statement) := do
  if ← eat (.Sign .Semicolon) then
    return none
  else if ← looksLikeDeclaration then
    return some (.Local (← readLocal self))
  else
    return some (← readEvaluate self)

-- `for (first; condition; step) body`, where each part of the header may be missing.
def readFor : Parse (Option Statement) := do
  skip
  let opened ← here
  let _ ← expect (.Sign .ParenOpen) .UnexpectedToken
  let first ← readForFirst self
  let condition ←
    if ← isAt (.Sign .Semicolon) then
      pure none
    else
      some <$> self .Expression
  let _ ← expect (.Sign .Semicolon) .ExpectedSemicolon
  let step ←
    if ← isAt (.Sign .ParenClose) then
      pure none
    else
      some <$> self .Expression
  closeParen opened
  match ← self .Statement with
  | none => return none
  | some body => return some (.For first condition step body)

def readStatementHere : Parse (Option Statement) := do
  let span ← here
  match ← inspect with
  | none => return none
  | some (.Sign .BraceOpen) =>
      let block ← readBlock self
      return some (.Block block.span block.statements)
  | some (.Sign .Semicolon) =>
      skip
      return some (.Empty span)
  | some (.Word .Return) => return some (← readReturn self span.start)
  | some (.Word .If) => readIf self
  | some (.Word .While) => readWhile self
  | some (.Word .For) => readFor self
  | some _ =>
      if ← looksLikeDeclaration then
        return some (.Local (← readLocal self))
      else
        return some (← readEvaluate self)

def readStatement : Parse (Option Statement) := do
  enter
  let statement ← readStatementHere self
  leave
  return statement

end Grammar

end EffectLint
