import EffectLint.Grammar.Production

/-!
The items of a module, and reading a whole text.
-/

namespace EffectLint

namespace Grammar

open Parse

def readImport : Parse (Option Item) := do
  skip
  match ← expectName with
  | none => return none
  | some name =>
      expectSemicolon
      return some (.Import name)

def readAlias : Parse (Option Item) := do
  skip
  match ← expectName with
  | none => return none
  | some name =>
      let _ ← expect (.Sign .Equal) .UnexpectedToken
      let target ← read .Type
      expectSemicolon
      return some (.Alias name target)

def readClass : Parse (Option Item) := do
  skip
  match ← expectName with
  | none => return none
  | some name =>
      expectSemicolon
      return some (.Class name)

-- A function, from its parameters on.
def readFunction (start : Nat) (leading : Promises) (result : TypeTree) (name : Name) :
    Parse Item := do
  let parameters ← readParameters read
  let promises := leading.both (← readPromises)
  let body ←
    if ← isAt (.Sign .BraceOpen) then
      some <$> readBlock read
    else do
      expectSemicolon
      pure none
  return .Function ⟨← since start, name, promises, result, parameters, body⟩

-- A function or a global variable. Both start with promises and a type.
def readDeclaration : Parse (Option Item) := do
  let start := (← here).start
  let leading ← readPromises
  let type ← read .Type
  match ← expectName with
  | none =>
      recoverItem
      return none
  | some name =>
      if ← isAt (.Sign .ParenOpen) then
        return some (← readFunction start leading type name)
      else
        let value ← readInitialValue read
        expectSemicolon
        return some (.Global ⟨← since start, type, name, value⟩)

def readItem : Parse (Option Item) := do
  match ← inspect with
  | none => return none
  | some (.Word .Import) => readImport
  | some (.Word .Alias) => readAlias
  | some (.Word .Class) => readClass
  | some (.Sign .Semicolon) =>
      skip
      return none
  | some (.Basic _) | some (.Word .Pure) | some (.Word .Nothrow) | some .Identifier =>
      readDeclaration
  | some kind =>
      complain (.about .UnexpectedToken (← here) (kind.describe ++ " at top level"))
      recoverItem
      return none

-- Round by round, the items up to the end. One that takes no token is passed over.
def readItemRound (items : Array Item) : Parse (Round (Array Item) (Array Item)) := do
  if ← atEnd then
    return .Done items
  else
    let before ← taken
    let item ← readItem
    if (← taken) = before then
      skip
    match item with
    | some item => return .Again (items.push item)
    | none => return .Again items

def readItems : Parse (List Item) := do
  let items ← rounds #[] readItemRound
  return items.toList

end Grammar

-- What a text was read as, with what is wrong with it.
structure Parsed where
  items : List Item
  diagnostics : Array Diagnostic

def ParseState.start (tokens : List Token) (fuel : Nat) : ParseState :=
  ⟨tokens, 0, 0, fuel, 0, none, #[]⟩

def parseTokens (tokens : List Token) (textEnd fuel depth : Nat) : Except Exhausted Parsed :=
  match Grammar.readItems ⟨textEnd, depth⟩ (.start tokens fuel) with
  | .ok (items, state) => .ok ⟨items, state.diagnostics⟩
  | .error reason => .error reason

def parse (text : List Char) (fuel depth : Nat) : Except Exhausted Parsed :=
  parseTokens (lex text) (Text.width text) fuel depth

end EffectLint
