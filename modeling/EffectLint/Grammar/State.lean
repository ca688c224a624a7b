import EffectLint.Token.Lexer
import EffectLint.Tree.Basic
import EffectLint.Report.Diagnostic

/-!
Reading tokens one after the other. Two budgets bound the work: every look at the next token
takes one unit of fuel, and constructs may nest only so deep. Running out of either ends the
reading at once.
-/

namespace EffectLint

inductive Exhausted where
  | Fuel
  | Depth
  deriving DecidableEq

def Exhausted.message : Exhausted → String
  | .Fuel => "execution limit exceeded"
  | .Depth => "recursion limit exceeded"

-- What stays fixed while a text is read.
structure Limits where
  -- the offset at which the text ends
  textEnd : Nat
  depth : Nat

structure ParseState where
  rest : List Token
  -- how many tokens have been taken, and where the last of them ended
  taken : Nat
  lastEnd : Nat
  fuel : Nat
  depth : Nat
  -- where the last complaint about a token started
  lastComplaint : Option Nat
  diagnostics : Array Diagnostic

abbrev Parse := ReaderT Limits (StateT ParseState (Except Exhausted))

namespace Parse

-- The kind of the next token. Every decision that depends on it goes through here.
def inspect : Parse (Option TokenKind) := fun _ state =>
  match state.fuel with
  | 0 => .error .Fuel
  | fuel + 1 => .ok (state.rest.head?.map Token.kind, { state with fuel })

-- The tokens that follow the next one, for a look further ahead. This look is free.
def beyond : Parse (List Token) := fun _ state =>
  .ok (state.rest.tail, state)

def atEnd : Parse Bool := fun _ state =>
  .ok (state.rest.isEmpty, state)

def taken : Parse Nat := fun _ state =>
  .ok (state.taken, state)

-- The place of the next token. Behind the last one it is the end of the text.
def here : Parse Span := fun limits state =>
  match state.rest with
  | token :: _ => .ok (token.span, state)
  | [] => .ok (Span.emptyAt limits.textEnd, state)

-- From `start` up to the end of the last token taken.
def since (start : Nat) : Parse Span := fun _ state =>
  .ok (⟨start, max state.lastEnd start⟩, state)

-- Take the next token and give its text.
def take : Parse String := fun _ state =>
  match state.rest with
  | token :: rest =>
      .ok (token.text,
        { state with rest, taken := state.taken + 1, lastEnd := token.span.stop })
  | [] => .ok ("", state)

def skip : Parse Unit := do
  let _ ← take

def isAt (kind : TokenKind) : Parse Bool := do
  return (← inspect) == some kind

-- Take the next token if it has the given kind.
def eat (kind : TokenKind) : Parse Bool := do
  if ← isAt kind then
    skip
    return true
  else
    return false

def report (diagnostic : Diagnostic) : Parse Unit := fun _ state =>
  .ok ((), { state with diagnostics := state.diagnostics.push diagnostic })

-- Report at a place unless the last complaint was about the same place.
def complain (diagnostic : Diagnostic) : Parse Unit := fun _ state =>
  let start := diagnostic.span.start
  if state.lastComplaint = some start then .ok ((), state)
  else
    .ok ((), { state with
      lastComplaint := some start, diagnostics := state.diagnostics.push diagnostic })

-- Take a token of the given kind, or complain where it is missing.
def expect (kind : TokenKind) (missing : DiagnosticKind) : Parse Bool := do
  if ← eat kind then
    return true
  else
    complain (.plain missing (← here))
    return false

def expectName : Parse (Option Name) := do
  if ← isAt .Identifier then
    let span ← here
    return some ⟨← take, span⟩
  else
    complain (.plain .ExpectedIdentifier (← here))
    return none

-- Take a closing delimiter, or report that it is missing and where its partner stands.
def close (sign : Sign) (missing : DiagnosticKind) (opening : String) (opened : Span) :
    Parse Unit := do
  if ← eat (.Sign sign) then
    return ()
  else
    report ((Diagnostic.plain missing (← here)).relatedTo opening opened)

def closeParen (opened : Span) : Parse Unit :=
  close .ParenClose .UnclosedParen "opened here" opened

def enter : Parse Unit := fun limits state =>
  if limits.depth ≤ state.depth then .error .Depth
  else .ok ((), { state with depth := state.depth + 1 })

def leave : Parse Unit := fun _ state =>
  .ok ((), { state with depth := state.depth - 1 })

-- Come back to the present depth once `body` is done, however many links it entered.
def restoringDepth {α : Type} (body : Parse α) : Parse α := fun limits state =>
  match body limits state with
  | .ok (result, after) => .ok (result, { after with depth := state.depth })
  | .error reason => .error reason

-- What one round of a loop comes to.
inductive Round (σ α : Type) where
  | Again (state : σ)
  | Done (result : α)

def roundsAtMost {σ α : Type} (round : σ → Parse (Round σ α)) : Nat → σ → Parse α
  | 0, _ => throw .Fuel
  | bound + 1, state => do
      match ← round state with
      | .Again next => roundsAtMost round bound next
      | .Done result => return result

-- Repeat until a round is the last. Every round looks at a token, so fuel bounds their number.
def rounds {σ α : Type} (first : σ) (round : σ → Parse (Round σ α)) : Parse α :=
  fun limits state => roundsAtMost round (state.fuel + 1) first limits state

-- Skip to just behind the next `;`, or up to the next `}`.
def recoverStatement : Parse Unit :=
  rounds () fun _ => do
    match ← inspect with
    | none => return .Done ()
    | some (.Sign .Semicolon) =>
        skip
        return .Done ()
    | some (.Sign .BraceClose) => return .Done ()
    | some _ =>
        skip
        return .Again ()

-- Skip to just behind the next `;` or `}`.
def recoverItem : Parse Unit :=
  rounds () fun _ => do
    match ← inspect with
    | none => return .Done ()
    | some kind =>
        skip
        if kind == .Sign .Semicolon || kind == .Sign .BraceClose then
          return .Done ()
        else
          return .Again ()

def expectSemicolon : Parse Unit := do
  if ← eat (.Sign .Semicolon) then
    return ()
  else
    complain (.plain .ExpectedSemicolon (← here))
    recoverStatement

end Parse

end EffectLint
