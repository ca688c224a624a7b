import EffectLint.Grammar.Nonterminal

/-!
Expressions, from the loosest level to the tightest: the comma operator, assignments, `?:`,
the binary operators by climbing their levels, prefix operators, powers, what is attached
behind an operand, and the primary expressions.
-/

namespace EffectLint

namespace Grammar

open Parse

-- The operator that the next token starts, if it can stand between operands.
def readConnective : Parse (Option Connective) := do
  match ← inspect with
  | some (.Sign .OrOr) => return some .OrOr
  | some (.Sign .AndAnd) => return some .AndAnd
  | some (.Word .In) => return some .In
  | some (.Sign .Bang) =>
      if (← beyond).head?.map Token.kind == some (.Word .Is) then
        return some (.Value .NotIdentical)
      else
        return none
  | some (.Sign .Bar) => return some (.Value .BitOr)
  | some (.Sign .Caret) => return some (.Value .BitXor)
  | some (.Sign .Ampersand) => return some (.Value .BitAnd)
  | some (.Sign .EqualEqual) => return some (.Value .Eq)
  | some (.Sign .NotEqual) => return some (.Value .Ne)
  | some (.Sign .Less) => return some (.Value .Lt)
  | some (.Sign .LessEqual) => return some (.Value .Le)
  | some (.Sign .Greater) => return some (.Value .Gt)
  | some (.Sign .GreaterEqual) => return some (.Value .Ge)
  | some (.Word .Is) => return some (.Value .Identical)
  | some (.Sign .ShiftLeft) => return some (.Value .Shl)
  | some (.Sign .ShiftRight) => return some (.Value .Shr)
  | some (.Sign .ShiftRightUnsigned) => return some (.Value .Ushr)
  | some (.Sign .Plus) => return some (.Value .Add)
  | some (.Sign .Minus) => return some (.Value .Sub)
  | some (.Sign .Tilde) => return some (.Value .Concat)
  | some (.Sign .Star) => return some (.Value .Mul)
  | some (.Sign .Slash) => return some (.Value .Div)
  | some (.Sign .Percent) => return some (.Value .Mod)
  | _ => return none

def leadingOp? : TokenKind → Option LeadingOp
  | .Sign .Minus => some (.Value .Negate)
  | .Sign .Plus => some (.Value .Plus)
  | .Sign .Bang => some (.Value .Not)
  | .Sign .Tilde => some (.Value .Complement)
  | .Sign .Star => some .Deref
  | .Sign .Ampersand => some .AddressOf
  | .Word .Delete => some .Delete
  | .Sign .PlusPlus => some (.Step .Increment)
  | .Sign .MinusMinus => some (.Step .Decrement)
  | _ => none

-- The value of digits with `_` between them.
def integerValue (text : String) : Nat :=
  (text.toList.filter (· != '_')).foldl (fun value digit => 10 * value + (digit.toNat - 48)) 0

-- An integer literal fits into a signed word of 64 bits.
def integerBound : Nat :=
  Nat.pow 2 63

-- The characters between the quotes.
def quotedText (text : String) : String :=
  String.ofList text.toList.tail.dropLast

variable (self : Reading)

-- `( [expression {, expression}] )`, whatever token stands for the opening one.
def readArguments : Parse (List Expr) := do
  let opened ← here
  skip
  let arguments ← rounds (#[] : Array Expr) fun arguments => do
    if ← isAt (.Sign .ParenClose) then
      return .Done arguments
    else if ← atEnd then
      return .Done arguments
    else
      let arguments := arguments.push (← self .Assignment)
      if ← eat (.Sign .Comma) then
        return .Again arguments
      else
        return .Done arguments
  closeParen opened
  return arguments.toList

-- `(expression)`, where the opening token has been read.
def readParen (start : Nat) (opened : Span) : Parse Expr := do
  let inner ← self .Expression
  closeParen opened
  return .Paren (← since start) inner

-- `assert(condition [, message])`, from behind the word on.
def readAssert (start : Nat) : Parse Expr := do
  let opened ← here
  let _ ← expect (.Sign .ParenOpen) .UnexpectedToken
  let condition ← self .Assignment
  let message ←
    if ← eat (.Sign .Comma) then
      some <$> self .Assignment
    else
      pure none
  closeParen opened
  return .Assert (← since start) condition message

-- `auto name = value`, from behind the word on.
def readDeclare (start : Nat) : Parse Expr := do
  match ← expectName with
  | none => return .Error (← since start)
  | some name =>
      let _ ← expect (.Sign .Equal) .UnexpectedToken
      let value ← self .Assignment
      return .Declare (← since start) name value

-- `__traits(compiles, operand)`, from behind the word on.
def readTraits (start : Nat) : Parse Expr := do
  let opened ← here
  let _ ← expect (.Sign .ParenOpen) .UnexpectedToken
  let trait ← expectName
  let known ← match trait with
    | some name =>
        if name.text = "compiles" then
          pure true
        else
          complain (.about .UnexpectedToken name.span ("unsupported trait `" ++ name.text ++ "`"))
          pure false
    | none => pure false
  let _ ← expect (.Sign .Comma) .UnexpectedToken
  let operand ← self .Assignment
  closeParen opened
  let span ← since start
  return if known then .Compiles span operand else .Error span

def readPrimary : Parse Expr := do
  let span ← here
  let start := span.start
  match ← inspect with
  | none =>
      complain (.plain .ExpectedExpression span)
      return .Error span
  | some .Identifier =>
      let text ← take
      return .Identifier (← since start) text
  | some .Integer =>
      let value := integerValue (← take)
      if value < integerBound then
        return .Integer (← since start) value
      else
        complain (.about .UnexpectedToken span "integer literal is out of range")
        return .Error (← since start)
  | some .Text =>
      let text ← take
      return .Text (← since start) (quotedText text)
  | some (.Word .True) =>
      skip
      return .Boolean (← since start) true
  | some (.Word .False) =>
      skip
      return .Boolean (← since start) false
  | some (.Word .Null) =>
      skip
      return .Null (← since start)
  | some (.Sign .ParenOpen) =>
      skip
      readParen self start span
  | some (.Word .Tuple) =>
      skip
      let elements ← readArguments self
      return .Tuple (← since start) elements
  | some (.Word .Assert) =>
      skip
      readAssert self start
  | some (.Word .Auto) =>
      skip
      readDeclare self start
  | some (.Word .Traits) =>
      skip
      readTraits self start
  | some kind =>
      complain (.about .ExpectedExpression span ("found " ++ kind.describe))
      return .Error span

-- What follows a dot. The only member is `.remove(key)`.
def readMember (start : Nat) (container : Expr) : Parse Expr := do
  match ← expectName with
  | none => return .Error (← since start)
  | some name =>
      let isCall ←
        if name.text = "remove" then
          isAt (.Sign .ParenOpen)
        else
          pure false
      if isCall then
        let opened ← here
        let arguments ← readArguments self
        match arguments with
        | [key] => return .Remove (← since start) container key
        | _ =>
            let span ← since opened.start
            complain (.about .WrongArgumentCount span
              ("`remove` takes 1 argument but " ++ toString arguments.length ++ " were given"))
            return .Error (← since start)
      else
        complain (.about .UnexpectedToken name.span
          ("member `" ++ name.text ++ "` is not supported"))
        return .Error (← since start)

def startsAttachment : Option TokenKind → Bool
  | some (.Sign .ParenOpen) | some (.Sign .BracketOpen) | some (.Sign .PlusPlus)
  | some (.Sign .MinusMinus) | some (.Sign .Dot) => true
  | _ => false

-- One call, index, step or member behind an operand. Each deepens the operand, so it counts as
-- a level of nesting.
def readAttachment (start : Nat) (operand : Expr) : Parse (Round Expr Expr) := do
  if startsAttachment (← inspect) then
    enter
    match ← inspect with
    | some (.Sign .ParenOpen) =>
        let arguments ← readArguments self
        return .Again (.Call (← since start) operand arguments)
    | some (.Sign .BracketOpen) =>
        let opened ← here
        skip
        let index ← self .Assignment
        close .BracketClose .UnclosedBracket "index starts here" opened
        return .Again (.Index (← since start) operand index)
    | some (.Sign .PlusPlus) =>
        skip
        return .Again (.Step (← since start) .Increment operand)
    | some (.Sign .MinusMinus) =>
        skip
        return .Again (.Step (← since start) .Decrement operand)
    | some (.Sign .Dot) =>
        skip
        return .Again (← readMember self start operand)
    | _ => return .Done operand
  else
    return .Done operand

def readAttached : Parse Expr := restoringDepth do
  let start := (← here).start
  let operand ← readPrimary self
  rounds operand (readAttachment self start)

-- `base ^^ exponent` binds tighter than a prefix operator in front of the base, and takes one
-- in front of the exponent.
def readPower : Parse Expr := do
  let start := (← here).start
  let base ← readAttached self
  if ← eat (.Sign .Power) then
    let exponent ← self .Unary
    return .Binary (← since start) (.Value .Pow) base exponent
  else
    return base

-- `cast(T) operand`
def readCast (start : Nat) : Parse Expr := do
  skip
  let opened ← here
  let _ ← expect (.Sign .ParenOpen) .UnexpectedToken
  let type ← self .Type
  closeParen opened
  let operand ← self .Unary
  return .Cast (← since start) type operand

-- `new C`, or `new class` with an empty body.
def readNew (start : Nat) : Parse Expr := do
  skip
  if ← eat (.Word .Class) then
    let opened ← here
    let _ ← expect (.Sign .BraceOpen) .UnexpectedToken
    close .BraceClose .UnclosedBrace "class body starts here" opened
    return .NewAnonymous (← since start)
  else
    match ← expectName with
    | some name => return .New (← since start) name
    | none => return .Error (← since start)

def readUnary : Parse Expr := do
  enter
  let start := (← here).start
  let unary ← match ← inspect with
    | some (.Word .Cast) => readCast self start
    | some (.Word .New) => readNew start
    | next =>
        match next.bind leadingOp? with
        | some op => do
            skip
            let operand ← self .Unary
            pure (.Leading (← since start) op operand)
        | none => readPower self
  leave
  return unary

-- One operator and its right operand. Each deepens the left one.
def readLink (level start : Nat) (left : Expr) : Parse (Round Expr Expr) := do
  match ← readConnective with
  | none => return .Done left
  | some op =>
      if op.level < level then
        return .Done left
      else
        enter
        skip
        -- `!is` is spelled by two tokens
        if op = .Value .NotIdentical then
          skip
        let right ← self (.Binary (op.level + 1))
        return .Again (.Binary (← since start) op left right)

def readBinary (level : Nat) : Parse Expr := restoringDepth do
  let start := (← here).start
  let first ← self .Unary
  rounds first (readLink self level start)

-- `condition ? yes : no`
def readConditional : Parse Expr := do
  let start := (← here).start
  let condition ← self (.Binary Level.orOr)
  if ← eat (.Sign .Question) then
    enter
    let yes ← self .Expression
    let _ ← expect (.Sign .Colon) .UnexpectedToken
    let no ← self .Conditional
    leave
    return .Conditional (← since start) condition yes no
  else
    return condition

-- The operator that an assignment sign applies, where the token is one.
def assignment? : Option TokenKind → Option (Option AssignOp)
  | some (.Sign .Equal) => some none
  | some (.Assign op) => some (some op)
  | _ => none

-- `target = value`, grouping to the right.
def readAssignment : Parse Expr := do
  let start := (← here).start
  let target ← self .Conditional
  match assignment? (← inspect) with
  | none => return target
  | some op =>
      skip
      enter
      let value ← self .Assignment
      leave
      return .Assign (← since start) op target value

-- Each comma deepens what stands before it.
def readCommaLink (start : Nat) (first : Expr) : Parse (Round Expr Expr) := do
  if ← eat (.Sign .Comma) then
    enter
    let second ← self .Assignment
    return .Again (.Comma (← since start) first second)
  else
    return .Done first

def readExpression : Parse Expr := restoringDepth do
  let start := (← here).start
  let first ← self .Assignment
  rounds first (readCommaLink self start)

end Grammar

end EffectLint
