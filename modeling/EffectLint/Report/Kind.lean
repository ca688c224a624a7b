/-!
What can be wrong with a module, and the words for it.
-/

namespace EffectLint

inductive Severity where
  | Error
  | Warning
  deriving DecidableEq

def Severity.name : Severity → String
  | .Error => "error"
  | .Warning => "warning"

-- Ordered by priority: an unclosed delimiter derails everything after it, a missing token is
-- to be mended before anything about names, and a remark on a discarded value supposes that
-- all else is right.
inductive DiagnosticKind where
  | UnclosedParen
  | UnclosedBrace
  | UnclosedBracket
  | ExpectedExpression
  | ExpectedType
  | ExpectedIdentifier
  | ExpectedSemicolon
  | UnexpectedToken
  | DuplicateDefinition
  | UndefinedIdentifier
  | UnknownType
  | NotAValue
  | NotCallable
  | WrongArgumentCount
  | CannotDereference
  | NotIndexable
  | NotAClass
  | NotAssociative
  | NoEffect
  | ModuleHasNoEffect
  | DiscardedPureCall
  deriving DecidableEq

namespace DiagnosticKind

def all : List DiagnosticKind :=
  [.UnclosedParen, .UnclosedBrace, .UnclosedBracket, .ExpectedExpression, .ExpectedType,
    .ExpectedIdentifier, .ExpectedSemicolon, .UnexpectedToken, .DuplicateDefinition,
    .UndefinedIdentifier, .UnknownType, .NotAValue, .NotCallable, .WrongArgumentCount,
    .CannotDereference, .NotIndexable, .NotAClass, .NotAssociative, .NoEffect,
    .ModuleHasNoEffect, .DiscardedPureCall]

def name : DiagnosticKind → String
  | .UnclosedParen => "unclosed-paren"
  | .UnclosedBrace => "unclosed-brace"
  | .UnclosedBracket => "unclosed-bracket"
  | .ExpectedExpression => "expected-expression"
  | .ExpectedType => "expected-type"
  | .ExpectedIdentifier => "expected-identifier"
  | .ExpectedSemicolon => "expected-semicolon"
  | .UnexpectedToken => "unexpected-token"
  | .DuplicateDefinition => "duplicate-definition"
  | .UndefinedIdentifier => "undefined-identifier"
  | .UnknownType => "unknown-type"
  | .NotAValue => "not-a-value"
  | .NotCallable => "not-callable"
  | .WrongArgumentCount => "wrong-argument-count"
  | .CannotDereference => "cannot-dereference"
  | .NotIndexable => "not-indexable"
  | .NotAClass => "not-a-class"
  | .NotAssociative => "not-associative"
  | .NoEffect => "no-effect"
  | .ModuleHasNoEffect => "module-has-no-effect"
  | .DiscardedPureCall => "discarded-pure-call"

-- The number of kinds with a higher priority.
def rank (kind : DiagnosticKind) : Nat :=
  all.idxOf kind

def severity : DiagnosticKind → Severity
  | .DiscardedPureCall => .Warning
  | _ => .Error

-- The message where nothing more is known.
def fallback : DiagnosticKind → String
  | .UnclosedParen => "missing closing `)`"
  | .UnclosedBrace => "missing closing `\x7d`"
  | .UnclosedBracket => "missing closing `]`"
  | .ExpectedExpression => "expected an expression"
  | .ExpectedType => "expected a type"
  | .ExpectedIdentifier => "expected an identifier"
  | .ExpectedSemicolon => "expected `;`"
  | .UnexpectedToken => "unexpected token"
  | .DuplicateDefinition => "duplicate definition"
  | .UndefinedIdentifier => "undefined identifier"
  | .UnknownType => "unknown type"
  | .NotAValue => "type used as a value"
  | .NotCallable => "expression is not callable"
  | .WrongArgumentCount => "wrong number of arguments"
  | .CannotDereference => "cannot dereference a non-pointer"
  | .NotIndexable => "expression cannot be indexed"
  | .NotAClass => "`new` requires a class type"
  | .NotAssociative => "expected an associative array"
  | .NoEffect => "expression has no effect"
  | .ModuleHasNoEffect => "module reference has no effect"
  | .DiscardedPureCall => "discarded return value of a call without side effects"

-- What stands before and after the detail in a message that gives one.
def frame (kind : DiagnosticKind) : String × String :=
  match kind with
  | .DuplicateDefinition => ("`", "` is already defined")
  | .UndefinedIdentifier => ("undefined identifier `", "`")
  | .UnknownType => ("unknown type `", "`")
  | .NotAValue => ("`", "` is a type, not a value")
  | .NotCallable => ("`", "` is not callable")
  | .CannotDereference => ("cannot dereference `", "`")
  | .NotIndexable => ("`", "` cannot be indexed")
  | .NotAClass => ("`", "` is not a class")
  | .NotAssociative => ("`", "` is not an associative array")
  | .ModuleHasNoEffect => ("module `", "` has no effect")
  | .NoEffect | .DiscardedPureCall | .WrongArgumentCount => ("", "")
  | .UnclosedParen | .UnclosedBrace | .UnclosedBracket => (kind.fallback ++ "; ", "")
  | .ExpectedExpression | .ExpectedType | .ExpectedIdentifier | .ExpectedSemicolon
  | .UnexpectedToken => (kind.fallback ++ ": ", "")

def detailed (kind : DiagnosticKind) (detail : String) : String :=
  kind.frame.1 ++ detail ++ kind.frame.2

def message (kind : DiagnosticKind) : Option String → String
  | none => kind.fallback
  | some detail => kind.detailed detail

-- The detailed message with a pair of braces where the detail goes.
def template (kind : DiagnosticKind) : String :=
  kind.detailed "\x7b\x7d"

end DiagnosticKind

end EffectLint
