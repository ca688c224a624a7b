import EffectLint.Operator
import EffectLint.BasicType

/-!
The kinds of token, and the spelling of those that are always written alike.
-/

namespace EffectLint

inductive Keyword where
  | Alias
  | Assert
  | Auto
  | Cast
  | Class
  | Delegate
  | Delete
  | Else
  | False
  | For
  | Function
  | If
  | Import
  | In
  | Is
  | New
  | Nothrow
  | Null
  | Pure
  | Ref
  | Return
  | True
  | Tuple
  | While
  | Traits
  deriving DecidableEq

namespace Keyword

def all : List Keyword :=
  [.Alias, .Assert, .Auto, .Cast, .Class, .Delegate, .Delete, .Else, .False, .For, .Function,
    .If, .Import, .In, .Is, .New, .Nothrow, .Null, .Pure, .Ref, .Return, .True, .Tuple, .While,
    .Traits]

def spelling : Keyword → String
  | .Alias => "alias"
  | .Assert => "assert"
  | .Auto => "auto"
  | .Cast => "cast"
  | .Class => "class"
  | .Delegate => "delegate"
  | .Delete => "delete"
  | .Else => "else"
  | .False => "false"
  | .For => "for"
  | .Function => "function"
  | .If => "if"
  | .Import => "import"
  | .In => "in"
  | .Is => "is"
  | .New => "new"
  | .Nothrow => "nothrow"
  | .Null => "null"
  | .Pure => "pure"
  | .Ref => "ref"
  | .Return => "return"
  | .True => "true"
  | .Tuple => "tuple"
  | .While => "while"
  | .Traits => "__traits"

end Keyword

-- Punctuation and operator signs.
inductive Sign where
  | ParenOpen
  | ParenClose
  | BracketOpen
  | BracketClose
  | BraceOpen
  | BraceClose
  | Comma
  | Semicolon
  | Colon
  | Question
  | Dot
  | Equal
  | OrOr
  | AndAnd
  | Bar
  | Caret
  | Ampersand
  | EqualEqual
  | NotEqual
  | Less
  | LessEqual
  | Greater
  | GreaterEqual
  | ShiftLeft
  | ShiftRight
  | ShiftRightUnsigned
  | Plus
  | Minus
  | Tilde
  | Star
  | Slash
  | Percent
  | Power
  | Bang
  | PlusPlus
  | MinusMinus
  deriving DecidableEq

namespace Sign

def all : List Sign :=
  [.ParenOpen, .ParenClose, .BracketOpen, .BracketClose, .BraceOpen, .BraceClose, .Comma,
    .Semicolon, .Colon, .Question, .Dot, .Equal, .OrOr, .AndAnd, .Bar, .Caret, .Ampersand,
    .EqualEqual, .NotEqual, .Less, .LessEqual, .Greater, .GreaterEqual, .ShiftLeft, .ShiftRight,
    .ShiftRightUnsigned, .Plus, .Minus, .Tilde, .Star, .Slash, .Percent, .Power, .Bang,
    .PlusPlus, .MinusMinus]

def spelling : Sign → String
  | .ParenOpen => "("
  | .ParenClose => ")"
  | .BracketOpen => "["
  | .BracketClose => "]"
  | .BraceOpen => "\x7b"
  | .BraceClose => "\x7d"
  | .Comma => ","
  | .Semicolon => ";"
  | .Colon => ":"
  | .Question => "?"
  | .Dot => "."
  | .Equal => "="
  | .OrOr => "||"
  | .AndAnd => "&&"
  | .Bar => "|"
  | .Caret => "^"
  | .Ampersand => "&"
  | .EqualEqual => "=="
  | .NotEqual => "!="
  | .Less => "<"
  | .LessEqual => "<="
  | .Greater => ">"
  | .GreaterEqual => ">="
  | .ShiftLeft => "<<"
  | .ShiftRight => ">>"
  | .ShiftRightUnsigned => ">>>"
  | .Plus => "+"
  | .Minus => "-"
  | .Tilde => "~"
  | .Star => "*"
  | .Slash => "/"
  | .Percent => "%"
  | .Power => "^^"
  | .Bang => "!"
  | .PlusPlus => "++"
  | .MinusMinus => "--"

end Sign

inductive TokenKind where
  | Sign (sign : Sign)
  | Assign (op : AssignOp)
  | Word (word : Keyword)
  | Basic (type : BasicType)
  | Identifier
  | Integer
  | Text
  -- a run of input that no other kind covers
  | Garbage
  deriving DecidableEq

namespace TokenKind

def spelling? : TokenKind → Option String
  | .Sign sign => some sign.spelling
  | .Assign op => some op.spelling
  | .Word word => some word.spelling
  | .Basic type => some type.name
  | .Identifier | .Integer | .Text | .Garbage => none

-- The kinds that are always written alike.
def fixed : List TokenKind :=
  Sign.all.map .Sign ++ AssignOp.all.map .Assign ++ Keyword.all.map .Word ++
    BasicType.all.map .Basic

-- How a message about an unexpected token names it.
def describe : TokenKind → String
  | .Sign sign =>
      match sign with
      | .ParenOpen | .ParenClose | .BracketOpen | .BracketClose | .BraceOpen | .BraceClose
      | .Comma | .Semicolon => "`" ++ sign.spelling ++ "`"
      | _ => "operator or keyword"
  | .Assign _ | .Word _ => "operator or keyword"
  | .Basic _ => "type keyword"
  | .Identifier => "identifier"
  | .Integer => "integer literal"
  | .Text => "string literal"
  | .Garbage => "unrecognized input"

end TokenKind

end EffectLint
