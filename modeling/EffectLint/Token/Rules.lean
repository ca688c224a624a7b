import EffectLint.Token.Kind
import EffectLint.Token.Pattern

/-!
What each kind of token looks like, and what stands between tokens. Where two rules match the
same text the earlier one decides, so a keyword is never read as an identifier.
-/

namespace EffectLint

namespace Pattern

def whitespace : Pattern :=
  atLeastOnce (.One fun char => char == ' ' || char == '\t' || char == '\r' || char == '\n' ||
    char == '\x0c')

-- From `//` up to the end of the line, which is not part of it.
def lineComment : Pattern :=
  .Next (literal ['/', '/']) (.Many (.One (· != '\n')))

-- From `/*` up to the first `*/`.
def blockComment : Pattern :=
  let inside := .Either (.One (· != '*'))
    (.Next (atLeastOnce (char '*')) (.One fun char => char != '*' && char != '/'))
  .Next (literal ['/', '*']) (.Next (.Many inside) (.Next (atLeastOnce (char '*')) (char '/')))

def identifier : Pattern :=
  .Next (.One fun char => char.isAlpha || char == '_')
    (.Many (.One fun char => char.isAlpha || char.isDigit || char == '_'))

def integer : Pattern :=
  .Next (.One Char.isDigit) (.Many (.One fun char => char.isDigit || char == '_'))

-- A quoted text. A backslash takes the next character with it, unless the line ends there.
def text : Pattern :=
  let plain := .One fun char => char != '"' && char != '\\'
  let escaped := .Next (char '\\') (.One (· != '\n'))
  .Next (char '"') (.Next (.Many (.Either plain escaped)) (char '"'))

end Pattern

-- A token of the given kind, or trivia where there is none.
structure Rule where
  pattern : Pattern
  kind : Option TokenKind

namespace TokenKind

def pattern : TokenKind → Pattern
  | .Sign sign => .literal sign.spelling.toList
  | .Assign op => .literal op.spelling.toList
  | .Word word => .literal word.spelling.toList
  | .Basic type => .literal type.name.toList
  | .Identifier => .identifier
  | .Integer => .integer
  | .Text => .text
  | .Garbage => .Never

def rule (kind : TokenKind) : Rule :=
  ⟨kind.pattern, some kind⟩

end TokenKind

namespace Rule

def trivia : List Rule :=
  [⟨.whitespace, none⟩, ⟨.lineComment, none⟩, ⟨.blockComment, none⟩]

def all : List Rule :=
  trivia ++ TokenKind.fixed.map TokenKind.rule ++
    [TokenKind.Identifier.rule, TokenKind.Integer.rule, TokenKind.Text.rule]

-- What is left of the rules that can still match once `char` has been read.
def advance (char : Char) (rules : List Rule) : List Rule :=
  rules.filterMap fun rule =>
    let rest := rule.pattern.derivative char
    if rest.isNever then none else some { rule with pattern := rest }

-- The first rule that matches just what has been read.
def complete? (rules : List Rule) : Option Rule :=
  rules.find? (·.pattern.acceptsBlank)

end Rule

end EffectLint
