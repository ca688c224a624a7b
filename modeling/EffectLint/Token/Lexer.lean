import EffectLint.Text.Span
import EffectLint.Token.Rules

/-!
Cutting a text into tokens. Each piece is the longest front of what is left that some rule
matches. Where no rule matches any front, the piece is everything read before the last rule
had to give up, and at least one character. Nothing is lost: the pieces joined together are
the text.
-/

namespace EffectLint

structure Token where
  kind : TokenKind
  span : Span
  text : String
  deriving DecidableEq

namespace Lexer

-- How far the rules could read, and the longest front that one of them matched.
structure Munch where
  reach : Nat
  longest : Option (Nat × Option TokenKind)

def munchFrom (rules : List Rule) (munch : Munch) : List Char → Munch
  | [] => munch
  | char :: rest =>
      match Rule.advance char rules with
      | [] => munch
      | live =>
          let reach := munch.reach + 1
          let longest := match Rule.complete? live with
            | some rule => some (reach, rule.kind)
            | none => munch.longest
          munchFrom live ⟨reach, longest⟩ rest

def munch (text : List Char) : Munch :=
  munchFrom Rule.all ⟨0, none⟩ text

inductive PieceKind where
  | Token (kind : TokenKind)
  | Trivia
  | Unknown
  deriving DecidableEq

structure Piece where
  kind : PieceKind
  text : List Char
  deriving DecidableEq

def PieceKind.ofRule : Option TokenKind → PieceKind
  | some kind => .Token kind
  | none => .Trivia

-- The first piece of a text, given by its kind and its length.
def firstPiece (text : List Char) : PieceKind × Nat :=
  let munch := munch text
  match munch.longest with
  | some (length, kind) => (.ofRule kind, length)
  | none => (.Unknown, max 1 munch.reach)

-- Every piece takes at least one character, so the number of characters bounds their number.
def piecesFrom : Nat → List Char → List Piece → List Piece
  | 0, _, found => found.reverse
  | _ + 1, [], found => found.reverse
  | bound + 1, text, found =>
      let (kind, length) := firstPiece text
      piecesFrom bound (text.drop length) (⟨kind, text.take length⟩ :: found)

def pieces (text : List Char) : List Piece :=
  piecesFrom text.length text []

-- Unknown pieces with nothing but trivia between them make one garbage token. The trivia
-- after the last of them is kept aside until it is known whether another one follows. Both
-- texts are reversed.
structure Garbage where
  start : Nat
  text : List Char
  trivia : List Char

structure Gathered where
  offset : Nat
  garbage : Option Garbage
  tokens : Array Token

namespace Gathered

def start : Gathered :=
  ⟨0, none, #[]⟩

def flush (gathered : Gathered) : Array Token :=
  match gathered.garbage with
  | none => gathered.tokens
  | some garbage =>
      gathered.tokens.push
        ⟨.Garbage, ⟨garbage.start, garbage.start + Text.width garbage.text⟩,
          String.ofList garbage.text.reverse⟩

def add (gathered : Gathered) (piece : Piece) : Gathered :=
  let offset := gathered.offset + Text.width piece.text
  match piece.kind with
  | .Token kind =>
      ⟨offset, none,
        gathered.flush.push ⟨kind, ⟨gathered.offset, offset⟩, String.ofList piece.text⟩⟩
  | .Trivia =>
      let garbage := gathered.garbage.map fun garbage =>
        { garbage with trivia := piece.text.reverse ++ garbage.trivia }
      ⟨offset, garbage, gathered.tokens⟩
  | .Unknown =>
      let garbage := match gathered.garbage with
        | some garbage =>
            ⟨garbage.start, piece.text.reverse ++ (garbage.trivia ++ garbage.text), []⟩
        | none => ⟨gathered.offset, piece.text.reverse, []⟩
      ⟨offset, some garbage, gathered.tokens⟩

end Gathered

end Lexer

def lex (text : List Char) : List Token :=
  ((Lexer.pieces text).foldl Lexer.Gathered.add .start).flush.toList

end EffectLint
