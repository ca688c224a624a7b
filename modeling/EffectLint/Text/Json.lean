/-!
Values in JSON, written over several lines.
-/

namespace EffectLint

inductive Json where
  | Number (value : Nat)
  | Text (text : String)
  | Array (elements : List Json)
  | Object (fields : List (String × Json))

namespace Json

def hexDigit (value : Nat) : Char :=
  if value < 10 then Char.ofNat ('0'.toNat + value) else Char.ofNat ('a'.toNat + value - 10)

-- Only quotes, backslashes and control characters cannot stand for themselves.
def escape (char : Char) : List Char :=
  if char = '"' then ['\\', '"']
  else if char = '\\' then ['\\', '\\']
  else if char = '\n' then ['\\', 'n']
  else if char = '\r' then ['\\', 'r']
  else if char = '\t' then ['\\', 't']
  else if char = '\x08' then ['\\', 'b']
  else if char = '\x0c' then ['\\', 'f']
  else if char.toNat < 32 then
    ['\\', 'u', '0', '0', hexDigit (char.toNat / 16), hexDigit (char.toNat % 16)]
  else [char]

def quote (text : String) : String :=
  "\"" ++ String.ofList (text.toList.flatMap escape) ++ "\""

def indentation (depth : Nat) : String :=
  String.join (List.replicate depth "  ")

-- The members of a list or an object, each on a line of its own.
def enclose (depth : Nat) (opening closing : String) (members : List String) : String :=
  match members with
  | [] => opening ++ closing
  | _ =>
      let lines := members.map fun member => "\n" ++ indentation (depth + 1) ++ member
      opening ++ String.intercalate "," lines ++ "\n" ++ indentation depth ++ closing

mutual

def textAt (depth : Nat) : Json → String
  | .Number value => toString value
  | .Text text => quote text
  | .Array elements => enclose depth "[" "]" (elementTexts (depth + 1) elements)
  | .Object fields => enclose depth "\x7b" "\x7d" (fieldTexts (depth + 1) fields)

def elementTexts (depth : Nat) : List Json → List String
  | [] => []
  | first :: rest => textAt depth first :: elementTexts depth rest

def fieldTexts (depth : Nat) : List (String × Json) → List String
  | [] => []
  | (name, value) :: rest => (quote name ++ ": " ++ textAt depth value) :: fieldTexts depth rest

end

def text (json : Json) : String :=
  textAt 0 json

end Json

end EffectLint
