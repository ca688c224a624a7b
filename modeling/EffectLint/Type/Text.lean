import EffectLint.Type.Table

/-!
Types as they are written in source. An alias is written by its name.
-/

namespace EffectLint

namespace TypeTable

variable (table : TypeTable) (names : NameTable)

def promisesText (promises : Promises) : String :=
  (if promises.isPure then " pure" else "") ++ (if promises.isNothrow then " nothrow" else "")

-- `result keyword(parameters) promises`, with the parts written by `text`.
def signatureText (text : TypeId → String) (keyword : String) (signature : Signature) : String :=
  let parameter (parameter : ParameterType) : String :=
    (if parameter.isRef then "ref " else "") ++ text parameter.type
  text signature.result ++ keyword ++ "(" ++
    String.intercalate ", " (signature.parameters.map parameter) ++ ")" ++
    promisesText signature.promises

def textWithin : Nat → TypeId → String
  | 0, _ => ""
  | steps + 1, type =>
      let text := textWithin steps
      match table.shape type with
      | .Basic type => type.name
      | .Null => "typeof(null)"
      | .Error => "__error"
      | .Class name | .Alias name _ => names.text name
      | .Pointer target =>
          match table.shape target with
          | .Function signature => signatureText text " function" signature
          | _ => text target ++ "*"
      | .Array element => text element ++ "[]"
      | .AssocArray key value => text value ++ "[" ++ text key ++ "]"
      | .Function signature => signatureText text "" signature
      | .Delegate function =>
          match table.shape function with
          | .Function signature => signatureText text " delegate" signature
          | _ => "delegate " ++ text function
      | .Tuple elements => "tuple(" ++ String.intercalate ", " (elements.map text) ++ ")"

def text (type : TypeId) : String :=
  textWithin table names (type.index + 1) type

end TypeTable

end EffectLint
