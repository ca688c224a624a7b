import EffectLint.Report.Diagnostic
import EffectLint.Text.Json

/-!
Diagnostics as JSON. What a diagnostic does not have is left out.
-/

namespace EffectLint

def Span.json (span : Span) : Json :=
  .Object [("start", .Number span.start), ("end", .Number span.stop)]

def Fix.json (fix : Fix) : Json :=
  .Object [("replacement", .Text fix.replacement), ("description", .Text fix.description)]

def Related.json (related : Related) : Json :=
  .Object [("range", related.span.json), ("message", .Text related.message)]

namespace Diagnostic

def fixField (diagnostic : Diagnostic) : List (String × Json) :=
  diagnostic.fix.toList.map fun fix => ("fix", fix.json)

def relatedField (diagnostic : Diagnostic) : List (String × Json) :=
  match diagnostic.related with
  | [] => []
  | related => [("related", .Array (related.map Related.json))]

def json (diagnostic : Diagnostic) : Json :=
  .Object ([("kind", .Text diagnostic.kind.name), ("severity", .Text diagnostic.severity.name),
    ("range", diagnostic.span.json), ("message", .Text diagnostic.message)] ++
    diagnostic.fixField ++ diagnostic.relatedField)

end Diagnostic

def Diagnostics.json (diagnostics : List Diagnostic) : Json :=
  .Array (diagnostics.map Diagnostic.json)

end EffectLint
