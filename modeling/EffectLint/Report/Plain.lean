import EffectLint.Report.Diagnostic

/-!
Diagnostics without their source: one line each, with places given as offsets.
-/

namespace EffectLint

def Span.text (span : Span) : String :=
  toString span.start ++ ".." ++ toString span.stop

def Fix.remark (fix : Fix) : String :=
  " (fix: " ++ fix.description ++ ")"

def Related.remark (related : Related) : String :=
  " (related: " ++ related.message ++ " at " ++ related.span.text ++ ")"

def Diagnostic.text (diagnostic : Diagnostic) : String :=
  diagnostic.severity.name ++ " at " ++ diagnostic.span.text ++ ": " ++ diagnostic.message ++
    String.join (diagnostic.fix.toList.map Fix.remark) ++
    String.join (diagnostic.related.map Related.remark)

def Diagnostics.text (diagnostics : List Diagnostic) : String :=
  String.intercalate "\n" (diagnostics.map Diagnostic.text)

end EffectLint
