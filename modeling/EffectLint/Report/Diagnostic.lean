import EffectLint.Text.Span
import EffectLint.Report.Kind

/-!
A diagnostic: what is wrong, where, and what else helps to see it or to mend it.
-/

namespace EffectLint

-- A replacement for the text that the diagnostic is about.
structure Fix where
  replacement : String
  description : String
  deriving DecidableEq

-- Another place that has to do with the diagnostic.
structure Related where
  span : Span
  message : String
  deriving DecidableEq

structure Diagnostic where
  kind : DiagnosticKind
  severity : Severity
  span : Span
  message : String
  fix : Option Fix
  related : List Related
  deriving DecidableEq

namespace Diagnostic

-- With the severity and the fallback message of its kind.
def plain (kind : DiagnosticKind) (span : Span) : Diagnostic :=
  ⟨kind, kind.severity, span, kind.fallback, none, []⟩

def about (kind : DiagnosticKind) (span : Span) (detail : String) : Diagnostic :=
  { plain kind span with message := kind.detailed detail }

def relatedTo (diagnostic : Diagnostic) (message : String) (span : Span) : Diagnostic :=
  { diagnostic with related := diagnostic.related ++ [⟨span, message⟩] }

def isError (diagnostic : Diagnostic) : Bool :=
  diagnostic.severity == .Error

def isWarning (diagnostic : Diagnostic) : Bool :=
  diagnostic.severity == .Warning

end Diagnostic

namespace Diagnostics

def errorCount (diagnostics : List Diagnostic) : Nat :=
  diagnostics.countP Diagnostic.isError

def warningCount (diagnostics : List Diagnostic) : Nat :=
  diagnostics.countP Diagnostic.isWarning

def hasErrors (diagnostics : List Diagnostic) : Bool :=
  diagnostics.any Diagnostic.isError

def hasWarnings (diagnostics : List Diagnostic) : Bool :=
  diagnostics.any Diagnostic.isWarning

end Diagnostics

end EffectLint
