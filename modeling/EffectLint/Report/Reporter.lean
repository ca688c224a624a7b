import EffectLint.Report.Diagnostic

/-!
Collecting diagnostics. A reporter can be gagged: it then keeps nothing of what it is told and
only counts the errors, which is how a question about code is answered without complaining
about that code. Gags nest.
-/

namespace EffectLint

-- What becomes of warnings.
inductive WarningMode where
  | Off
  | Informational
  | AsErrors
  deriving DecidableEq

structure Reporter where
  mode : WarningMode
  depth : Nat
  -- errors that gags have kept back so far
  swallowed : Nat
  diagnostics : Array Diagnostic
  deriving DecidableEq

-- What the count of swallowed errors was when a gag began.
structure Gag where
  swallowedBefore : Nat
  deriving DecidableEq

namespace Reporter

def start (mode : WarningMode) (diagnostics : Array Diagnostic) : Reporter :=
  ⟨mode, 0, 0, diagnostics⟩

def isGagged (reporter : Reporter) : Bool :=
  decide (0 < reporter.depth)

def warningsEnabled (reporter : Reporter) : Bool :=
  reporter.mode != .Off && !reporter.isGagged

def report (reporter : Reporter) (diagnostic : Diagnostic) : Reporter :=
  if reporter.isGagged then
    if diagnostic.isError then { reporter with swallowed := reporter.swallowed + 1 }
    else reporter
  else { reporter with diagnostics := reporter.diagnostics.push diagnostic }

def startGag (reporter : Reporter) : Gag × Reporter :=
  (⟨reporter.swallowed⟩, { reporter with depth := reporter.depth + 1 })

-- Whether an error was swallowed since the gag began.
def endGag (reporter : Reporter) (gag : Gag) : Bool × Reporter :=
  (reporter.swallowed != gag.swallowedBefore, { reporter with depth := reporter.depth - 1 })

-- Whether what has been reported makes the module fail.
def hasFailures (reporter : Reporter) : Bool :=
  Diagnostics.hasErrors reporter.diagnostics.toList ||
    (reporter.mode == .AsErrors && Diagnostics.hasWarnings reporter.diagnostics.toList)

end Reporter

end EffectLint
