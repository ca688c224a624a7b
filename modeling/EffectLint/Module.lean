import EffectLint.Grammar.Item
import EffectLint.Lowering.Module
import EffectLint.Discard.Check

/-!
From source text to an analyzed module. Each stage keeps what the stages before it reported.
-/

namespace EffectLint

structure Settings where
  fuel : Nat
  depth : Nat
  warnings : WarningMode

namespace Settings

def usual : Settings :=
  ⟨1000000, 4096, .Informational⟩

end Settings

-- Why there is no module, or none that can be used.
inductive Failure where
  | Exhausted (reason : Exhausted)
  | ParseFailed (errors : Nat)
  | AnalysisFailed (errors : Nat)
  deriving DecidableEq

def Failure.message : Failure → String
  | .Exhausted reason => reason.message
  | .ParseFailed errors => "parsing failed with " ++ toString errors ++ " errors"
  | .AnalysisFailed errors => "analysis failed with " ++ toString errors ++ " errors"

structure ParsedModule where
  source : List Char
  settings : Settings
  items : List Item
  diagnostics : Array Diagnostic

structure AnalyzedModule where
  source : List Char
  program : Program
  reporter : Reporter
  memo : PurityMemo

namespace ParsedModule

-- Reading fails only where a budget runs out.
def read (source : List Char) (settings : Settings) : Except Exhausted ParsedModule :=
  match parse source settings.fuel settings.depth with
  | .ok parsed => .ok ⟨source, settings, parsed.items, parsed.diagnostics⟩
  | .error reason => .error reason

def isValid (parsed : ParsedModule) : Bool :=
  !Diagnostics.hasErrors parsed.diagnostics.toList

def failure? (parsed : ParsedModule) : Option Failure :=
  if parsed.isValid then none
  else some (.ParseFailed (Diagnostics.errorCount parsed.diagnostics.toList))

-- Lower the module and check every value that it throws away.
def analyze (parsed : ParsedModule) : AnalyzedModule :=
  let lowered := lower parsed.source parsed.items
    (.start parsed.settings.warnings parsed.diagnostics)
  let checked := (lowered.program.checkDiscards.run ⟨lowered.reporter, .empty⟩).2
  ⟨parsed.source, lowered.program, checked.reporter, checked.memo⟩

theorem parse_of_read {source : List Char} {settings : Settings} {parsed : ParsedModule}
    (hread : read source settings = .ok parsed) :
    parse source settings.fuel settings.depth = .ok ⟨parsed.items, parsed.diagnostics⟩ ∧
      parsed.source = source ∧ parsed.settings = settings := by
  unfold read at hread
  cases hparse : parse source settings.fuel settings.depth with
  | error reason =>
      rw [hparse] at hread
      cases hread
  | ok found =>
      rw [hparse] at hread
      cases hread
      exact ⟨rfl, rfl, rfl⟩

-- What is seen of what was read, where reading does not fail.
theorem exists_read {α : Type} {source : List Char} {settings : Settings} {look : ParsedModule → α}
    {seen : α} (h : (read source settings).toOption.map look = some seen) :
    ∃ parsed, read source settings = .ok parsed ∧ look parsed = seen := by
  cases hread : read source settings with
  | error reason =>
      rw [hread] at h
      cases h
  | ok parsed =>
      rw [hread] at h
      exact ⟨parsed, rfl, Option.some.inj h⟩

end ParsedModule

namespace AnalyzedModule

def ofSource (source : List Char) (settings : Settings) : Except Exhausted AnalyzedModule :=
  (ParsedModule.read source settings).map ParsedModule.analyze

def diagnostics (analyzed : AnalyzedModule) : List Diagnostic :=
  analyzed.reporter.diagnostics.toList

-- Without errors, and without warnings where they count as errors.
def isValid (analyzed : AnalyzedModule) : Bool :=
  !analyzed.reporter.hasFailures

def failure? (analyzed : AnalyzedModule) : Option Failure :=
  if analyzed.isValid then none
  else some (.AnalysisFailed (Diagnostics.errorCount analyzed.diagnostics))

end AnalyzedModule

end EffectLint
