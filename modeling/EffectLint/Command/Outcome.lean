import EffectLint.Command.Arguments
import EffectLint.Dump
import EffectLint.Report.Json
import EffectLint.Report.Snippet

/-!
What a command writes and the code that it ends with. Reading the input is left to the caller,
who hands over the bytes or the reason why there are none.
-/

namespace EffectLint

structure Outcome where
  code : Nat
  output : String
  errors : String
  deriving DecidableEq

inductive ReadError where
  -- as the operating system describes it
  | System (description : String) (code : Nat)
  | NotText
  deriving DecidableEq

def ReadError.message : ReadError → String
  | .System description code => description ++ " (os error " ++ toString code ++ ")"
  | .NotText => "stream did not contain valid UTF-8"

def Input.failure (input : Input) (reason : ReadError) : String :=
  match input with
  | .Standard => "failed to read stdin: " ++ reason.message
  | .File path => "failed to read '" ++ path ++ "': " ++ reason.message

namespace Outcome

def failed (message : String) : Outcome :=
  ⟨1, "", "error: " ++ message ++ "\n"⟩

def usage : String :=
  "Usage: effectlint check [-w | --no-warnings] [--json] [--color WHEN] [FILE]\n" ++
    "       effectlint dump [--color WHEN] [FILE]\n"

def ofRefusal : Refusal → Outcome
  | .Help => ⟨0, usage, ""⟩
  | .Misuse misuse => ⟨2, "", "error: " ++ misuse.message ++ "\n\n" ++ usage⟩

end Outcome

def decodeText (bytes : ByteArray) : Except ReadError String :=
  match String.fromUTF8? bytes with
  | some text => .ok text
  | none => .error .NotText

namespace Invocation

variable (invocation : Invocation)

def settings : Settings :=
  { Settings.usual with warnings := invocation.warnings }

-- The diagnostics as they are shown, or nothing where there are none.
def shown (isColored : Bool) (analyzed : AnalyzedModule) : String :=
  let exhibit : Exhibit := ⟨analyzed.source, some invocation.input.name, isColored⟩
  match analyzed.diagnostics with
  | [] => ""
  | diagnostics => exhibit.text diagnostics ++ "\n"

-- A check succeeds where the module is valid. A dump is made of every module.
def outcomeOf (isColored : Bool) (analyzed : AnalyzedModule) : Outcome :=
  match invocation.command with
  | .Check =>
      let code := if analyzed.isValid then 0 else 1
      if .Json ∈ invocation.flags then
        ⟨code, (Diagnostics.json analyzed.diagnostics).text ++ "\n", ""⟩
      else ⟨code, "", invocation.shown isColored analyzed⟩
  | .Dump => ⟨0, analyzed.dump isColored, invocation.shown isColored analyzed⟩

def run (isTerminal : Bool) (bytes : Except ReadError ByteArray) : Outcome :=
  match bytes.bind decodeText with
  | .error reason => .failed (invocation.input.failure reason)
  | .ok text =>
      match AnalyzedModule.ofSource text.toList invocation.settings with
      | .error reason => .failed reason.message
      | .ok analyzed => invocation.outcomeOf (invocation.color.isColored isTerminal) analyzed

end Invocation

end EffectLint
