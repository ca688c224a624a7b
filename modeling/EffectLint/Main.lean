import EffectLint.Command.Outcome

/-!
The program itself: read the input that the command line names, and write what the command
makes of it.
-/

namespace EffectLint

-- The usual reasons have the words and the numbers that the operating system gives them.
def ReadError.ofIO : IO.Error → ReadError
  | .noFileOrDirectory _ _ _ => .System "No such file or directory" 2
  | .permissionDenied _ _ _ => .System "Permission denied" 13
  | .inappropriateType _ code details => .System details code.toNat
  | .invalidArgument _ code details => .System details code.toNat
  | .resourceExhausted _ code details => .System details code.toNat
  | .otherError code details => .System details code.toNat
  | error => .System (toString error) 0

-- Everything up to the end of a stream, behind what has been read already.
partial def readAll (stream : IO.FS.Stream) (seen : ByteArray) : IO ByteArray := do
  let chunk ← stream.read 65536
  if chunk.isEmpty then return seen else readAll stream (seen ++ chunk)

def Input.read (input : Input) : IO (Except ReadError ByteArray) := do
  try
    match input with
    | .Standard => return .ok (← readAll (← IO.getStdin) .empty)
    | .File path => return .ok (← IO.FS.readBinFile path)
  catch error => return .error (.ofIO error)

def Outcome.perform (outcome : Outcome) : IO UInt32 := do
  IO.print outcome.output
  IO.eprint outcome.errors
  return outcome.code.toUInt32

end EffectLint

open EffectLint in
def main (arguments : List String) : IO UInt32 := do
  match Invocation.ofArguments arguments with
  | .error refusal => (Outcome.ofRefusal refusal).perform
  | .ok invocation =>
      let isTerminal := (← (← IO.getStdout).isTty) && (← (← IO.getStderr).isTty)
      (invocation.run isTerminal (← invocation.input.read)).perform
