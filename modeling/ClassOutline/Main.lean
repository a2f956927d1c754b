import ClassOutline.CommandLine

/-!
# The program

Opens the files named on the command line, one after another, and prints what processing each of
them leaves behind.
-/

namespace ClassOutline

/-- The words of the operating system for an error, with its number. -/
def systemMessage (code : UInt32) (details : String) : String :=
  details ++ " (os error " ++ toString code.toNat ++ ")"

/-- The failure that an error of the operating system stands for. -/
def IoFailure.ofError : IO.Error → IoFailure
  | .noFileOrDirectory _ code details => ⟨.notFound, systemMessage code details⟩
  | .permissionDenied _ code details => ⟨.permissionDenied, systemMessage code details⟩
  | .interrupted _ code details => ⟨.interrupted, systemMessage code details⟩
  | .timeExpired code details => ⟨.timedOut, systemMessage code details⟩
  | .resourceVanished code details => ⟨.brokenPipe, systemMessage code details⟩
  | .inappropriateType _ code details => ⟨.isDirectory, systemMessage code details⟩
  | .alreadyExists _ code details => ⟨.other, systemMessage code details⟩
  | .otherError code details => ⟨.other, systemMessage code details⟩
  | .resourceBusy code details => ⟨.other, systemMessage code details⟩
  | .unsupportedOperation code details => ⟨.other, systemMessage code details⟩
  | .hardwareFault code details => ⟨.other, systemMessage code details⟩
  | .unsatisfiedConstraints code details => ⟨.other, systemMessage code details⟩
  | .illegalOperation code details => ⟨.other, systemMessage code details⟩
  | .protocolError code details => ⟨.other, systemMessage code details⟩
  | .invalidArgument _ code details => ⟨.other, systemMessage code details⟩
  | .resourceExhausted _ code details => ⟨.other, systemMessage code details⟩
  | .noSuchThing _ code details => ⟨.notFound, systemMessage code details⟩
  | .unexpectedEof => .endOfInput
  | .userError message => ⟨.other, message⟩

def openFile (path : String) : IO (Except IoFailure (List ReadStep)) := do
  match ← (IO.FS.Handle.mk path .read).toBaseIO with
  | .error error => return .error (.ofError error)
  | .ok handle =>
    match ← handle.readBinToEnd.toBaseIO with
    | .error error => return .ok [.failure (.ofError error)]
    | .ok bytes => return .ok [.chunk bytes.toList]

end ClassOutline

open ClassOutline in
def main (paths : List String) : IO UInt32 := do
  let mut failed := false
  for path in paths do
    -- what is printed and shown for a file does not depend on the files before it
    let state := CommandLine.step path (← openFile path) { CommandLine.State.initial with failed }
    let transcript := state.transcript .standard
    IO.print transcript.stdout
    IO.eprint transcript.stderr
    failed := state.failed
  return if failed then 1 else 0
