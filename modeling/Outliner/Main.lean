import Outliner.CommandLine

set_option autoImplicit false

/-!
# The program

Reads the environment and the file, and prints the outcome of the call.
-/

namespace Outliner.Program

open Outliner.CommandLine

/-- The error of the operating system behind a failure to read a file. -/
def systemError : IO.Error → SystemError
  | .noFileOrDirectory _ _ _ => .notFound
  | .permissionDenied _ code details => ⟨details, code.toNat⟩
  | .inappropriateType _ code details => ⟨details, code.toNat⟩
  | .resourceExhausted _ code details => ⟨details, code.toNat⟩
  | .invalidArgument _ code details => ⟨details, code.toNat⟩
  | .otherError code details => ⟨details, code.toNat⟩
  | other => ⟨toString other, 0⟩

/-- The bytes of a file. -/
def readFile (name : String) : IO (Except SystemError (List UInt8)) := do
  try
    let bytes ← IO.FS.readBinFile name
    return .ok bytes.toList
  catch error => return .error (systemError error)

end Outliner.Program

/-- Runs the program on the words of its command line. -/
def main (words : List String) : IO UInt32 := do
  let environment ← Outliner.CommandLine.Environment.ofLookup fun name => IO.getEnv name
  let outcome ← Outliner.CommandLine.run Outliner.Program.readFile environment words
  IO.print outcome.output
  IO.eprint outcome.errors
  return UInt32.ofNat outcome.exitCode
